import MusicLisp.Native
import MusicLisp.Report
import MusicLisp.Proofs.Evaluation.Matching
import MusicLisp.Proofs.Form.Brackets
import MusicLisp.Proofs.Form.Nodes

/-!
# What errors blame

An error blames a form: one of the text that is evaluated, or one of the body of a function that the session held
before. The second kind stands in an earlier text, and its span says nothing about the text that is evaluated.

* `Blamed`: which node an error blames, by its cause.
* `evaluate_keptBy`: a property of forms that goes down to their parts and holds of the forms of a text and of the
  bodies of all functions held is one of what errors blame, and of the bodies held afterwards. What evaluation of such
  forms keeps of the frames is kept along with it; `evaluate_same` does without.
* `held_evaluateAll`: the body of a function held after some texts is a node of one of them.
* `evaluate_points`: **an error points into the text that is evaluated, or into the body of a function held, in the
  earlier text that the function was made by.**
* `start_blames`: **in a fresh session an error blames a node of the text, and what is marked is inside the text.**
-/

namespace MusicLisp

open Eval

/-- **The node that an error blames** has the property: a symbol for an unbound name, the head of a list for what
cannot be called, a key of a map for what cannot be a key, any form that makes a special form malformed, and a list
for all that goes wrong in a call. -/
def Blamed (P : Form → Prop) (e : EvalError) : Prop :=
  match e.cause with
  | .undefinedSymbol name => P (.atom e.span (.symbol name))
  | .notAFunction _ => ∃ span head operands, P (.list span (head :: operands)) ∧ e.span = head.span
  | .invalidMapKey _ => ∃ span entries, P (.map span entries) ∧ ∃ entry ∈ entries, e.span = entry.1.span
  | .invalidSpecialForm _ => ∃ form, P form ∧ e.span = form.span
  | .arityMismatch _ _ _ | .invalidArguments _ | .typeMismatch _ _ _ | .divisionByZero | .invalidNote _
  | .unknownPattern _ _ | .callDepthExceeded _ => ∃ items, P (.list e.span items)

theorem Blames.blamed {P : Form → Prop} {e f : EvalError} (h : Blames (Form.Same P) e f) : Blamed P e := by
  cases h with
  | symbol h => exact h.2
  | head found h hhead => exact ⟨_, _, _, h.2, rfl⟩
  | @call _ _ _ _ cause hcause h =>
    cases cause with
    | undefinedSymbol | notAFunction | invalidSpecialForm | invalidMapKey =>
      obtain hnative | ⟨limit, hlimit⟩ := hcause
      · exact hnative.elim
      · cases hlimit
    | arityMismatch | invalidArguments | typeMismatch | divisionByZero | invalidNote | unknownPattern
    | callDepthExceeded => exact ⟨_, h.2⟩
  | @key _ _ before _ rest _ key value _ _ found h hkey =>
    exact ⟨_, _, h.2, (key, value), List.mem_append_right before List.mem_cons_self, rfl⟩
  | shape text h => exact ⟨_, h.2, rfl⟩

/-- What is blamed is a form, and a symbol for an unbound name. -/
theorem Blamed.exists_form {P : Form → Prop} (hP : Form.Closed P) {e : EvalError} (h : Blamed P e) :
    ∃ form, P form ∧ e.span = form.span ∧ ∀ name, e.cause = .undefinedSymbol name → form.symbol? = some name := by
  obtain ⟨cause, span⟩ := e
  cases cause with
  | undefinedSymbol name => exact ⟨_, h, rfl, by rintro _ ⟨⟩; rfl⟩
  | notAFunction found =>
    obtain ⟨_, head, operands, h, hspan⟩ := h
    exact ⟨head, hP.item h List.mem_cons_self, hspan, nofun⟩
  | invalidMapKey found =>
    obtain ⟨_, entries, h, entry, hentry, hspan⟩ := h
    exact ⟨entry.1, hP.key h hentry, hspan, nofun⟩
  | invalidSpecialForm text =>
    obtain ⟨form, h, hspan⟩ := h
    exact ⟨form, h, hspan, nofun⟩
  | arityMismatch | invalidArguments | typeMismatch | divisionByZero | invalidNote | unknownPattern
  | callDepthExceeded =>
    obtain ⟨items, h⟩ := h
    exact ⟨_, h, rfl, nofun⟩

/-! ### What a session holds -/

namespace Session

section

variable {P : Form → Prop} (hP : Form.Closed P) {I : Scopes → Prop} (hI : Scopes.KeptBy P I) {s : Session}
include hP

section

include hI

/-- **A property of the forms of a text and of the bodies of all functions held** is one of the bodies held afterwards,
and of what an error blames; and a property of frames that is kept by evaluation of such forms is kept. -/
theorem evaluate_keptBy (hs : s.scopes.Matches (fun _ => Form.Same P) s.scopes) (hkept : I s.scopes) {source : String}
    (hsource : ∀ forms, readForms source = .ok forms → ∀ form ∈ forms, P form) :
    (s.evaluate source).2.scopes.Matches (fun _ => Form.Same P) (s.evaluate source).2.scopes ∧
      I (s.evaluate source).2.scopes ∧ ∀ e, (s.evaluate source).1.result = .error (.eval e) → Blamed P e := by
  cases hread : readForms source with
  | error e =>
    obtain ⟨hresult, hscopes⟩ := evaluate_of_error hread s
    rw [hresult, hscopes]
    exact ⟨hs, hkept, nofun⟩
  | ok forms =>
    have hready : (s.ready forms).Matches (fun _ => Form.Same P) [] (s.ready forms) :=
      (Matches.of_scopes (s := s.clearPrinted.resetDepth) hs).note _
    have hforms : List.Forall₂ (Form.Same P) forms forms :=
      List.forall₂_same.mpr fun form hform => ⟨rfl, hsource forms hread form hform⟩
    have houtcomes := alike_evalForms (Form.matching_same hP) (lockstep_keptBy hI) hforms .nil globalFrame _ _
      ⟨⟨Nat.zero_le _, hready⟩, hkept⟩
    rw [evaluate_of_ok hread]
    generalize evalForms forms .nil globalFrame (s.ready forms) = r at houtcomes ⊢
    cases r with
    | ok v t =>
      cases houtcomes with
      | ok _ hst => exact ⟨hst.1.2.scopes, hst.2, nofun⟩
    | error e t =>
      cases houtcomes with
      | error hblames hst => exact ⟨hst.1.2.scopes, hst.2, by rintro _ ⟨⟩; exact hblames.blamed⟩

theorem evaluateAll_keptBy (hs : s.scopes.Matches (fun _ => Form.Same P) s.scopes) (hkept : I s.scopes)
    (texts : List String) (htexts : ∀ text ∈ texts, ∀ forms, readForms text = .ok forms → ∀ form ∈ forms, P form) :
    (s.evaluateAll texts).2.scopes.Matches (fun _ => Form.Same P) (s.evaluateAll texts).2.scopes ∧
      I (s.evaluateAll texts).2.scopes := by
  induction texts generalizing s with
  | nil => exact ⟨hs, hkept⟩
  | cons text rest ih =>
    obtain ⟨htext, hrest⟩ := List.forall_mem_cons.mp htexts
    obtain ⟨hmatches, hkept', -⟩ := evaluate_keptBy hP hI hs hkept htext
    exact ih hmatches hkept' hrest

end

theorem evaluate_same (hs : s.scopes.Matches (fun _ => Form.Same P) s.scopes) {source : String}
    (hsource : ∀ forms, readForms source = .ok forms → ∀ form ∈ forms, P form) :
    (s.evaluate source).2.scopes.Matches (fun _ => Form.Same P) (s.evaluate source).2.scopes ∧
      ∀ e, (s.evaluate source).1.result = .error (.eval e) → Blamed P e := by
  obtain ⟨hmatches, -, hblamed⟩ := evaluate_keptBy hP (Scopes.keptBy_true P) hs trivial hsource
  exact ⟨hmatches, hblamed⟩

theorem evaluateAll_same (hs : s.scopes.Matches (fun _ => Form.Same P) s.scopes) (texts : List String)
    (htexts : ∀ text ∈ texts, ∀ forms, readForms text = .ok forms → ∀ form ∈ forms, P form) :
    (s.evaluateAll texts).2.scopes.Matches (fun _ => Form.Same P) (s.evaluateAll texts).2.scopes :=
  (evaluateAll_keptBy hP (Scopes.keptBy_true P) hs trivial texts htexts).1

end

theorem withNatives_matches {R : Nat → Form → Form → Prop} (ops : List Operation) {s : Session}
    (h : s.scopes.Matches R s.scopes) : (s.withNatives ops).scopes.Matches R (s.withNatives ops).scopes := by
  induction ops generalizing s with
  | nil => exact h
  | cons op rest ih => exact ih (h.bind globalFrame op.name (.native ⟨op.name, .operation op⟩))

/-- A fresh session holds no function that has a body. -/
theorem start_matches (R : Nat → Form → Form → Prop) (settings : Settings) (engine : Engine) :
    (start settings engine).scopes.Matches R (start settings engine).scopes := by
  have hbare : (bare settings engine).scopes.Matches R (bare settings engine).scopes := by
    refine Scopes.matches_self_iff.mpr ?_
    rintro f ⟨frame, hframe, entry, hentry, -⟩
    obtain rfl : frame = ⟨none, []⟩ := List.mem_singleton.mp (Array.mem_toList_iff.mpr hframe)
    cases hentry
  exact withNatives_matches _
    (((hbare.bind _ "true" (.boolean true)).bind _ "false" (.boolean false)).bind _ "nil" .nil)

/-- **The body of a function held after some texts** is a node of one of them. -/
theorem held_evaluateAll (settings : Settings) (engine : Engine) (texts : List String) {f : Lambda}
    (h : ((start settings engine).evaluateAll texts).2.scopes.Holds f) :
    ∃ text ∈ texts, ∃ forms, readForms text = .ok forms ∧ Form.Node forms f.body := by
  let P (form : Form) : Prop := ∃ text, ∃ forms, (text ∈ texts ∧ readForms text = .ok forms) ∧ Form.Node forms form
  have hP : Form.Closed P := .exists fun text => .exists fun forms => .and _ (Form.closed_node forms)
  have hmatches := evaluateAll_same hP (start_matches _ settings engine) texts
    fun text htext forms hforms form hform => ⟨text, forms, ⟨htext, hforms⟩, .root hform⟩
  obtain ⟨-, text, forms, ⟨htext, hforms⟩, hnode⟩ := Scopes.matches_self_iff.mp hmatches f h
  exact ⟨text, htext, forms, hforms, hnode⟩

end Session

/-! ### Where errors point -/

/-- **The error points into the text**: its span is a stretch of it, and for an unbound name the stretch is the
name. -/
structure PointsInto (err : ProgramError) (text : String) : Prop where
  ordered : err.span.start ≤ err.span.stop
  bound : err.span.stop ≤ text.utf8ByteSize
  named : ∀ name span, err = .eval ⟨.undefinedSymbol name, span⟩ → span.Covers text name

theorem Form.Placed.pointsInto {form : Form} {text : String} (h : form.Placed text) {e : EvalError}
    (hspan : e.span = form.span) (hname : ∀ name, e.cause = .undefinedSymbol name → form.symbol? = some name) :
    PointsInto (.eval e) text where
  ordered := by
    show e.span.start ≤ e.span.stop
    rw [hspan]
    exact Nat.le_of_lt h.inside.nonempty
  bound := by
    show e.span.stop ≤ text.utf8ByteSize
    rw [hspan]
    exact h.inside.bound
  named := by
    rintro name span ⟨⟩
    rw [show span = form.span from hspan]
    exact h.named name (hname name rfl)

theorem pointsInto_read {text : String} {e : ReadError} (h : readForms text = .error e) :
    PointsInto (.read e) text := by
  obtain hinside | ⟨hpoint, -⟩ := readForms_error_placed h
  · exact ⟨Nat.le_of_lt hinside.nonempty, hinside.bound, nofun⟩
  · have hspan : (ProgramError.read e).span = .point text.utf8ByteSize := hpoint
    exact ⟨by rw [hspan]; exact Nat.le_refl _, by rw [hspan]; exact Nat.le_refl _, nofun⟩

/-- **An error points into the text that is evaluated**, or it blames a node of the body of a function that the
session held, and points into the earlier text that the function comes from. -/
theorem evaluate_points {settings : Settings} {engine : Engine} {before : List String} {code : String}
    {err : ProgramError}
    (h : (((Session.start settings engine).evaluateAll before).2.evaluate code).1.result = .error err) :
    PointsInto err code ∨ ∃ f, ((Session.start settings engine).evaluateAll before).2.scopes.Holds f ∧
      (∃ form, Form.Node [f.body] form ∧ err.span = form.span) ∧
        ∃ earlier ∈ before, ∃ forms, readForms earlier = .ok forms ∧ Form.Node forms f.body ∧
          PointsInto err earlier := by
  cases hread : readForms code with
  | error e =>
    rw [(Session.evaluate_of_error hread _).1] at h
    cases h
    exact .inl (pointsInto_read hread)
  | ok forms =>
    obtain ⟨e, rfl⟩ := Session.exists_eval_error hread h
    generalize hs : ((Session.start settings engine).evaluateAll before).2 = s at h ⊢
    have hP : Form.Closed fun form => Form.Node forms form ∨ ∃ f, s.scopes.Holds f ∧ Form.Node [f.body] form :=
      (Form.closed_node forms).or (.exists fun f => .and _ (Form.closed_node [f.body]))
    have hheld : s.scopes.Matches (fun _ => Form.Same fun form => Form.Node forms form ∨
        ∃ f, s.scopes.Holds f ∧ Form.Node [f.body] form) s.scopes :=
      Scopes.matches_self_iff.mpr fun f hf => ⟨rfl, .inr ⟨f, hf, .root (List.mem_singleton_self f.body)⟩⟩
    have hforms : ∀ forms', readForms code = .ok forms' → ∀ form ∈ forms',
        Form.Node forms form ∨ ∃ f, s.scopes.Holds f ∧ Form.Node [f.body] form := by
      intro forms' hforms' form hform
      cases hread.symm.trans hforms'
      exact .inl (.root hform)
    have hblamed := (Session.evaluate_same hP hheld hforms).2 e h
    obtain ⟨form, hnode | ⟨f, hf, hnode⟩, hspan, hname⟩ := hblamed.exists_form hP
    · exact .inl ((Form.node_placed hread hnode).pointsInto hspan hname)
    · rw [← hs] at hf
      obtain ⟨earlier, hearlier, forms', hforms', hbody⟩ := Session.held_evaluateAll settings engine before hf
      have hnode' : Form.Node forms' form :=
        (Form.closed_node forms').node (fun _ h => List.mem_singleton.mp h ▸ hbody) hnode
      exact .inr ⟨f, hs ▸ hf, ⟨form, hnode, hspan⟩, earlier, hearlier, forms', hforms', hbody,
        (Form.node_placed hforms' hnode').pointsInto hspan hname⟩

set_option maxRecDepth 100000 in
theorem evaluate_earlier_body :
    (((Session.start {} .fresh).evaluateAll ["(defn f [] nope)"]).2.evaluate "(f) nope").1.result =
      .error (.eval ⟨.undefinedSymbol "nope", ⟨11, 15⟩⟩) := by
  have hdefn : readForms "(defn f [] nope)" = .ok [.list ⟨0, 16⟩ [.atom ⟨1, 5⟩ (.symbol "defn"),
      .atom ⟨6, 7⟩ (.symbol "f"), .vector ⟨8, 10⟩ [], .atom ⟨11, 15⟩ (.symbol "nope")]] := by cbv
  have hcall : readForms "(f) nope" = .ok [.list ⟨0, 3⟩ [.atom ⟨1, 2⟩ (.symbol "f")],
      .atom ⟨4, 8⟩ (.symbol "nope")] := by cbv
  rw [Session.evaluate_of_ok hcall]
  change (Session.close (Session.evalForms _ _ _ (((Session.start {} .fresh).evaluate _).2.ready _))).1.result = _
  rw [Session.evaluate_of_ok hdefn]
  with_unfolding_all rfl

theorem not_pointsInto_of_bound {cause : EvalCause} {span : Span} {text : String}
    (h : text.utf8ByteSize < span.stop) : ¬ PointsInto (.eval ⟨cause, span⟩) text :=
  fun hpoints => Nat.not_le_of_lt h hpoints.bound

/-- A function of an earlier text is called, and its body has an unbound name: the error points into the earlier
text. -/
theorem evaluate_points_earlier : ∃ settings engine f,
    (((Session.start settings engine).evaluateAll ["(defn f [] nope)"]).2.evaluate "(f) nope").1.result =
      .error (.eval ⟨.undefinedSymbol "nope", ⟨11, 15⟩⟩) ∧
    ((Session.start settings engine).evaluateAll ["(defn f [] nope)"]).2.scopes.Holds f ∧
    PointsInto (.eval ⟨.undefinedSymbol "nope", ⟨11, 15⟩⟩) "(defn f [] nope)" := by
  obtain hpoints | ⟨f, hf, -, earlier, hearlier, -, -, -, hpoints⟩ := evaluate_points evaluate_earlier_body
  · exact absurd hpoints (not_pointsInto_of_bound (by decide))
  · obtain rfl := List.mem_singleton.mp hearlier
    exact ⟨{}, .fresh, f, evaluate_earlier_body, hf, hpoints⟩

/-- **An error need not point into the text that is evaluated.** -/
theorem not_pointsInto_evaluated : ∃ settings engine before code err,
    (((Session.start settings engine).evaluateAll before).2.evaluate code).1.result = .error err ∧
      ¬ PointsInto err code :=
  ⟨{}, .fresh, ["(defn f [] nope)"], "(f) nope", _, evaluate_earlier_body, not_pointsInto_of_bound (by decide)⟩

/-! ### Errors in a fresh session -/

/-- What is marked for a span in a text, or for its end, is in the text. -/
theorem labelSpan_inside {span : Span} {bytes : Nat} (h : span.Inside bytes ∨ span = .point bytes ∧ 0 < bytes) :
    (Report.labelSpan span bytes).Inside bytes := by
  unfold Report.labelSpan
  obtain hinside | ⟨rfl, hpos⟩ := h
  · rw [if_neg fun hle => absurd hinside.nonempty (Nat.not_lt.mpr hle.1)]
    exact hinside
  · rw [if_pos ⟨Nat.le_refl _, hpos⟩]
    dsimp only [Span.point]
    rw [Nat.min_self]
    exact ⟨Nat.sub_lt hpos Nat.one_pos, Nat.le_refl _⟩

/-- **In a fresh session an error blames a node of the text**, an unbound name where the text has the name; and what
is marked for an error, one in reading too, is in the text and not empty. -/
theorem start_blames {settings : Settings} {engine : Engine} {source : String} {err : ProgramError}
    (h : ((Session.start settings engine).evaluate source).1.result = .error err) :
    (∀ e, err = .eval e → ∃ forms, readForms source = .ok forms ∧ Blamed (Form.Node forms) e ∧
      ∀ name, e.cause = .undefinedSymbol name → e.span.Covers source name) ∧
    (Report.labelSpan err.span source.utf8ByteSize).Inside source.utf8ByteSize := by
  cases hread : readForms source with
  | error e =>
    rw [(Session.evaluate_of_error hread _).1] at h
    cases h
    exact ⟨nofun, labelSpan_inside (readForms_error_placed hread)⟩
  | ok forms =>
    obtain ⟨e, rfl⟩ := Session.exists_eval_error hread h
    have hforms : ∀ forms', readForms source = .ok forms' → ∀ form ∈ forms', Form.Node forms form := by
      intro forms' hforms' form hform
      cases hread.symm.trans hforms'
      exact .root hform
    have hblamed := (Session.evaluate_same (Form.closed_node forms) (Session.start_matches _ settings engine)
      hforms).2 e h
    obtain ⟨form, hnode, hspan, hname⟩ := hblamed.exists_form (Form.closed_node forms)
    have hplaced := Form.node_placed hread hnode
    have hinside : e.span.Inside source.utf8ByteSize := hspan ▸ hplaced.inside
    refine ⟨?_, labelSpan_inside (.inl hinside)⟩
    rintro _ ⟨⟩
    exact ⟨forms, rfl, hblamed, fun name hcause => hspan ▸ hplaced.named name (hname name hcause)⟩

set_option maxRecDepth 100000 in
/-- An argument that is not bound: the symbol is blamed and marked. -/
theorem start_blames_argument : ∃ settings engine,
    ((Session.start settings engine).evaluate "(+ x)").1.result = .error (.eval ⟨.undefinedSymbol "x", ⟨3, 4⟩⟩) ∧
    (∃ forms, readForms "(+ x)" = .ok forms ∧ Form.Node forms (.atom ⟨3, 4⟩ (.symbol "x"))) ∧
    (Report.labelSpan ⟨3, 4⟩ "(+ x)".utf8ByteSize).Inside "(+ x)".utf8ByteSize := by
  have hread : readForms "(+ x)" = .ok [.list ⟨0, 5⟩ [.atom ⟨1, 2⟩ (.symbol "+"), .atom ⟨3, 4⟩ (.symbol "x")]] := by
    cbv
  have hresult : ((Session.start {} .fresh).evaluate "(+ x)").1.result =
      .error (.eval ⟨.undefinedSymbol "x", ⟨3, 4⟩⟩) := by
    rw [Session.evaluate_of_ok hread]
    with_unfolding_all rfl
  obtain ⟨hblames, hinside⟩ := start_blames hresult
  obtain ⟨forms, hforms, hblamed, -⟩ := hblames _ rfl
  exact ⟨{}, .fresh, hresult, ⟨forms, hforms, hblamed⟩, hinside⟩

end MusicLisp
