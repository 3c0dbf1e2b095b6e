import MusicLisp.Proofs.Evaluation.Kept
import MusicLisp.Proofs.Evaluation.Matching
import MusicLisp.Proofs.Form.Nodes

/-!
# Evaluating two texts at once

A session evaluates two texts with a line break between as it evaluates the first and then the second: the forms of
the two are those of the first and then those of the second, moved; and what a session resets between two texts is as
it was after the first, or is not looked at.

* `evalForms_append`: forms after forms.
* `evaluate_join`: **two texts at once are like one after the other.** The second text stands elsewhere, so errors in
  it and the bodies of functions made by it are moved.
-/

namespace MusicLisp

open Eval

/-- **The same body of a function,** or, of functions numbered from `base` on, a body with a property, moved by `n`
bytes. -/
def MovedFrom (base n : Nat) (P : Form → Prop) (id : Nat) (body body' : Form) : Prop :=
  body' = body ∨ base ≤ id ∧ P body ∧ body' = body.shift n

/-- **The same result** but for where the bodies of functions numbered from `base` on stand, and where the error
stands: they may be moved by `n` bytes. -/
inductive ResultMoved (base n : Nat) (P : Form → Prop) :
    Except ProgramError Value → Except ProgramError Value → Prop
  | ok {v w : Value} (h : v.Matches (MovedFrom base n P) w) : ResultMoved base n P (.ok v) (.ok w)
  | error {cause : EvalCause} {span span' : Span} (h : span' = span ∨ span' = span.shift n) :
    ResultMoved base n P (.error (.eval ⟨cause, span⟩)) (.error (.eval ⟨cause, span'⟩))

namespace Session

theorem evalForms_append (forms forms' : List Form) (last : Value) (frame : FrameId) :
    evalForms (forms ++ forms') last frame = evalForms forms last frame >>= fun v => evalForms forms' v frame := by
  induction forms generalizing last with
  | nil => rfl
  | cons form rest ih =>
    have hrest : (fun v => evalForms (rest ++ forms') v frame) =
        fun v => evalForms rest v frame >>= fun v => evalForms forms' v frame := funext ih
    change eval form frame >>= (fun v => evalForms (rest ++ forms') v frame) = _
    rw [hrest]
    exact (bind_assoc (eval form frame) _ _).symm

/-- What comes before forms does not matter if there are any. -/
theorem evalForms_last {forms : List Form} (h : forms ≠ []) (last last' : Value) (frame : FrameId) :
    evalForms forms last frame = evalForms forms last' frame := by
  cases forms with
  | nil => exact absurd rfl h
  | cons form rest => rfl

/-- The counter of nested calls is back after forms. -/
theorem depth_of_evalForms {forms : List Form} {last v : Value} {s t : Session}
    (h : evalForms forms last globalFrame s = .ok v t) : t.depth = s.depth := by
  have hkept := keeps_evalForms (kept_level sparesCounter_none) forms last globalFrame s
  unfold left at hkept
  rw [h] at hkept
  exact hkept.1

/-- What an evaluation of forms comes to in a session that has noted another count of forms. -/
inductive SameBut : EStateM.Result EvalError Session Value → EStateM.Result EvalError Session Value → Prop
  | ok (v : Value) {s t : Session} (h : s.Matches (fun _ => Form.Same fun _ => True) [] t) :
    SameBut (.ok v s) (.ok v t)
  | error (e : EvalError) {s t : Session} (h : s.Matches (fun _ => Form.Same fun _ => True) [] t) :
    SameBut (.error e s) (.error e t)

theorem evalForms_ready (s : Session) (forms counted counted' : List Form) :
    SameBut (evalForms forms .nil globalFrame (s.ready counted))
      (evalForms forms .nil globalFrame (s.ready counted')) := by
  have hscopes : s.scopes.Matches (fun _ => Form.Same fun _ => True) s.scopes :=
    Scopes.matches_self_iff.mpr fun _ _ => ⟨rfl, trivial⟩
  have hready : (s.ready counted).Matches (fun _ => Form.Same fun _ => True) [] (s.ready counted') :=
    (Matches.of_scopes (s := s.clearPrinted.resetDepth) hscopes).parsed _ _
  have hforms : List.Forall₂ (Form.Same fun _ => True) forms forms :=
    List.forall₂_same.mpr fun _ _ => ⟨rfl, trivial⟩
  have houtcomes := alike_evalForms (Form.matching_same Form.closed_true) (lockstep_same _) hforms .nil globalFrame
    _ _ ⟨Nat.zero_le _, hready⟩
  generalize evalForms forms .nil globalFrame (s.ready counted) = r at houtcomes ⊢
  generalize evalForms forms .nil globalFrame (s.ready counted') = r' at houtcomes ⊢
  cases houtcomes with
  | ok hvw hst =>
    rw [hvw.eq_of fun _ _ _ h => h.1]
    exact .ok _ hst.2
  | error hblames hst =>
    rw [hblames.eq_of fun _ _ h => h.1]
    exact .error _ hst.2

section

variable {base n : Nat} {before : List String}

theorem lockstep_moved (P : Form → Prop) : Lockstep (Form.Moved n P) (MovedFrom base n P)
    fun s t => base ≤ s.lambdas ∧ s.Matches (MovedFrom base n P) before t :=
  lockstep_matches (fun _ _ _ h => h.imp_right And.right) (fun _ _ _ hid h => h.imp_right fun h => ⟨hid, h⟩) before

/-- Forms and the same forms moved, in sessions that match. -/
theorem evalForms_moved {forms : List Form} (hne : forms ≠ []) {s t : Session} (hbase : base ≤ s.lambdas)
    (h : s.Matches (MovedFrom base n (Form.Node forms)) before t) (last last' : Value) :
    Outcomes (Form.Moved n (Form.Node forms))
      (fun s t => base ≤ s.lambdas ∧ s.Matches (MovedFrom base n (Form.Node forms)) before t)
      (Value.Matches (MovedFrom base n (Form.Node forms))) (evalForms forms last globalFrame s)
      (evalForms (forms.map (Form.shift n)) last' globalFrame t) := by
  have hforms : List.Forall₂ (Form.Moved n (Form.Node forms)) forms (forms.map (Form.shift n)) :=
    Form.forall₂_moved fun _ hform => .root hform
  rw [evalForms_last hne last .nil, evalForms_last (mt List.map_eq_nil_iff.mp hne) last' .nil]
  exact alike_evalForms (Form.matching_moved n (Form.closed_node forms)) (lockstep_moved _) hforms .nil globalFrame
    s t ⟨hbase, h⟩

/-- What the host sees of them. -/
theorem close_moved {P : Form → Prop} {r r' : EStateM.Result EvalError Session Value}
    (h : Outcomes (Form.Moved n P) (fun s t => base ≤ s.lambdas ∧ s.Matches (MovedFrom base n P) before t)
      (Value.Matches (MovedFrom base n P)) r r') :
    ResultMoved base n P (close r).1.result (close r').1.result ∧
      (close r').1.printed = before ++ (close r).1.printed ∧
        (close r).2.Matches (MovedFrom base n P) [] (close r').2 := by
  cases h with
  | ok hvw hst => exact ⟨.ok hvw, hst.2.printed, hst.2.clearPrinted⟩
  | @error e f _ _ hblames hst =>
    obtain ⟨hcause, form, form', hform, he, hf⟩ := hblames.exists_forms
    obtain ⟨cause, span⟩ := e
    obtain ⟨cause', span'⟩ := f
    obtain rfl : cause' = cause := hcause
    obtain rfl : span = form.span := he
    obtain rfl : span' = form'.span := hf
    exact ⟨.error hform.span, hst.2.printed, (hst.2.note _).clearPrinted⟩

end

end Session

/-- **Two texts at once are like one after the other.** If the first fails, the two fail with the same error, the same
lines and the same session, but that another count of forms is noted. Otherwise they come to what the second comes to,
moved by the length of the first and the line break, with the lines of both and a session that differs at most in the
bodies of the functions made by the second: they are forms of the second, moved. -/
theorem evaluate_join {a b : String} {forms forms' : List Form} (ha : readForms a = .ok forms)
    (hb : readForms b = .ok forms') (hne : forms' ≠ []) (s : Session) :
    let n := a.utf8ByteSize + 1
    let first := s.evaluate a
    let second := first.2.evaluate b
    let joint := s.evaluate (a ++ "\n" ++ b)
    (∀ e, first.1.result = .error e → joint.1 = first.1 ∧
      joint.2 = { first.2 with journal := joint.2.journal } ∧ joint.2.deeds = first.2.deeds) ∧
    ∀ v, first.1.result = .ok v →
      ResultMoved first.2.lambdas n (Form.Node forms') second.1.result joint.1.result ∧
        joint.1.printed = first.1.printed ++ second.1.printed ∧
          second.2.Matches (MovedFrom first.2.lambdas n (Form.Node forms')) [] joint.2 := by
  intro n first second joint
  have hfirst : first = Session.close (Session.evalForms forms .nil globalFrame (s.ready forms)) :=
    Session.evaluate_of_ok ha s
  have hjoint : joint = Session.close ((Session.evalForms (forms ++ forms'.map (Form.shift n)) .nil globalFrame)
      (s.ready (forms ++ forms'.map (Form.shift n)))) :=
    Session.evaluate_of_ok (readForms_join ha hb) s
  have hrun := s.evalForms_ready forms forms (forms ++ forms'.map (Form.shift n))
  rw [Session.evalForms_append] at hjoint
  change joint = Session.close (EStateM.bind _ _ _) at hjoint
  unfold EStateM.bind at hjoint
  generalize hr : Session.evalForms forms .nil globalFrame (s.ready forms) = r at hfirst hrun
  generalize Session.evalForms forms .nil globalFrame (s.ready (forms ++ _)) = r' at hjoint hrun
  cases hrun with
  | error e h =>
    dsimp only at hjoint
    rw [hfirst, hjoint]
    refine ⟨fun _ _ => ⟨?_, ?_, ?_⟩, nofun⟩
    · exact congrArg (Evaluation.mk (.error (.eval e))) h.printed
    · exact (h.note _).clearPrinted.eq_of fun _ _ _ h => h.1
    · exact (h.note _).deeds
  | @ok v t t' h =>
    dsimp only at hjoint
    have hdepth : t.depth = 0 := Session.depth_of_evalForms hr
    have hsecond : second =
        Session.close (Session.evalForms forms' .nil globalFrame (t.clearPrinted.ready forms')) := by
      change first.2.evaluate b = _
      rw [hfirst, Session.evaluate_of_ok hb]
      rfl
    -- what is reset before the second text: its lines start anew, and the counter of calls is back anyway
    have hmatches : (t.clearPrinted.ready forms').Matches (MovedFrom t.lambdas n (Form.Node forms'))
        t.printed.toList t' := {
      settings := h.settings
      scopes := h.scopes.imp fun _ _ _ h => .inl h.1
      engine := h.engine
      printed := h.printed.trans (List.append_nil _).symm
      depth := h.depth.trans hdepth
      lambdas := h.lambdas
      deeds := h.deeds.trans (Session.deeds_ready t.clearPrinted forms').symm }
    have hbase : t.lambdas ≤ (t.clearPrinted.ready forms').lambdas := Nat.le_refl t.lambdas
    have houtcomes := Session.evalForms_moved hne hbase hmatches .nil v
    rw [hfirst, hsecond, hjoint]
    exact ⟨nofun, fun _ _ => Session.close_moved houtcomes⟩

/-- A definition, and then a name that is not bound: the error is moved behind the definition. -/
theorem evaluate_join_unbound : ∃ s : Session,
    readForms "(def x :k)" = .ok [.list ⟨0, 10⟩
      [.atom ⟨1, 4⟩ (.symbol "def"), .atom ⟨5, 6⟩ (.symbol "x"), .atom ⟨7, 9⟩ (.keyword "k")]] ∧
    readForms "nope" = .ok [.atom ⟨0, 4⟩ (.symbol "nope")] ∧
    (s.evaluate "(def x :k)").1.result = .ok (.keyword "k") ∧
    ((s.evaluate "(def x :k)").2.evaluate "nope").1.result = .error (.eval ⟨.undefinedSymbol "nope", ⟨0, 4⟩⟩) ∧
    (s.evaluate ("(def x :k)" ++ "\n" ++ "nope")).1.result = .error (.eval ⟨.undefinedSymbol "nope", ⟨11, 15⟩⟩) ∧
    ResultMoved (s.evaluate "(def x :k)").2.lambdas 11 (Form.Node [.atom ⟨0, 4⟩ (.symbol "nope")])
      ((s.evaluate "(def x :k)").2.evaluate "nope").1.result
      (s.evaluate ("(def x :k)" ++ "\n" ++ "nope")).1.result := by
  let s := Session.bare {} .fresh
  have ha : readForms "(def x :k)" = .ok [.list ⟨0, 10⟩
      [.atom ⟨1, 4⟩ (.symbol "def"), .atom ⟨5, 6⟩ (.symbol "x"), .atom ⟨7, 9⟩ (.keyword "k")]] := by cbv
  have hb : readForms "nope" = .ok [.atom ⟨0, 4⟩ (.symbol "nope")] := by cbv
  have hfirst : (s.evaluate "(def x :k)").1.result = .ok (.keyword "k") := by
    rw [Session.evaluate_of_ok ha]
    with_unfolding_all rfl
  refine ⟨s, ha, hb, hfirst, ?_, ?_, ?_⟩
  · rw [Session.evaluate_of_ok hb, Session.evaluate_of_ok ha]
    with_unfolding_all rfl
  · rw [Session.evaluate_of_ok (readForms_join ha hb)]
    with_unfolding_all rfl
  · exact ((evaluate_join ha hb (List.cons_ne_nil _ _) s).2 _ hfirst).1

end MusicLisp
