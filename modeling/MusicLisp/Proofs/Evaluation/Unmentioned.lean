import MusicLisp.Proofs.Evaluation.Frames
import MusicLisp.Proofs.Evaluation.Matching

/-!
# Names that are not mentioned

A name that neither a text nor the body of any function has is never looked up and never bound by the text, whatever
it stands for in the global frame. So two sessions that differ there and nowhere else go on alike.

* `Form.Mentions`, `Mentioned`: a form, a text has the name as a symbol.
* `Scopes.AgreesBut`, `Session.AgreesBut`: the same but for what one name is bound to in the global frame.
* `Scopes.QuietBut`: no body of a function mentions the name, except in that one binding. The functions that an
  evaluation makes have bodies out of the text or out of other bodies, so this stays.
* `lockstep_agreesBut`: evaluation of forms without the name keeps both.
* `evaluate_unmentioned`: **what a text comes to does not depend on a global that nothing mentions.**
-/

namespace MusicLisp

/-! ### Mentioning a name -/

/-- The form has a name as a symbol somewhere. -/
def Form.Mentions (name : String) (form : Form) : Prop := ∃ span, Form.Node [form] (.atom span (.symbol name))

/-- **The text has a name as a symbol.** A text that is no sequence of tokens has none. -/
def Mentioned (name source : String) : Prop :=
  ∃ tokens, tokenize source = .ok tokens ∧ ∃ t ∈ tokens, t.kind = .atom (.symbol name)

namespace Form

variable {x : String}

/-- What a part of a form mentions, the form mentions. -/
theorem Mentions.of_part {form part : Form} (hpart : part ∈ form.parts) (h : part.Mentions x) : form.Mentions x := by
  obtain ⟨span, h⟩ := h
  have hnode := closed_node [form]
  refine ⟨span, hnode.node (fun root hroot => ?_) h⟩
  rw [List.mem_singleton.mp hroot]
  exact hnode.part (.root (List.mem_singleton_self form)) hpart

/-- **Not to mention a name** goes down to the parts of forms. -/
theorem closed_not_mentions (x : String) : Closed fun form => ¬ form.Mentions x :=
  closed_of_parts fun h hpart hmentions => h (hmentions.of_part hpart)

theorem mentions_symbol (x : String) (span : Span) : (Form.atom span (.symbol x)).Mentions x :=
  ⟨span, .root (List.mem_singleton_self _)⟩

theorem mentions_atom {span : Span} {a : Atom} (h : (Form.atom span a).Mentions x) : a = .symbol x := by
  obtain ⟨span', h⟩ := h
  -- a node of an atom is the atom itself
  have hclosed : Closed (· = Form.atom span a) := ⟨nofun, nofun, nofun, nofun⟩
  have heq := hclosed.node (fun _ hform => List.mem_singleton.mp hform) h
  cases heq
  rfl

/-- What a form of a text mentions, the text has. -/
theorem mentioned_of_read {source : String} {forms : List Form} (hread : readForms source = .ok forms) {form : Form}
    (hform : form ∈ forms) (h : form.Mentions x) : Mentioned x source := by
  obtain ⟨span, hnode⟩ := h
  obtain ⟨ts, htokens, hspelled⟩ := node_spelled hread
  have hroot : ∀ root ∈ [form], Node forms root := fun root hmem => .root (List.mem_singleton.mp hmem ▸ hform)
  obtain ⟨p, hp, t, rfl, hkind, -⟩ := hspelled _ ((closed_node forms).node hroot hnode)
  have ht : t ∈ ts := hp.subset (List.mem_singleton_self t)
  exact ⟨_, htokens, t, List.mem_append_left _ ht, hkind⟩

/-- The forms of a text without the name do not mention it. -/
theorem not_mentions_of_read {source : String} {forms : List Form} (hread : readForms source = .ok forms)
    (h : ¬ Mentioned x source) {form : Form} (hform : form ∈ forms) : ¬ form.Mentions x :=
  fun hmentions => h (mentioned_of_read hread hform hmentions)

end Form

/-- No function in the value mentions the name. -/
def Value.Quiet (x : String) (v : Value) : Prop := ∀ f, v.Holds f → ¬ f.body.Mentions x

/-- The relation of being the same form, one that does not mention the name. -/
abbrev Form.SameQuiet (x : String) : Nat → Form → Form → Prop := fun _ => Form.Same fun form => ¬ form.Mentions x

theorem Value.Quiet.matches_self {x : String} {v : Value} (h : v.Quiet x) : v.Matches (Form.SameQuiet x) v :=
  matches_self_iff.mpr fun f hf => ⟨rfl, h f hf⟩

theorem Value.Matches.quiet {x : String} {v w : Value} (h : v.Matches (Form.SameQuiet x) w) : w = v ∧ v.Quiet x := by
  obtain rfl : w = v := h.eq_of fun _ _ _ hform => hform.1
  exact ⟨rfl, fun f hf => (matches_self_iff.mp h f hf).2⟩

theorem Dict.Matches.quiet {x : String} {d e : Dict Value} (h : Dict.Matches (Value.Matches (Form.SameQuiet x)) d e) :
    e = d ∧ ∀ name v, Dict.get? name d = some v → v.Quiet x := by
  have hentries : d = e := List.forall₂_eq_eq_eq ▸
    List.Forall₂.imp (fun a b hab => Prod.ext hab.1 hab.2.quiet.1.symm) h
  subst hentries
  exact ⟨rfl, fun name v hv => (List.forall₂_same.mp h _ (Dict.mem_of_get? hv)).2.quiet.2⟩

/-! ### The same but for one name -/

/-- The binding of a name in a frame is another than that of `x` in the global frame. -/
def Elsewhere (x : String) (i : FrameId) (name : String) : Prop := ¬ (i = globalFrame ∧ name = x)

/-- **The same frames but for what one name is bound to in the global frame.** -/
structure Scopes.AgreesBut (x : String) (s t : Scopes) : Prop where
  next : t.next = s.next
  outer : ∀ i, t.outer? i = s.outer? i
  bound : ∀ i name, Elsewhere x i name → t.bound? i name = s.bound? i name

/-- **No function mentions the name**, except in its binding in the global frame. -/
def Scopes.QuietBut (x : String) (s : Scopes) : Prop :=
  ∀ i name, Elsewhere x i name → ∀ v, s.bound? i name = some v → v.Quiet x

/-- **The same session but for what one name is bound to in the global frame.** -/
structure Session.AgreesBut (x : String) (s t : Session) : Prop where
  rest : t = { s with scopes := t.scopes }
  scopes : s.scopes.AgreesBut x t.scopes

theorem elsewhere_of_ne {x name : String} (h : name ≠ x) (i : FrameId) : Elsewhere x i name := fun heq => h heq.2

namespace Scopes

variable {x : String} {s t : Scopes}

/-- To bind the name in the global frame makes no other difference. -/
theorem agreesBut_bind (x : String) (v : Value) (s : Scopes) : s.AgreesBut x (s.bind globalFrame x v) where
  next := s.next_bind globalFrame x v
  outer i := s.outer?_bind globalFrame x v i
  bound i name h := by
    rw [bound?_bind, if_neg]
    rintro ⟨⟨rfl, rfl⟩, -⟩
    exact h ⟨rfl, rfl⟩

theorem AgreesBut.lookup_eq (h : s.AgreesBut x t) {name : String} (hname : name ≠ x) (id : FrameId) :
    t.lookup id name = s.lookup id name :=
  lookup_congr h.outer (fun i => h.bound i name (elsewhere_of_ne hname i)) id

theorem AgreesBut.bind (h : s.AgreesBut x t) (e : FrameId) (name : String) (v : Value) :
    (s.bind e name v).AgreesBut x (t.bind e name v) where
  next := by rw [next_bind, next_bind, h.next]
  outer i := by rw [outer?_bind, outer?_bind, h.outer]
  bound i other hother := by rw [bound?_bind, bound?_bind, h.next, h.bound i other hother]

theorem AgreesBut.enclose (h : s.AgreesBut x t) (outer : FrameId) (d : Dict Value) :
    (s.enclose outer d).AgreesBut x (t.enclose outer d) where
  next := by rw [next_enclose, next_enclose, h.next]
  outer i := by
    unfold Scopes.enclose
    rw [outer?_push, outer?_push, h.next, h.outer]
  bound i name hname := by
    unfold Scopes.enclose
    rw [bound?_push, bound?_push, h.next, h.bound i name hname]

/-- What another name stands for mentions the name nowhere. -/
theorem QuietBut.lookup (h : s.QuietBut x) {name : String} (hname : name ≠ x) {id : FrameId} {v : Value}
    (hv : s.lookup id name = some v) : v.Quiet x := by
  obtain ⟨i, hi⟩ := exists_bound? hv
  exact h i name (elsewhere_of_ne hname i) v hi

theorem QuietBut.bind (h : s.QuietBut x) (e : FrameId) (name : String) {v : Value} (hv : v.Quiet x) :
    (s.bind e name v).QuietBut x := by
  intro i other hother w hw
  rw [bound?_bind] at hw
  split at hw
  · exact Option.some.inj hw ▸ hv
  · exact h i other hother w hw

theorem QuietBut.enclose (h : s.QuietBut x) (outer : FrameId) {d : Dict Value}
    (hd : ∀ name v, Dict.get? name d = some v → v.Quiet x) : (s.enclose outer d).QuietBut x := by
  intro i name hname v hv
  unfold Scopes.enclose at hv
  rw [bound?_push] at hv
  split at hv
  · exact hd name v hv
  · exact h i name hname v hv

end Scopes

namespace Session

variable {x : String} {s t : Session}

/-- An effect does not look at the frames. -/
theorem perform_withScopes (s : Session) (scopes : Scopes) (e : Effect) :
    perform { s with scopes } e = { s.perform e with scopes } := by
  cases e with
  | print line =>
    unfold perform
    dsimp only
    split <;> rfl
  | none | sleep | command | setTempo => rfl

theorem AgreesBut.perform (h : s.AgreesBut x t) (e : Effect) : (s.perform e).AgreesBut x (t.perform e) := by
  refine ⟨?_, ?_⟩
  · rw [Eval.scopes_perform, ← perform_withScopes, ← h.rest]
  · rw [Eval.scopes_perform, Eval.scopes_perform]
    exact h.scopes

end Session

/-! ### Evaluation -/

/-- **Forms without the name are evaluated alike** in sessions that are the same but for the name, and this and the
quiet of all other functions are kept. -/
theorem lockstep_agreesBut (x : String) :
    Lockstep (Form.Same fun form => ¬ form.Mentions x) (Form.SameQuiet x)
      fun s t => s.AgreesBut x t ∧ s.scopes.QuietBut x where
  depth h := by rw [h.1.rest]
  limit h := by rw [h.1.rest]
  next h := h.1.scopes.next.symm
  lambdas h := by rw [h.1.rest]
  lookup {s t span _ name} hform h frame := by
    have hname : name ≠ x := fun heq => hform.2 (heq ▸ Form.mentions_symbol name span)
    rw [h.1.scopes.lookup_eq hname]
    cases hv : s.scopes.lookup frame name with
    | none => exact .none
    | some v => exact .some (h.2.lookup hname hv).matches_self
  bind {s t _ _ name v w} _ hvw h frame := by
    obtain ⟨rfl, hquiet⟩ := hvw.quiet
    refine ⟨⟨?_, h.1.scopes.bind frame name w⟩, h.2.bind frame name hquiet⟩
    rw [h.1.rest]
    rfl
  enclose {s t d e} hde h outer := by
    obtain ⟨rfl, hquiet⟩ := hde.quiet
    refine ⟨⟨?_, h.1.scopes.enclose outer e⟩, h.2.enclose outer hquiet⟩
    rw [h.1.rest]
    rfl
  body h := h
  fresh h _ := h
  made h := ⟨⟨by rw [h.1.rest], h.1.scopes⟩, h.2⟩
  deeper h := ⟨⟨by rw [h.1.rest], h.1.scopes⟩, h.2⟩
  back h := ⟨⟨by rw [h.1.rest], h.1.scopes⟩, h.2⟩
  answer {s t args args'} h hargs op := by
    rw [h.1.rest]
    exact op.answer_matches s.settings s.engine hargs
  perform {s t} h e := by
    refine ⟨h.1.perform e, ?_⟩
    rw [Eval.scopes_perform]
    exact h.2

namespace Session

variable {x : String} {s t : Session}

theorem AgreesBut.ready (h : s.AgreesBut x t) (forms : List Form) : (s.ready forms).AgreesBut x (t.ready forms) :=
  ⟨by rw [h.rest]; rfl, h.scopes⟩

theorem AgreesBut.note (h : s.AgreesBut x t) (e : Event) : (s.note e).AgreesBut x (t.note e) :=
  ⟨by rw [h.rest]; rfl, h.scopes⟩

theorem AgreesBut.clearPrinted (h : s.AgreesBut x t) : s.clearPrinted.AgreesBut x t.clearPrinted :=
  ⟨by rw [h.rest]; rfl, h.scopes⟩

theorem AgreesBut.printed (h : s.AgreesBut x t) : t.printed.toList = s.printed.toList := by rw [h.rest]

/-- **What a text comes to does not depend on a global that nothing mentions.** Take two sessions that are the same
but for what a name is bound to in the global frame, if it is bound there, and let no function that stands anywhere else
mention the name. A text that does not have the name comes to the same result with the same lines in both, and leaves
sessions that are again the same but for that, with no function anywhere else that mentions the name. -/
theorem evaluate_unmentioned {code : String} (h : s.AgreesBut x t) (hquiet : s.scopes.QuietBut x)
    (hcode : ¬ Mentioned x code) :
    (t.evaluate code).1 = (s.evaluate code).1 ∧ (s.evaluate code).2.AgreesBut x (t.evaluate code).2 ∧
      (s.evaluate code).2.scopes.QuietBut x := by
  cases hread : readForms code with
  | error e =>
    unfold evaluate run
    rw [hread, h.rest]
    exact ⟨rfl, ⟨rfl, h.scopes⟩, hquiet⟩
  | ok forms =>
    have hforms : List.Forall₂ (Form.Same fun form => ¬ form.Mentions x) forms forms :=
      List.forall₂_same.mpr fun form hform => ⟨rfl, Form.not_mentions_of_read hread hcode hform⟩
    have hrun := Eval.alike_evalForms (Form.matching_same (Form.closed_not_mentions x)) (lockstep_agreesBut x) hforms
      .nil globalFrame (s.ready forms) (t.ready forms) ⟨h.ready forms, hquiet⟩
    rw [evaluate_of_ok hread, evaluate_of_ok hread]
    generalize evalForms forms .nil globalFrame (s.ready forms) = r at hrun
    generalize evalForms forms .nil globalFrame (t.ready forms) = r' at hrun
    cases hrun with
    | @ok v w s' t' hvw hst =>
      obtain ⟨rfl, -⟩ := hvw.quiet
      exact ⟨congrArg (Evaluation.mk (.ok w)) hst.1.printed, hst.1.clearPrinted, hst.2⟩
    | @error e e' s' t' hblames hst =>
      obtain rfl : e' = e := hblames.eq_of fun _ _ hform => hform.1
      exact ⟨congrArg (Evaluation.mk (.error (.eval e'))) hst.1.printed, (hst.1.note _).clearPrinted, hst.2⟩

/-- A function and a name that it does not mention: the name may be free or stand for a function that mentions it. -/
theorem evaluate_unmentioned_call : ∃ s t : Session, ∃ f g : Lambda,
    s.scopes.bound? globalFrame "x" = none ∧ t.scopes.bound? globalFrame "x" = some (.function (.lambda g)) ∧
    g.body.Mentions "x" ∧ s.scopes.bound? globalFrame "f" = some (.function (.lambda f)) ∧
    s.AgreesBut "x" t ∧ s.scopes.QuietBut "x" ∧ ¬ Mentioned "x" "(def y (f))" ∧
    (s.evaluate "(def y (f))").1.result = .ok (.keyword "k") ∧
    (t.evaluate "(def y (f))").1 = (s.evaluate "(def y (f))").1 ∧
    (s.evaluate "(def y (f))").2.AgreesBut "x" (t.evaluate "(def y (f))").2 := by
  let f : Lambda := ⟨0, [], .atom (.point 0) (.keyword "k"), globalFrame, some "f"⟩
  let g : Lambda := ⟨1, [], .atom (.point 0) (.symbol "x"), globalFrame, some "x"⟩
  let s := (bare {} .fresh).bind globalFrame "f" (.function (.lambda f))
  have hsame : s.AgreesBut "x" (s.bind globalFrame "x" (.function (.lambda g))) :=
    ⟨rfl, s.scopes.agreesBut_bind "x" _⟩
  have hquiet : s.scopes.QuietBut "x" := by
    intro i name _ v hv
    change ((bare {} .fresh).scopes.bind globalFrame "f" _).bound? i name = some v at hv
    rw [Scopes.bound?_bind] at hv
    split at hv
    · obtain rfl := Option.some.inj hv
      rintro _ ⟨⟩ hmentions
      cases Form.mentions_atom hmentions
    · have hnone : (bare {} .fresh).scopes.bound? i name = none := by
        change (Scopes.empty.push ⟨none, []⟩).bound? i name = none
        rw [Scopes.bound?_push]
        split
        · rfl
        · exact Scopes.bound?_eq_none _ (Nat.zero_le i) name
      cases hnone.symm.trans hv
  have hcode : ¬ Mentioned "x" "(def y (f))" := by
    have htokens : tokenize "(def y (f))" = .ok [⟨.opening .round, ⟨0, 1⟩⟩, ⟨.atom (.symbol "def"), ⟨1, 4⟩⟩,
        ⟨.atom (.symbol "y"), ⟨5, 6⟩⟩, ⟨.opening .round, ⟨7, 8⟩⟩, ⟨.atom (.symbol "f"), ⟨8, 9⟩⟩,
        ⟨.closing .round, ⟨9, 10⟩⟩, ⟨.closing .round, ⟨10, 11⟩⟩, ⟨.endOfInput, .point 11⟩] := by cbv
    rintro ⟨tokens, htokens', t, ht, hkind⟩
    cases htokens.symm.trans htokens'
    simp only [List.mem_cons, List.not_mem_nil, or_false] at ht
    rcases ht with rfl | rfl | rfl | rfl | rfl | rfl | rfl | rfl <;> simp at hkind
  have hread : readForms "(def y (f))" = .ok [.list ⟨0, 11⟩ [.atom ⟨1, 4⟩ (.symbol "def"),
      .atom ⟨5, 6⟩ (.symbol "y"), .list ⟨7, 10⟩ [.atom ⟨8, 9⟩ (.symbol "f")]]] := by cbv
  have hresult : (s.evaluate "(def y (f))").1.result = .ok (.keyword "k") := by
    rw [evaluate_of_ok hread]
    with_unfolding_all rfl
  obtain ⟨heq, hafter, -⟩ := evaluate_unmentioned hsame hquiet hcode
  exact ⟨s, _, f, g, rfl, rfl, Form.mentions_symbol "x" _, rfl, hsame, hquiet, hcode, hresult, heq, hafter⟩

end Session

end MusicLisp
