import MusicLisp.Proofs.Evaluation.Kept
import MusicLisp.Proofs.Evaluation.Machine
import MusicLisp.Proofs.Native.Causes

/-!
# What a step of the machine does

Most steps of the machine stay at the level of nested calls they are at, add to what was printed and sent, and
fail, if they fail, for some other reason than the limit on nested calls. The rest are few: entering the body of
a called function, refusing to, leaving it, and giving up what is pending.

* `Session.Precedes`: what one session printed and sent comes first in another.
* `paramNames_cases` and the lemmas after it: the parts of a step that evaluate nothing inside look at no session.
* `Move`, `step_move`: **every step is one of these moves**. What is said about runs is read off the moves.
-/

namespace MusicLisp

/-- **What `s` printed and sent comes first** in what `t` printed and sent. -/
structure Session.Precedes (s t : Session) : Prop where
  printed : s.printed.toList <+: t.printed.toList
  sent : s.engine.sent.toList <+: t.engine.sent.toList

namespace Session.Precedes

variable {s t u : Session}

theorem refl (s : Session) : s.Precedes s := ⟨List.prefix_refl _, List.prefix_refl _⟩

theorem trans (h : s.Precedes t) (h' : t.Precedes u) : s.Precedes u :=
  ⟨h.printed.trans h'.printed, h.sent.trans h'.sent⟩

theorem put (h : s.Precedes t) (line : String) : s.Precedes (t.put line) := by
  refine ⟨h.printed.trans ?_, h.sent⟩
  unfold Session.put
  rw [Array.toList_push]
  exact List.prefix_append _ _

theorem note (e : Event) (s : Session) : s.Precedes (s.note e) :=
  ⟨List.prefix_refl _, List.prefix_refl _⟩

/-- An effect is carried out after all that was done before. -/
theorem perform (x : Effect) (s : Session) : s.Precedes (s.perform x) := by
  cases x with
  | none => exact refl s
  | print line =>
    unfold Session.perform
    dsimp only
    split
    · exact (note (.printed line) s).put line
    · exact (refl s).put line
  | sleep seconds => exact note (.slept seconds) s
  | command c =>
    refine ⟨List.prefix_refl _, ?_⟩
    change s.engine.sent.toList <+: (s.engine.perform c).sent.toList
    rw [Engine.sent_perform, Array.toList_push]
    exact List.prefix_append _ _
  | setTempo bpm => exact ⟨List.prefix_refl _, List.prefix_refl _⟩

end Session.Precedes

namespace Eval

/-! ### Parts that evaluate nothing inside -/

theorem mapKey_cases (value : Value) (span : Span) :
    (∃ key, mapKey value span = pure key) ∨
      mapKey value span = fail (.invalidMapKey value.typeName) span := by
  unfold mapKey
  split
  · exact .inl ⟨_, rfl⟩
  · exact .inl ⟨_, rfl⟩
  · exact .inr rfl

theorem paramNames_cases (params : List Form) : (∃ names, paramNames params = pure names) ∨
    ∃ text span, paramNames params = malformed text span := by
  induction params with
  | nil => exact .inl ⟨[], rfl⟩
  | cons param rest ih =>
    unfold paramNames
    split
    · exact .inr ⟨_, _, rfl⟩
    · obtain ⟨names, h⟩ | ⟨text, span, h⟩ := ih
      · exact .inl ⟨_, by rw [h]; rfl⟩
      · exact .inr ⟨text, span, by rw [h]; rfl⟩

theorem paramsOf_cases (form : SpecialForm) (params : Form) :
    (∃ names, paramsOf form params = pure names) ∨
      ∃ text span, paramsOf form params = malformed text span := by
  unfold paramsOf
  split
  · exact paramNames_cases _
  · exact .inr ⟨_, _, rfl⟩

/-- Making a function and binding it to a name. -/
def defineLambda (name : String) (params : List String) (body : Form) (frame : FrameId) : Eval Value := do
  let value ← makeLambda params body frame (some name)
  assign frame name value
  pure value

variable (run : Body) (operands : List Form) (span : Span) (frame : FrameId)

theorem evalDefineFunction_cases : (∃ name params body, operands.head?.bind Form.symbol? = some name ∧
      evalDefineFunction run operands span frame = defineLambda name params body frame) ∨
    ∃ text at', evalDefineFunction run operands span frame = malformed text at' := by
  unfold evalDefineFunction
  split
  · next nameForm paramsForm body =>
    split
    · exact .inr ⟨_, _, rfl⟩
    · next name hname =>
      obtain ⟨params, h⟩ | ⟨text, at', h⟩ := paramsOf_cases .defineFunction paramsForm
      · exact .inl ⟨name, params, body, hname, by rw [h]; rfl⟩
      · exact .inr ⟨text, at', by rw [h]; rfl⟩
  · exact .inr ⟨_, _, rfl⟩

theorem evalFunction_cases : (∃ params body,
      evalFunction run operands span frame = makeLambda params body frame none) ∨
    ∃ text at', evalFunction run operands span frame = malformed text at' := by
  unfold evalFunction
  split
  · next paramsForm body =>
    obtain ⟨params, h⟩ | ⟨text, at', h⟩ := paramsOf_cases .function paramsForm
    · exact .inl ⟨params, body, by rw [h]; rfl⟩
    · exact .inr ⟨text, at', by rw [h]; rfl⟩
  · exact .inr ⟨_, _, rfl⟩

end Eval

namespace Machine

open Eval

/-- The evaluation fails because calls are nested too deep. -/
def Refused (m : Machine) : Prop := ∃ limit span, m.control = .failure ⟨.callDepthExceeded limit, span⟩

/-- The moment is at the level of nested calls of a session `s` with `n` bodies under evaluation, after what `s`
printed and sent, and the limit is not what it fails for. -/
structure Calm (s : Session) (n : Nat) (m : Machine) : Prop where
  level : SameLevel s m.session
  record : s.Precedes m.session
  nesting : nesting m = n
  passed : ¬ Refused m

/-- The body of `f` is entered, in a frame of its own. -/
def enterBody (f : Lambda) (args : List Value) (k : List Pending) (s : Session) : Machine :=
  ⟨.form f.body s.scopes.next, .body :: k,
    { s.enclose f.closure (Dict.ofEntries (f.params.zip args)) with depth := s.depth + 1 }⟩

/-- **What a step can do.** -/
inductive Move (m : Machine) : Machine → Prop
  | calm {m' : Machine} (h : Calm m.session (nesting m) m') : Move m m'
  | enter {f : Lambda} {args : List Value} {span : Span} (hm : m.control = .call (.lambda f) args span)
    (hargs : args.length = f.params.length) (hroom : m.session.depth < m.session.settings.maxCallDepth) :
    Move m (enterBody f args m.pending m.session)
  | refuse {f : Lambda} {args : List Value} {span : Span} (hm : m.control = .call (.lambda f) args span)
    (hargs : args.length = f.params.length) (hfull : m.session.settings.maxCallDepth ≤ m.session.depth) :
    Move m ⟨.failure ⟨.callDepthExceeded m.session.settings.maxCallDepth, span⟩, m.pending, m.session⟩
  | leave {k : List Pending} (hm : m.pending = .body :: k) :
    Move m ⟨m.control, k, { m.session with depth := m.session.depth - 1 }⟩
  | unwind {p : Pending} {k : List Pending} (hm : m.pending = p :: k) (hp : p.isBody = false) :
    Move m ⟨m.control, k, m.session⟩
  | stay : Move m m

/-! ### Calm steps -/

section

variable {s : Session} {k : List Pending}

theorem calm_of_not_failure {c : Control} {t : Session} (hl : SameLevel s t) (hr : s.Precedes t)
    (hc : ∀ e, c ≠ .failure e) : Calm s (k.countP Pending.isBody) ⟨c, k, t⟩ :=
  ⟨hl, hr, rfl, fun ⟨_, _, h⟩ => hc _ h⟩

theorem calm_here {c : Control} {k' : List Pending}
    (hk : k'.countP Pending.isBody = k.countP Pending.isBody) (hc : ∀ e, c ≠ .failure e) :
    Calm s (k.countP Pending.isBody) ⟨c, k', s⟩ :=
  ⟨⟨rfl, rfl⟩, .refl s, hk, fun ⟨_, _, h⟩ => hc _ h⟩

theorem calm_fail {α : Type} (go : α → Control) {cause : EvalCause} (span : Span)
    (h : ∀ limit, cause ≠ .callDepthExceeded limit) :
    Calm s (k.countP Pending.isBody) (ofResult go k ((fail cause span : Eval α) s)) := by
  refine ⟨⟨rfl, rfl⟩, .refl s, rfl, ?_⟩
  rintro ⟨limit, _, he⟩
  cases he
  exact h limit rfl

theorem calm_malformed (text : String) (span : Span) :
    Calm s (k.countP Pending.isBody) (after (malformed text span) k s) :=
  calm_fail .answer span fun _ => EvalCause.noConfusion

theorem calm_callNative (op : Operation) (args : List Value) (span : Span) :
    Calm s (k.countP Pending.isBody) (after (callNative op args span) k s) := by
  unfold after callNative
  cases h : op.answer s.settings s.engine args with
  | error cause =>
    have hcause := op.answer_fails s.settings s.engine args cause h
    exact calm_fail .answer span fun limit he => by rw [he] at hcause; exact hcause
  | ok answer =>
    exact calm_of_not_failure (sameLevel_perform s answer.2) (.perform answer.2 s) fun _ => Control.noConfusion

theorem calm_native (f : Native) (args : List Value) (span : Span) :
    Calm s (k.countP Pending.isBody) (after (f.call args span) k s) := by
  unfold Native.call
  cases f.code with
  | operation op => exact calm_callNative op args span
  | host key => exact calm_of_not_failure ⟨rfl, rfl⟩ (.refl s) fun _ => Control.noConfusion

theorem calm_lookup (name : String) (span : Span) (frame : FrameId) :
    Calm s (k.countP Pending.isBody) (after (lookup name span frame) k s) := by
  unfold after lookup
  cases s.scopes.lookup frame name with
  | some value => exact calm_of_not_failure ⟨rfl, rfl⟩ (.refl s) fun _ => Control.noConfusion
  | none => exact calm_fail .answer span fun _ => EvalCause.noConfusion

theorem calm_mapKey {go : String → Control} (hgo : ∀ key e, go key ≠ .failure e) (value : Value)
    (span : Span) : Calm s (k.countP Pending.isBody) (ofResult go k (mapKey value span s)) := by
  obtain ⟨key, h⟩ | h := mapKey_cases value span
  · rw [h]
    exact calm_of_not_failure ⟨rfl, rfl⟩ (.refl s) (hgo key)
  · rw [h]
    exact calm_fail go span fun _ => EvalCause.noConfusion

theorem calm_enterSpecial (special : SpecialForm) (operands : List Form) (span : Span)
    (frame : FrameId) : Calm s (k.countP Pending.isBody) (enterSpecial special operands span frame k s) := by
  unfold enterSpecial
  split
  · split
    · exact calm_here rfl fun _ => Control.noConfusion
    · exact calm_malformed _ _
  · exact calm_malformed _ _
  · obtain ⟨name, params, body, -, h⟩ | ⟨text, at', h⟩ :=
      evalDefineFunction_cases none operands span frame
    · rw [h]
      exact calm_of_not_failure ⟨rfl, rfl⟩ ⟨List.prefix_refl _, List.prefix_refl _⟩
        fun _ => Control.noConfusion
    · rw [h]
      exact calm_malformed _ _
  · split
    · exact calm_malformed _ _
    · exact calm_of_not_failure ⟨rfl, rfl⟩ ⟨List.prefix_refl _, List.prefix_refl _⟩
        fun _ => Control.noConfusion
  · exact calm_malformed _ _
  · exact calm_malformed _ _
  · exact calm_here rfl fun _ => Control.noConfusion
  · exact calm_here rfl fun _ => Control.noConfusion
  · exact calm_malformed _ _
  · exact calm_here rfl fun _ => Control.noConfusion
  · obtain ⟨params, body, h⟩ | ⟨text, at', h⟩ := evalFunction_cases none operands span frame
    · rw [h]
      exact calm_of_not_failure ⟨rfl, rfl⟩ ⟨List.prefix_refl _, List.prefix_refl _⟩
        fun _ => Control.noConfusion
    · rw [h]
      exact calm_malformed _ _

theorem calm_enter (form : Form) (frame : FrameId) :
    Calm s (k.countP Pending.isBody) (enter form frame k s) := by
  unfold enter
  split
  · exact calm_here rfl fun _ => Control.noConfusion
  · exact calm_here rfl fun _ => Control.noConfusion
  · exact calm_here rfl fun _ => Control.noConfusion
  · exact calm_lookup _ _ _
  · exact calm_here rfl fun _ => Control.noConfusion
  · exact calm_here rfl fun _ => Control.noConfusion
  · exact calm_here rfl fun _ => Control.noConfusion
  · split
    · exact calm_enterSpecial _ _ _ _
    · exact calm_here rfl fun _ => Control.noConfusion

theorem calm_resume (value : Value) {p : Pending} (hp : p.isBody = false) :
    Calm s ((p :: k).countP Pending.isBody) (resume value p k s) := by
  rw [List.countP_cons_of_neg (by rw [hp]; exact Bool.false_ne_true)]
  unfold resume
  split
  · exact calm_here rfl fun _ => Control.noConfusion
  · exact calm_here rfl fun _ => Control.noConfusion
  · exact calm_mapKey (fun _ _ => Control.noConfusion) _ _
  · split
    · exact calm_here rfl fun _ => Control.noConfusion
    · exact calm_fail .answer _ fun _ => EvalCause.noConfusion
  · exact calm_of_not_failure ⟨rfl, rfl⟩ ⟨List.prefix_refl _, List.prefix_refl _⟩
      fun _ => Control.noConfusion
  · exact calm_of_not_failure ⟨rfl, rfl⟩ ⟨List.prefix_refl _, List.prefix_refl _⟩
      fun _ => Control.noConfusion
  · split
    · exact calm_here rfl fun _ => Control.noConfusion
    · split <;> exact calm_here rfl fun _ => Control.noConfusion
  · exact calm_here rfl fun _ => Control.noConfusion
  · cases hp

end

theorem move_enterCall (f : Function) (args : List Value) (span : Span) (k : List Pending) (s : Session) :
    Move ⟨.call f args span, k, s⟩ (enterCall f args span k s) := by
  unfold enterCall
  split
  · next f => exact .calm (calm_native f args span)
  · next f =>
    split
    · exact .calm (calm_fail .answer _ fun _ => EvalCause.noConfusion)
    · next hargs =>
      have hargs' : args.length = f.params.length := of_not_not hargs
      split
      · next hfull => exact .refuse rfl hargs' hfull
      · next hroom => exact .enter rfl hargs' (Nat.lt_of_not_le hroom)

/-- **Every step is one of the moves.** -/
theorem step_move (m : Machine) : Move m (step m) := by
  unfold step
  split
  · exact .calm (calm_enter _ _)
  · exact .calm (calm_here rfl fun _ => Control.noConfusion)
  · exact .calm (calm_here rfl fun _ => Control.noConfusion)
  · exact .calm (calm_here rfl fun _ => Control.noConfusion)
  · exact .calm (calm_here rfl fun _ => Control.noConfusion)
  · exact .calm (calm_here rfl fun _ => Control.noConfusion)
  · split
    · exact .calm (calm_here rfl fun _ => Control.noConfusion)
    · exact .calm (calm_malformed _ _)
  · exact .calm (calm_here rfl fun _ => Control.noConfusion)
  · exact .calm (calm_here rfl fun _ => Control.noConfusion)
  · exact .calm (calm_here rfl fun _ => Control.noConfusion)
  · exact move_enterCall _ _ _ _ _
  · next value p k s =>
    by_cases hp : p = .body
    · subst hp; exact .leave rfl
    · exact .calm (calm_resume value (Pending.isBody_eq_false hp))
  · exact .leave rfl
  · next hp => exact .unwind rfl (Pending.isBody_eq_false hp)
  · exact .stay

end Machine

end MusicLisp
