import MusicLisp.Proofs.Evaluation.Moves

/-!
# What a step of the machine does to the frames and the engine

Most steps leave the frames and the engine alone. The others bind a name, make a frame, or carry out the effect of a
native.

* `Act`, `Machine.act`: what the step from a moment does.
* `step_act`: **the frames and the engine after a step** are what its act leaves.
* `act_ofResult_nil`: at an end there is nothing more to do.
-/

namespace MusicLisp

/-- **What a step does** to the frames and the engine. -/
inductive Act where
  | rest
  | bind (frame : FrameId) (name : String) (value : Value)
  | enclose (outer : FrameId) (entries : List (String × Value))
  | perform (op : Operation) (effect : Effect)

/-- Does it in a session. -/
def Act.on (s : Session) : Act → Session
  | rest => s
  | bind frame name value => s.bind frame name value
  | enclose outer entries => s.enclose outer (Dict.ofEntries entries)
  | perform _ effect => s.perform effect

namespace Machine

open Eval

/-- The act of the first step of a special form. -/
def actSpecial (special : SpecialForm) (operands : List Form) (span : Span) (frame : FrameId) (s : Session) : Act :=
  match special, operands with
  | .defineFunction, operands =>
    match operands.head?.bind Form.symbol?, evalDefineFunction none operands span frame s with
    | some name, .ok value _ => .bind frame name value
    | _, _ => .rest
  | .bindLocals, [.vector _ bindings, _] => if bindings.length % 2 ≠ 0 then .rest else .enclose frame []
  | _, _ => .rest

/-- The act of a call. -/
def actCall (f : Function) (args : List Value) (s : Session) : Act :=
  match f with
  | .native ⟨_, .operation op⟩ =>
    match op.answer s.settings s.engine args with
    | .ok (_, effect) => .perform op effect
    | .error _ => .rest
  | .native ⟨_, .host _⟩ => .rest
  | .lambda f =>
    if args.length ≠ f.params.length then .rest
    else if s.settings.maxCallDepth ≤ s.depth then .rest
    else .enclose f.closure (f.params.zip args)

/-- **The act of the step from a moment.** -/
def act : Machine → Act
  | ⟨.form (.list span (head :: operands)) frame, _, s⟩ =>
    match head.special? with
    | some special => actSpecial special operands span frame s
    | none => .rest
  | ⟨.call f args _, _, s⟩ => actCall f args s
  | ⟨.answer value, .define name frame :: _, _⟩ => .bind frame name value
  | ⟨.answer value, .binding name _ _ frame :: _, _⟩ => .bind frame name value
  | _ => .rest

/-- The moment has the frames and the engine that the act leaves. -/
def Leaves (a : Act) (s : Session) (m : Machine) : Prop :=
  m.session.scopes = (a.on s).scopes ∧ m.session.engine = (a.on s).engine

section

variable {k : List Pending} {s : Session}

theorem leaves_enterSpecial (special : SpecialForm) (operands : List Form) (span : Span) (frame : FrameId) :
    Leaves (actSpecial special operands span frame s) s (enterSpecial special operands span frame k s) := by
  unfold enterSpecial
  split
  · split <;> exact ⟨rfl, rfl⟩
  · exact ⟨rfl, rfl⟩
  · unfold actSpecial
    dsimp only
    obtain ⟨name, params, body, hname, h⟩ | ⟨text, at', h⟩ := evalDefineFunction_cases none operands span frame
    · rw [h, hname]
      exact ⟨rfl, rfl⟩
    · rw [h]
      cases operands.head?.bind Form.symbol? <;> exact ⟨rfl, rfl⟩
  · unfold actSpecial
    dsimp only
    split <;> exact ⟨rfl, rfl⟩
  · next bindings body hvector =>
    cases bindings with
    | vector => exact (hvector _ _ rfl).elim
    | atom | list | map => exact ⟨rfl, rfl⟩
  · next hvector hother =>
    unfold actSpecial
    split
    · next heq => cases heq
    · exact (hvector _ _ _ rfl).elim
    · exact ⟨rfl, rfl⟩
  · exact ⟨rfl, rfl⟩
  · exact ⟨rfl, rfl⟩
  · exact ⟨rfl, rfl⟩
  · exact ⟨rfl, rfl⟩
  · change Leaves .rest s _
    obtain ⟨params, body, h⟩ | ⟨text, at', h⟩ := evalFunction_cases none operands span frame
    · rw [h]
      exact ⟨rfl, rfl⟩
    · rw [h]
      exact ⟨rfl, rfl⟩

theorem leaves_enterCall (f : Function) (args : List Value) (span : Span) :
    Leaves (actCall f args s) s (enterCall f args span k s) := by
  unfold enterCall actCall
  cases f with
  | native f =>
    obtain ⟨name, op | key⟩ := f
    · dsimp only
      unfold after Native.call callNative
      dsimp only
      cases op.answer s.settings s.engine args with
      | error cause => exact ⟨rfl, rfl⟩
      | ok answer => exact ⟨rfl, rfl⟩
    · exact ⟨rfl, rfl⟩
  | lambda f =>
    dsimp only
    split
    · exact ⟨rfl, rfl⟩
    · split <;> exact ⟨rfl, rfl⟩

theorem leaves_resume (value : Value) (p : Pending) :
    Leaves (act ⟨.answer value, p :: k, s⟩) s (resume value p k s) := by
  cases p with
  | element | key | define | binding | sequence | body => exact ⟨rfl, rfl⟩
  | entry found keyValue span rest frame =>
    change Leaves .rest s (ofResult _ k (mapKey keyValue span s))
    obtain ⟨key, h⟩ | h := mapKey_cases keyValue span <;> rw [h] <;> exact ⟨rfl, rfl⟩
  | head headSpan operands span frame => cases value <;> exact ⟨rfl, rfl⟩
  | condition consequent alternate frame =>
    change Leaves .rest s (if value.truthy then _ else _)
    split
    · exact ⟨rfl, rfl⟩
    · cases alternate <;> exact ⟨rfl, rfl⟩

theorem leaves_enter (form : Form) (frame : FrameId) :
    Leaves (act ⟨.form form frame, k, s⟩) s (enter form frame k s) := by
  unfold enter
  split
  · exact ⟨rfl, rfl⟩
  · exact ⟨rfl, rfl⟩
  · exact ⟨rfl, rfl⟩
  · next span name =>
    change Leaves .rest s _
    unfold after lookup
    cases s.scopes.lookup frame name <;> exact ⟨rfl, rfl⟩
  · exact ⟨rfl, rfl⟩
  · exact ⟨rfl, rfl⟩
  · exact ⟨rfl, rfl⟩
  · next span head operands =>
    unfold act
    dsimp only
    cases head.special? with
    | some special => exact leaves_enterSpecial special operands span frame
    | none => exact ⟨rfl, rfl⟩

end

/-- **The frames and the engine after a step.** -/
theorem step_act (m : Machine) : Leaves m.act m.session (step m) := by
  obtain ⟨control, k, s⟩ := m
  cases control with
  | form form frame => exact leaves_enter form frame
  | elements purpose done rest frame =>
    cases rest with
    | nil => cases purpose <;> exact ⟨rfl, rfl⟩
    | cons form rest => exact ⟨rfl, rfl⟩
  | entries found rest frame => cases rest <;> exact ⟨rfl, rfl⟩
  | bindings rest body frame =>
    match rest with
    | [] | [_] => exact ⟨rfl, rfl⟩
    | nameForm :: valueForm :: rest =>
      change Leaves .rest s (step ⟨.bindings (nameForm :: valueForm :: rest) body frame, k, s⟩)
      unfold step
      dsimp only
      cases nameForm.symbol? <;> exact ⟨rfl, rfl⟩
  | sequence last rest frame => cases rest <;> exact ⟨rfl, rfl⟩
  | call f args span => exact leaves_enterCall f args span
  | answer value =>
    cases k with
    | nil => exact ⟨rfl, rfl⟩
    | cons p k => exact leaves_resume value p
  | failure e =>
    cases k with
    | nil => exact ⟨rfl, rfl⟩
    | cons p k => cases p <;> exact ⟨rfl, rfl⟩

/-- An end has nothing more to do. -/
theorem act_ofResult_nil (result : EStateM.Result EvalError Session Value) :
    act (ofResult .answer [] result) = .rest := by
  cases result <;> rfl

end Machine

end MusicLisp
