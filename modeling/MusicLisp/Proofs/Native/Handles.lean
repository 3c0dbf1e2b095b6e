import MusicLisp.Native
import MusicLisp.Proofs.Value.Handles

/-!
# Natives and handles

A native takes its arguments apart and puts them together, except when it starts a synth: then it answers a new node,
numbered as the engine says, and its effect is to start just that. So it makes no other handle.

* `Gives`: what a check comes to, if it does not fail, has a property.
* `answer_yields`: **arguments of a kind of values** are answered by a value of the kind or by a new node.
* `Answered`: the two kinds of answers, those with handles of the arguments only and those of a new node.
* `answer_answered`: **every answer is one of these**.
-/

namespace MusicLisp.Operation

/-- What a check comes to has a property. -/
def Gives {α : Type} (P : α → Prop) (x : Except EvalCause α) : Prop := ∀ a, x = .ok a → P a

namespace Gives

variable {α β : Type} {P : α → Prop} {Q : β → Prop}

theorem ok {a : α} (h : P a) : Gives P (.ok a) := by
  rintro _ ⟨⟩
  exact h

theorem error (cause : EvalCause) : Gives P (.error cause) := nofun

theorem any (x : Except EvalCause α) : Gives (fun _ => True) x := fun _ _ => trivial

theorem bind {x : Except EvalCause α} {f : α → Except EvalCause β} (h : Gives P x) (hf : ∀ a, P a → Gives Q (f a)) :
    Gives Q (x >>= f) := by
  cases x with
  | ok a => exact hf a (h a rfl)
  | error cause => exact error cause

end Gives

/-- **An answer of a kind of values**, with no synth started, or a new node and the effect to start it. -/
inductive Yields (V : Value → Prop) (engine : Engine) (op : Operation) : Value × Effect → Prop
  | old {v : Value} {x : Effect} (hv : V v) (hx : ∀ name params, x ≠ .command (.trigger name params)) :
    Yields V engine op (v, x)
  | new {name : String} {params : Dict Float} (hop : op = .synth ∨ op = .playNote) (hparams : params.Ordered) :
    Yields V engine op (.synthNode ⟨engine.nextNode, name, params⟩, .command (.trigger name params))

section

variable {V : Value → Prop} (K : Value.Kind V) {engine : Engine} {args : List Value} {op : Operation}

theorem yields_plain {v : Value} (h : V v) : Gives (Yields V engine op) (plain v) := .ok (.old h nofun)

theorem one_gives (op : Operation) (args : List Value) : Gives (· ∈ args) (op.one args) := by
  unfold one
  split
  · exact .ok (List.mem_singleton_self _)
  · exact .error _

theorem synthParams_gives (args : List Value) : Gives Dict.Ordered (synthParams args) := by
  unfold synthParams
  split
  · exact .ok List.Pairwise.nil
  · exact .ok (Dict.ordered_ofEntries _)
  · exact .error _

include K

theorem elementsOf_gives (op : Operation) {v : Value} (h : V v) : Gives (∀ w ∈ ·, V w) (op.elementsOf v) := by
  unfold elementsOf
  split
  · exact .ok (K.list.mp h)
  · exact .ok (K.vector.mp h)
  · exact .error _

theorem yields_compare (holds : Float → Float → Bool) : Gives (Yields V engine op) (op.compare holds args) :=
  (Gives.any _).bind fun (_, _) _ => (Gives.any _).bind fun _ _ => (Gives.any _).bind fun _ _ =>
    yields_plain (K.boolean _)

theorem yields_pattern (kind : String) (table : List (String × Pattern)) :
    Gives (Yields V engine op) (op.pattern kind table args) := by
  refine (Gives.any _).bind fun (_, _) _ => (Gives.any _).bind fun _ _ => (Gives.any _).bind fun name _ => ?_
  cases table.lookup name with
  | none => exact .error _
  | some steps =>
    refine yields_plain (K.vector.mpr fun v hv => ?_)
    obtain ⟨x, -, rfl⟩ := List.mem_map.mp hv
    exact K.number x

theorem yields_number {x : Except EvalCause Float} : Gives (Yields V engine op) (x >>= fun x => plain (.number x)) :=
  (Gives.any _).bind fun x _ => yields_plain (K.number x)

/-- **Arguments of a kind are answered by a value of the kind**, or by a new node. -/
theorem answer_yields (settings : Settings) (engine : Engine) (op : Operation) {args : List Value}
    (h : ∀ a ∈ args, V a) : Gives (Yields V engine op) (op.answer settings engine args) := by
  cases op with
  | add | multiply => exact yields_number K
  | subtract =>
    refine (Gives.any _).bind fun (a, others) _ => (Gives.any _).bind fun x _ => ?_
    split
    · exact yields_plain (K.number _)
    · exact yields_number K
  | divide => exact (Gives.any _).bind fun (_, _) _ => (Gives.any _).bind fun _ _ => yields_number K
  | equal => exact (Gives.any _).bind fun (_, _) _ => yields_plain (K.boolean _)
  | less | greater => exact yields_compare K _
  | print => exact .ok (.old K.nil nofun)
  | list => exact yields_plain (K.list.mpr h)
  | first =>
    refine (one_gives _ args).bind fun v hv => (elementsOf_gives K _ (h v hv)).bind fun items hitems => ?_
    cases items with
    | nil => exact yields_plain K.nil
    | cons w rest => exact yields_plain (hitems w List.mem_cons_self)
  | rest =>
    refine (one_gives _ args).bind fun v hv => (elementsOf_gives K _ (h v hv)).bind fun items hitems => ?_
    exact yields_plain (K.list.mpr fun w hw => hitems w (List.mem_of_mem_tail hw))
  | note => exact (Gives.any _).bind fun _ _ => yields_number K
  | frequency => exact (Gives.any _).bind fun _ _ => (Gives.any _).bind fun _ _ => yields_plain (K.number _)
  | chord | scale => exact yields_pattern K _ _
  | tempo =>
    unfold answer
    dsimp only
    split
    · exact yields_plain (K.number _)
    · exact .ok (.old (K.number _) nofun)
    · exact .error _
  | playNote =>
    exact (Gives.any _).bind fun _ _ => (Gives.any _).bind fun _ _ =>
      .ok (.new (.inr rfl) (Dict.ordered_ofEntries _))
  | synth =>
    exact (Gives.any _).bind fun (_, _) _ => (Gives.any _).bind fun _ _ =>
      (synthParams_gives _).bind fun _ hparams => .ok (.new (.inl rfl) hparams)
  | free => exact (Gives.any _).bind fun _ _ => (Gives.any _).bind fun _ _ => .ok (.old K.nil nofun)
  | setParam =>
    exact (Gives.any _).bind fun (_, _, _) _ => (Gives.any _).bind fun _ _ => (Gives.any _).bind fun _ _ =>
      (Gives.any _).bind fun _ _ => .ok (.old K.nil nofun)
  | osc =>
    exact (Gives.any _).bind fun (_, _) _ => (Gives.any _).bind fun _ _ => (Gives.any _).bind fun _ _ =>
      .ok (.old K.nil nofun)
  | sleep => exact (Gives.any _).bind fun _ _ => (Gives.any _).bind fun _ _ => .ok (.old K.nil nofun)

end

/-! ### Handles -/

/-- The value bears no other handles than the arguments. -/
def From (args : List Value) (v : Value) : Prop := v.Only fun h => ∃ a ∈ args, a.Bears h

/-- **An answer to arguments.** Either its handles are handles of the arguments and no synth is started, or it is a new
node and the effect is to start it. -/
inductive Answered (engine : Engine) (args : List Value) (op : Operation) : Value × Effect → Prop
  | old {v : Value} {x : Effect} (hv : From args v) (hx : ∀ name params, x ≠ .command (.trigger name params)) :
    Answered engine args op (v, x)
  | new {name : String} {params : Dict Float} (hop : op = .synth ∨ op = .playNote) (hparams : params.Ordered) :
    Answered engine args op (.synthNode ⟨engine.nextNode, name, params⟩, .command (.trigger name params))

/-- **Every answer is one of the two kinds.** -/
theorem answer_answered (settings : Settings) (engine : Engine) (op : Operation) (args : List Value) :
    Gives (Answered engine args op) (op.answer settings engine args) := by
  intro answer hanswer
  have hargs : ∀ a ∈ args, From args a := fun a ha _ hb => ⟨a, ha, hb⟩
  cases answer_yields (Value.kind_only _) settings engine op hargs answer hanswer with
  | old hv hx => exact .old hv hx
  | new hop hparams => exact .new hop hparams

end MusicLisp.Operation
