import MusicLisp.Native

/-!
# Why natives fail

The checks of a native fail with a wrong number of arguments, an argument of the wrong type or value, a divisor
of zero, a text that is no note or the name of no pattern, and with nothing else (`answer_fails`). So the causes
that belong to names, calls, special forms and map literals never come out of a native.
-/

namespace MusicLisp

/-- The causes of failure that the checks of natives have. -/
def EvalCause.OfNative : EvalCause → Prop
  | arityMismatch _ _ _ => True
  | invalidArguments _ => True
  | typeMismatch _ _ _ => True
  | divisionByZero => True
  | invalidNote _ => True
  | unknownPattern _ _ => True
  | _ => False

namespace Operation

/-- If the check fails, then with a cause of the natives. -/
def FailsAsNative {α : Type} (check : Except EvalCause α) : Prop :=
  ∀ cause, check = .error cause → cause.OfNative

namespace FailsAsNative

variable {α β : Type}

theorem ok (a : α) : FailsAsNative (.ok a : Except EvalCause α) := by rintro cause ⟨⟩

theorem error {cause : EvalCause} (h : cause.OfNative) :
    FailsAsNative (.error cause : Except EvalCause α) := by
  rintro _ ⟨⟩
  exact h

theorem bind {check : Except EvalCause α} {next : α → Except EvalCause β} (h : FailsAsNative check)
    (hnext : ∀ a, FailsAsNative (next a)) : FailsAsNative (check >>= next) := by
  cases check with
  | ok a => exact hnext a
  | error cause => exact error (h cause rfl)

end FailsAsNative

open FailsAsNative

variable (op : Operation)

/-! ### Checks of arguments -/

theorem one_fails (args : List Value) : FailsAsNative (op.one args) := by
  unfold one
  split
  · exact ok _
  · exact error trivial

theorem two_fails (args : List Value) : FailsAsNative (op.two args) := by
  unfold two
  split
  · exact ok _
  · exact error trivial

theorem three_fails (args : List Value) : FailsAsNative (op.three args) := by
  unfold three
  split
  · exact ok _
  · exact error trivial

theorem oneOrMore_fails (args : List Value) : FailsAsNative (op.oneOrMore args) := by
  unfold oneOrMore
  split
  · exact ok _
  · exact error trivial

theorem mismatch_fails {α : Type} (expected : String) (value : Value) :
    FailsAsNative (op.mismatch expected value : Except EvalCause α) :=
  error trivial

theorem number_fails (value : Value) : FailsAsNative (op.number value) := by
  unfold number
  split
  · exact ok _
  · exact op.mismatch_fails _ _

theorem nameOf_fails (value : Value) : FailsAsNative (op.nameOf value) := by
  unfold nameOf
  split
  · exact ok _
  · exact op.mismatch_fails _ _

theorem noteOf_fails (value : Value) : FailsAsNative (op.noteOf value) := by
  refine bind (op.nameOf_fails value) fun name => ?_
  split
  · exact ok _
  · exact error trivial

theorem rootOf_fails (value : Value) : FailsAsNative (op.rootOf value) := by
  unfold rootOf
  split
  · exact ok _
  · exact op.noteOf_fails _
  · exact op.noteOf_fails _
  · exact op.mismatch_fails _ _

theorem nodeOf_fails (value : Value) : FailsAsNative (op.nodeOf value) := by
  unfold nodeOf
  split
  · split
    · exact ok _
    · exact error trivial
  · exact ok _
  · exact op.mismatch_fails _ _

theorem elementsOf_fails (value : Value) : FailsAsNative (op.elementsOf value) := by
  unfold elementsOf
  split
  · exact ok _
  · exact ok _
  · exact op.mismatch_fails _ _

theorem argumentOf_fails (value : Value) : FailsAsNative (argumentOf value) := by
  unfold argumentOf
  split
  · exact ok _
  · exact ok _
  · exact ok _
  · exact error trivial

theorem synthArguments_fails (args : List Value) : FailsAsNative (synthArguments args) := by
  unfold synthArguments
  split
  · exact ok _
  · exact ok _
  · exact error trivial

theorem synthParams_fails (others : List Value) : FailsAsNative (synthParams others) := by
  unfold synthParams
  split
  · exact ok _
  · exact ok _
  · exact mismatch_fails _ _ _

/-! ### Loops over arguments -/

theorem foldNumbers_fails (f : Float → Float → Float) (args : List Value) :
    ∀ x, FailsAsNative (op.foldNumbers f x args) := by
  induction args with
  | nil => exact fun x => ok x
  | cons value others ih => exact fun x => bind (op.number_fails value) fun y => ih (f x y)

theorem divideBy_fails (args : List Value) : ∀ x, FailsAsNative (op.divideBy x args) := by
  induction args with
  | nil => exact fun x => ok x
  | cons value others ih =>
    refine fun x => bind (op.number_fails value) fun divisor => ?_
    split
    · exact error trivial
    · exact ih _

theorem mapM_fails (values : List Value) : FailsAsNative (values.mapM argumentOf) := by
  induction values with
  | nil => exact ok _
  | cons value rest ih =>
    rw [List.mapM_cons]
    exact bind (argumentOf_fails value) fun argument => bind ih fun arguments => ok _

theorem compare_fails (holds : Float → Float → Bool) (args : List Value) :
    FailsAsNative (op.compare holds args) :=
  bind (op.two_fails args) fun pair => bind (op.number_fails pair.1) fun _ =>
    bind (op.number_fails pair.2) fun _ => ok _

theorem pattern_fails (kind : String) (table : List (String × Pattern)) (args : List Value) :
    FailsAsNative (op.pattern kind table args) := by
  refine bind (op.two_fails args) fun pair => bind (op.rootOf_fails pair.1) fun root =>
    bind (op.nameOf_fails pair.2) fun name => ?_
  split
  · exact error trivial
  · exact ok _

/-- **What a native fails with** is a cause of the natives. -/
theorem answer_fails (settings : Settings) (engine : Engine) (args : List Value) :
    FailsAsNative (op.answer settings engine args) := by
  cases op with
  | add | multiply => exact bind (foldNumbers_fails _ _ args _) fun x => ok _
  | subtract =>
    refine bind (oneOrMore_fails _ args) fun pair => bind (number_fails _ pair.1) fun x => ?_
    split
    · exact ok _
    · exact bind (foldNumbers_fails _ _ pair.2 x) fun y => ok _
  | divide =>
    exact bind (oneOrMore_fails _ args) fun pair => bind (number_fails _ pair.1) fun x =>
      bind (divideBy_fails _ pair.2 x) fun y => ok _
  | equal => exact bind (two_fails _ args) fun pair => ok _
  | less | greater => exact compare_fails _ _ args
  | print | list => exact ok _
  | first | rest =>
    exact bind (one_fails _ args) fun a => bind (elementsOf_fails _ a) fun items => ok _
  | note => exact bind (one_fails _ args) fun a => bind (noteOf_fails _ a) fun x => ok _
  | frequency | sleep => exact bind (one_fails _ args) fun a => bind (number_fails _ a) fun x => ok _
  | chord | scale => exact pattern_fails _ _ _ args
  | tempo =>
    unfold answer
    dsimp only
    split
    · exact ok _
    · exact ok _
    · exact error trivial
  | playNote => exact bind (one_fails _ args) fun a => bind (number_fails _ a) fun pitch => ok _
  | synth =>
    exact bind (synthArguments_fails args) fun pair => bind (nameOf_fails _ pair.1) fun name =>
      bind (synthParams_fails pair.2) fun params => ok _
  | free => exact bind (one_fails _ args) fun a => bind (nodeOf_fails _ a) fun id => ok _
  | setParam =>
    exact bind (three_fails _ args) fun triple => bind (nodeOf_fails _ triple.1) fun id =>
      bind (nameOf_fails _ triple.2.1) fun name => bind (number_fails _ triple.2.2) fun x => ok _
  | osc =>
    exact bind (oneOrMore_fails _ args) fun pair => bind (nameOf_fails _ pair.1) fun name =>
      bind (mapM_fails pair.2) fun arguments => ok _

end Operation

end MusicLisp
