import MusicLisp.Proofs.Value.Spanless

/-!
# Natives and spans

No native looks at the spans in its arguments: each check comes to the same with and without them, so an
operation answers the same, up to spans, and does the same.

* `map_bind_spanless`, `bind_spanless`: what is done after a check.
* `answer_spanless`: **what an operation answers** to spanless arguments is what it answers to the arguments, made
  spanless.
-/

namespace MusicLisp

/-- The answer with its value spanless; the effect has no spans. -/
def Answer.spanless (answer : Answer) : Answer := answer.map (Prod.map Value.spanless id)

namespace Operation

section

variable {α : Type}

/-- A check that comes to the same up to `g`, and what is done after it. -/
theorem map_bind_spanless {g : α → α} {x : Except EvalCause α} {f f' : α → Answer}
    (h : ∀ a, f (g a) = Answer.spanless (f' a)) : (x.map g >>= f) = Answer.spanless (x >>= f') := by
  cases x with
  | error cause => rfl
  | ok a => exact h a

/-- A check that comes to the same, and what is done after it. -/
theorem bind_spanless {x : Except EvalCause α} {f f' : α → Answer} (h : ∀ a, f a = Answer.spanless (f' a)) :
    (x >>= f) = Answer.spanless (x >>= f') := by
  cases x with
  | error cause => rfl
  | ok a => exact h a

end

/-! ### Checks -/

section

variable (op : Operation) (args : List Value) (value : Value)

theorem one_spanless : op.one (args.map Value.spanless) = (op.one args).map Value.spanless := by
  match args with
  | [] | [_] => rfl
  | _ :: _ :: _ =>
    exact congrArg (fun n => Except.error (EvalCause.arityMismatch op.name 1 (n + 2))) (List.length_map _)

theorem two_spanless : op.two (args.map Value.spanless) =
    (op.two args).map (Prod.map Value.spanless Value.spanless) := by
  match args with
  | [] | [_] | [_, _] => rfl
  | _ :: _ :: _ :: _ =>
    exact congrArg (fun n => Except.error (EvalCause.arityMismatch op.name 2 (n + 3))) (List.length_map _)

theorem three_spanless : op.three (args.map Value.spanless) =
    (op.three args).map (Prod.map Value.spanless (Prod.map Value.spanless Value.spanless)) := by
  match args with
  | [] | [_] | [_, _] | [_, _, _] => rfl
  | _ :: _ :: _ :: _ :: _ =>
    exact congrArg (fun n => Except.error (EvalCause.arityMismatch op.name 3 (n + 4))) (List.length_map _)

theorem oneOrMore_spanless : op.oneOrMore (args.map Value.spanless) =
    (op.oneOrMore args).map (Prod.map Value.spanless (List.map Value.spanless)) := by
  cases args <;> rfl

theorem number_spanless : op.number value.spanless = op.number value := by
  cases value <;> rfl

theorem nameOf_spanless : op.nameOf value.spanless = op.nameOf value := by
  cases value <;> rfl

theorem noteOf_spanless : op.noteOf value.spanless = op.noteOf value := by
  unfold noteOf
  rw [nameOf_spanless]

theorem rootOf_spanless : op.rootOf value.spanless = op.rootOf value := by
  cases value <;> rfl

theorem nodeOf_spanless : op.nodeOf value.spanless = op.nodeOf value := by
  cases value <;> rfl

theorem elementsOf_spanless : op.elementsOf value.spanless =
    (op.elementsOf value).map (List.map Value.spanless) := by
  cases value with
  | list items => exact congrArg Except.ok (Value.spanlessItems_eq_map items)
  | vector items => exact congrArg Except.ok (Value.spanlessItems_eq_map items)
  | number | string | keyword | boolean | nil | function | map | synthNode => rfl

theorem foldNumbers_spanless (f : Float → Float → Float) (x : Float) :
    op.foldNumbers f x (args.map Value.spanless) = op.foldNumbers f x args := by
  induction args generalizing x with
  | nil => rfl
  | cons value others ih =>
    rw [List.map_cons]
    unfold foldNumbers
    rw [number_spanless]
    exact bind_congr fun y => ih (f x y)

theorem divideBy_spanless (x : Float) : op.divideBy x (args.map Value.spanless) = op.divideBy x args := by
  induction args generalizing x with
  | nil => rfl
  | cons value others ih =>
    rw [List.map_cons]
    unfold divideBy
    rw [number_spanless]
    refine bind_congr fun divisor => ?_
    rw [ih]

theorem equalValues_spanless (a b : Value) : equalValues a.spanless b.spanless = equalValues a b := by
  cases a <;> cases b <;> rfl

theorem paramsOf_spanless (entries : Dict Value) :
    paramsOf (Value.spanlessEntries entries) = paramsOf entries := by
  unfold paramsOf
  rw [Value.spanlessEntries_eq_mapValues, Dict.mapValues, List.filterMap_map]
  refine congrArg (fun f => Dict.ofEntries (entries.filterMap f)) (funext fun entry => ?_)
  exact congrArg (Option.map _) (Value.number?_spanless entry.2)

theorem argumentOf_spanless : argumentOf value.spanless = argumentOf value := by
  cases value <;> rfl

theorem mapM_argumentOf_spanless : (args.map Value.spanless).mapM argumentOf = args.mapM argumentOf := by
  rw [List.mapM_map]
  exact congrArg (fun f => args.mapM f) (funext argumentOf_spanless)

theorem synthParams_spanless : synthParams (args.map Value.spanless) = synthParams args := by
  match args with
  | [] => rfl
  | .map entries :: _ => exact congrArg Except.ok (paramsOf_spanless entries)
  | .number _ :: _ | .string _ :: _ | .keyword _ :: _ | .boolean _ :: _ | .nil :: _ | .function _ :: _
  | .list _ :: _ | .vector _ :: _ | .synthNode _ :: _ => rfl

theorem synthArguments_spanless : synthArguments (args.map Value.spanless) =
    (synthArguments args).map (Prod.map Value.spanless (List.map Value.spanless)) := by
  match args with
  | [] | [_] | [_, _] => rfl
  | _ :: _ :: _ :: _ =>
    exact congrArg (fun n => Except.error (EvalCause.invalidArguments
      ("synth expects between 1 and 2 arguments, got " ++ toString n))) (List.length_map _)

/-! ### Answers -/

/-- An operation that takes one argument, and looks at it by a check that comes to the same. -/
theorem checkOne_spanless {α : Type} {check : Value → Except EvalCause α} {f : α → Answer}
    (hcheck : ∀ value : Value, check value.spanless = check value) (hf : ∀ a, f a = Answer.spanless (f a)) :
    (op.one (args.map Value.spanless) >>= fun a => check a >>= f) =
      Answer.spanless (op.one args >>= fun a => check a >>= f) := by
  rw [one_spanless]
  refine map_bind_spanless fun a => ?_
  rw [hcheck]
  exact bind_spanless hf

theorem compare_spanless (holds : Float → Float → Bool) :
    op.compare holds (args.map Value.spanless) = Answer.spanless (op.compare holds args) := by
  unfold compare
  rw [two_spanless]
  refine map_bind_spanless fun (a, b) => ?_
  dsimp only [Prod.map]
  rw [number_spanless, number_spanless]
  exact bind_spanless fun x => bind_spanless fun y => rfl

/-- A vector of numbers holds no spans. -/
theorem spanless_numbers (xs : List Float) :
    (Value.vector (xs.map .number)).spanless = .vector (xs.map .number) := by
  refine congrArg Value.vector ?_
  rw [Value.spanlessItems_eq_map, List.map_map]
  rfl

theorem pattern_spanless (kind : String) (table : List (String × Pattern)) :
    op.pattern kind table (args.map Value.spanless) = Answer.spanless (op.pattern kind table args) := by
  unfold pattern
  rw [two_spanless]
  refine map_bind_spanless fun (a, b) => ?_
  dsimp only [Prod.map]
  rw [rootOf_spanless, nameOf_spanless]
  refine bind_spanless fun root => bind_spanless fun name => ?_
  cases table.lookup name with
  | none => rfl
  | some steps =>
    exact congrArg (fun value => Except.ok (value, Effect.none)) (spanless_numbers (steps.above root)).symm

end

/-- **What an operation answers** to spanless arguments is what it answers to the arguments, made spanless. -/
theorem answer_spanless (settings : Settings) (engine : Engine) (op : Operation) (args : List Value) :
    op.answer settings engine (args.map Value.spanless) = Answer.spanless (op.answer settings engine args) := by
  cases op with
  | add | multiply =>
    unfold answer
    dsimp only
    rw [foldNumbers_spanless]
    exact bind_spanless fun x => rfl
  | subtract =>
    unfold answer
    dsimp only
    rw [oneOrMore_spanless]
    refine map_bind_spanless fun (a, others) => ?_
    dsimp only [Prod.map]
    rw [number_spanless]
    refine bind_spanless fun x => ?_
    cases others with
    | nil => rfl
    | cons b others =>
      change (foldNumbers .subtract (· - ·) x ((b :: others).map Value.spanless) >>= fun y => _) = _
      rw [foldNumbers_spanless]
      exact bind_spanless fun y => rfl
  | divide =>
    unfold answer
    dsimp only
    rw [oneOrMore_spanless]
    refine map_bind_spanless fun (a, others) => ?_
    dsimp only [Prod.map]
    rw [number_spanless]
    refine bind_spanless fun x => ?_
    rw [divideBy_spanless]
    exact bind_spanless fun y => rfl
  | equal =>
    unfold answer
    dsimp only
    rw [two_spanless]
    refine map_bind_spanless fun (a, b) => ?_
    dsimp only [Prod.map]
    rw [equalValues_spanless]
    rfl
  | less | greater => exact compare_spanless _ _ _
  | print =>
    have htexts : (args.map Value.spanless).map Value.text = args.map Value.text := by
      rw [List.map_map]
      exact congrArg (fun f => args.map f) (funext Value.text_spanless)
    exact congrArg (fun texts => Except.ok (Value.nil, Effect.print (spaced texts))) htexts
  | list =>
    exact congrArg (fun items => Except.ok (Value.list items, Effect.none))
      (Value.spanlessItems_eq_map args).symm
  | first =>
    unfold answer
    dsimp only
    rw [one_spanless]
    refine map_bind_spanless fun a => ?_
    rw [elementsOf_spanless]
    refine map_bind_spanless fun items => ?_
    cases items <;> rfl
  | rest =>
    unfold answer
    dsimp only
    rw [one_spanless]
    refine map_bind_spanless fun a => ?_
    rw [elementsOf_spanless]
    refine map_bind_spanless fun items => ?_
    rw [← List.map_tail, ← Value.spanlessItems_eq_map]
    rfl
  | note => exact checkOne_spanless _ _ (noteOf_spanless _) fun x => rfl
  | frequency | playNote | sleep => exact checkOne_spanless _ _ (number_spanless _) fun x => rfl
  | free => exact checkOne_spanless _ _ (nodeOf_spanless _) fun node => rfl
  | chord | scale => exact pattern_spanless _ _ _ _
  | tempo =>
    match args with
    | [] => rfl
    | [a] | a :: _ :: _ => cases a <;> rfl
  | synth =>
    unfold answer
    dsimp only
    rw [synthArguments_spanless]
    refine map_bind_spanless fun (a, others) => ?_
    dsimp only [Prod.map]
    rw [nameOf_spanless, synthParams_spanless]
    exact bind_spanless fun name => bind_spanless fun params => rfl
  | setParam =>
    unfold answer
    dsimp only
    rw [three_spanless]
    refine map_bind_spanless fun (a, b, c) => ?_
    dsimp only [Prod.map]
    rw [nodeOf_spanless, nameOf_spanless, number_spanless]
    exact bind_spanless fun node => bind_spanless fun name => bind_spanless fun x => rfl
  | osc =>
    unfold answer
    dsimp only
    rw [oneOrMore_spanless]
    refine map_bind_spanless fun (a, others) => ?_
    dsimp only [Prod.map]
    rw [nameOf_spanless, mapM_argumentOf_spanless]
    exact bind_spanless fun text => bind_spanless fun arguments => rfl

end Operation

end MusicLisp
