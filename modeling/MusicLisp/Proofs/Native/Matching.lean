import MusicLisp.Proofs.Value.Matching

/-!
# Natives and values that match

No native looks into the body of a function, so arguments that match are answered by values that match, with the
same effect, or refused for the same cause.

* `Comes`: two checks come to related things, or fail for the same cause.
* `answer_matches`: **what an operation answers** to arguments that match.
-/

namespace MusicLisp.Operation

/-- **Two checks come to related things**, or both fail for the same cause. -/
inductive Comes {α β : Type} (A : α → β → Prop) : Except EvalCause α → Except EvalCause β → Prop
  | ok {a : α} {b : β} (h : A a b) : Comes A (.ok a) (.ok b)
  | error (cause : EvalCause) : Comes A (.error cause) (.error cause)

namespace Comes

variable {α β γ δ : Type} {A : α → β → Prop} {B : γ → δ → Prop}

theorem bind {x : Except EvalCause α} {y : Except EvalCause β} {f : α → Except EvalCause γ}
    {g : β → Except EvalCause δ} (h : Comes A x y) (hfg : ∀ a b, A a b → Comes B (f a) (g b)) :
    Comes B (x >>= f) (y >>= g) := by
  cases h with
  | ok h => exact hfg _ _ h
  | error cause => exact .error cause

/-- A check that comes to the same, and what is done after it. -/
theorem bind_eq {x y : Except EvalCause α} {f : α → Except EvalCause γ} {g : α → Except EvalCause δ}
    (h : x = y) (hfg : ∀ a, Comes B (f a) (g a)) : Comes B (x >>= f) (y >>= g) := by
  subst h
  cases x with
  | ok a => exact hfg a
  | error cause => exact .error cause

end Comes

section

variable (R : Nat → Form → Form → Prop)

/-- Answers match if the values do and the effects are the same. -/
def AnswersMatch : Answer → Answer → Prop := Comes fun a b => a.1.Matches R b.1 ∧ a.2 = b.2

variable {R} (op : Operation) {args args' : List Value} {v w : Value}

/-! ### Checks -/

theorem one_matches (h : List.Forall₂ (Value.Matches R) args args') :
    Comes (Value.Matches R) (op.one args) (op.one args') := by
  match h with
  | .nil => exact .error _
  | .cons ha .nil => exact .ok ha
  | .cons _ (.cons _ hrest) =>
    unfold one
    dsimp only [List.length_cons]
    rw [hrest.length_eq]
    exact .error _

theorem two_matches (h : List.Forall₂ (Value.Matches R) args args') :
    Comes (fun a b => a.1.Matches R b.1 ∧ a.2.Matches R b.2) (op.two args) (op.two args') := by
  match h with
  | .nil | .cons _ .nil => exact .error _
  | .cons ha (.cons hb .nil) => exact .ok ⟨ha, hb⟩
  | .cons _ (.cons _ (.cons _ hrest)) =>
    unfold two
    dsimp only [List.length_cons]
    rw [hrest.length_eq]
    exact .error _

theorem three_matches (h : List.Forall₂ (Value.Matches R) args args') :
    Comes (fun a b => a.1.Matches R b.1 ∧ a.2.1.Matches R b.2.1 ∧ a.2.2.Matches R b.2.2)
      (op.three args) (op.three args') := by
  match h with
  | .nil | .cons _ .nil | .cons _ (.cons _ .nil) => exact .error _
  | .cons ha (.cons hb (.cons hc .nil)) => exact .ok ⟨ha, hb, hc⟩
  | .cons _ (.cons _ (.cons _ (.cons _ hrest))) =>
    unfold three
    dsimp only [List.length_cons]
    rw [hrest.length_eq]
    exact .error _

theorem oneOrMore_matches (h : List.Forall₂ (Value.Matches R) args args') :
    Comes (fun a b => a.1.Matches R b.1 ∧ List.Forall₂ (Value.Matches R) a.2 b.2)
      (op.oneOrMore args) (op.oneOrMore args') := by
  cases h with
  | nil => exact .error _
  | cons ha hrest => exact .ok ⟨ha, hrest⟩

theorem number_eq (h : v.Matches R w) : op.number v = op.number w := by cases h <;> rfl

theorem nameOf_eq (h : v.Matches R w) : op.nameOf v = op.nameOf w := by cases h <;> rfl

theorem noteOf_eq (h : v.Matches R w) : op.noteOf v = op.noteOf w := by
  unfold noteOf
  rw [nameOf_eq op h]

theorem rootOf_eq (h : v.Matches R w) : op.rootOf v = op.rootOf w := by cases h <;> rfl

theorem nodeOf_eq (h : v.Matches R w) : op.nodeOf v = op.nodeOf w := by cases h <;> rfl

theorem argumentOf_eq (h : v.Matches R w) : argumentOf v = argumentOf w := by cases h <;> rfl

theorem elementsOf_matches (h : v.Matches R w) :
    Comes (List.Forall₂ (Value.Matches R)) (op.elementsOf v) (op.elementsOf w) := by
  cases h with
  | list h | vector h => exact .ok h
  | number | string | keyword | boolean | nil | native | lambda | map | synthNode => exact .error _

theorem foldNumbers_eq (h : List.Forall₂ (Value.Matches R) args args') (f : Float → Float → Float) (x : Float) :
    op.foldNumbers f x args = op.foldNumbers f x args' := by
  induction h generalizing x with
  | nil => rfl
  | cons ha _ ih =>
    unfold foldNumbers
    rw [number_eq op ha]
    exact bind_congr fun y => ih (f x y)

theorem divideBy_eq (h : List.Forall₂ (Value.Matches R) args args') (x : Float) :
    op.divideBy x args = op.divideBy x args' := by
  induction h generalizing x with
  | nil => rfl
  | cons ha _ ih =>
    unfold divideBy
    rw [number_eq op ha]
    refine bind_congr fun divisor => ?_
    rw [ih]

theorem equalValues_eq {a b a' b' : Value} (ha : a.Matches R a') (hb : b.Matches R b') :
    equalValues a b = equalValues a' b' := by
  cases ha <;> cases hb <;> rfl

theorem paramsOf_eq {d e : Dict Value} (h : Dict.Matches (Value.Matches R) d e) : paramsOf d = paramsOf e := by
  refine congrArg Dict.ofEntries ?_
  induction h with
  | nil => rfl
  | @cons x y d e hxy _ ih =>
    rw [List.filterMap_cons, List.filterMap_cons, hxy.1, hxy.2.number?_eq, ih]

theorem synthParams_eq (h : List.Forall₂ (Value.Matches R) args args') : synthParams args = synthParams args' := by
  cases h with
  | nil => rfl
  | cons ha hrest =>
    cases ha with
    | map h => exact congrArg Except.ok (paramsOf_eq (Value.entriesMatch_iff.mp h))
    | number | string | keyword | boolean | nil | native | lambda | list | vector | synthNode => rfl

theorem synthArguments_matches (h : List.Forall₂ (Value.Matches R) args args') :
    Comes (fun a b => a.1.Matches R b.1 ∧ List.Forall₂ (Value.Matches R) a.2 b.2)
      (synthArguments args) (synthArguments args') := by
  match h with
  | .nil => exact .error _
  | .cons ha .nil => exact .ok ⟨ha, .nil⟩
  | .cons ha (.cons hb .nil) => exact .ok ⟨ha, .cons hb .nil⟩
  | .cons _ (.cons _ (.cons _ hrest)) =>
    unfold synthArguments
    dsimp only [List.length_cons]
    rw [hrest.length_eq]
    exact .error _

theorem mapM_argumentOf_eq (h : List.Forall₂ (Value.Matches R) args args') :
    args.mapM argumentOf = args'.mapM argumentOf := by
  induction h with
  | nil => rfl
  | cons ha _ ih => rw [List.mapM_cons, List.mapM_cons, argumentOf_eq ha, ih]

/-! ### Answers -/

theorem plain_matches (h : v.Matches R w) : AnswersMatch R (plain v) (plain w) := .ok ⟨h, rfl⟩

/-- An operation that takes one argument and looks at it by a check. -/
theorem checkOne_matches {α : Type} {check : Value → Except EvalCause α} {f : α → Answer}
    (h : List.Forall₂ (Value.Matches R) args args')
    (hcheck : ∀ {v w : Value}, v.Matches R w → check v = check w) (hf : ∀ a, AnswersMatch R (f a) (f a)) :
    AnswersMatch R (op.one args >>= fun a => check a >>= f) (op.one args' >>= fun a => check a >>= f) :=
  (op.one_matches h).bind fun _ _ hab => .bind_eq (hcheck hab) hf

theorem compare_matches (h : List.Forall₂ (Value.Matches R) args args') (holds : Float → Float → Bool) :
    AnswersMatch R (op.compare holds args) (op.compare holds args') :=
  (op.two_matches h).bind fun (_, _) (_, _) hab =>
    .bind_eq (op.number_eq hab.1) fun _ => .bind_eq (op.number_eq hab.2) fun _ => plain_matches (.boolean _)

theorem pattern_matches (h : List.Forall₂ (Value.Matches R) args args') (kind : String)
    (table : List (String × Pattern)) : AnswersMatch R (op.pattern kind table args) (op.pattern kind table args') := by
  refine (op.two_matches h).bind fun (_, _) (_, _) hab =>
    .bind_eq (op.rootOf_eq hab.1) fun root => .bind_eq (op.nameOf_eq hab.2) fun name => ?_
  cases table.lookup name with
  | none => exact .error _
  | some steps => exact plain_matches (.of_numbers _)

theorem trigger_matches (engine : Engine) (synth : String) (params : Dict Float) :
    AnswersMatch R (trigger engine synth params) (trigger engine synth params) := .ok ⟨.synthNode _, rfl⟩

end

/-- **Arguments that match are answered by values that match**, with the same effect. -/
theorem answer_matches {R : Nat → Form → Form → Prop} (settings : Settings) (engine : Engine) (op : Operation)
    {args args' : List Value} (h : List.Forall₂ (Value.Matches R) args args') :
    AnswersMatch R (op.answer settings engine args) (op.answer settings engine args') := by
  cases op with
  | add | multiply => exact .bind_eq (foldNumbers_eq _ h _ _) fun x => plain_matches (.number x)
  | subtract =>
    refine (oneOrMore_matches _ h).bind fun (a, others) (b, others') hab => .bind_eq (number_eq _ hab.1) fun x => ?_
    dsimp only at hab ⊢
    cases hab.2 with
    | nil => exact plain_matches (.number _)
    | cons hc hrest => exact .bind_eq (foldNumbers_eq _ (.cons hc hrest) _ _) fun y => plain_matches (.number y)
  | divide =>
    exact (oneOrMore_matches _ h).bind fun _ _ hab => .bind_eq (number_eq _ hab.1) fun x =>
      .bind_eq (divideBy_eq _ hab.2 x) fun y => plain_matches (.number y)
  | equal =>
    refine (two_matches _ h).bind fun (a, b) (a', b') hab => ?_
    dsimp only at hab ⊢
    rw [equalValues_eq hab.1 hab.2]
    exact plain_matches (.boolean _)
  | less | greater => exact compare_matches _ h _
  | print =>
    have htexts : args.map Value.text = args'.map Value.text := by
      induction h with
      | nil => rfl
      | cons ha _ ih => rw [List.map_cons, List.map_cons, ha.text_eq, ih]
    exact .ok ⟨.nil, congrArg (fun texts => Effect.print (spaced texts)) htexts⟩
  | list => exact plain_matches (.list h)
  | first =>
    refine (one_matches _ h).bind fun _ _ hab => (elementsOf_matches _ hab).bind fun _ _ hitems => ?_
    cases hitems with
    | nil => exact plain_matches .nil
    | cons ha _ => exact plain_matches ha
  | rest =>
    refine (one_matches _ h).bind fun _ _ hab => (elementsOf_matches _ hab).bind fun _ _ hitems => ?_
    cases hitems with
    | nil => exact plain_matches (.list .nil)
    | cons _ hrest => exact plain_matches (.list hrest)
  | note => exact checkOne_matches _ h (noteOf_eq _) fun x => plain_matches (.number _)
  | frequency => exact checkOne_matches _ h (number_eq _) fun x => plain_matches (.number _)
  | sleep => exact checkOne_matches _ h (number_eq _) fun x => .ok ⟨.nil, rfl⟩
  | playNote => exact checkOne_matches _ h (number_eq _) fun x => trigger_matches _ _ _
  | free => exact checkOne_matches _ h (nodeOf_eq _) fun node => .ok ⟨.nil, rfl⟩
  | chord | scale => exact pattern_matches _ h _ _
  | tempo =>
    match h with
    | .nil => exact plain_matches (.number _)
    | .cons ha .nil =>
      cases ha with
      | number x => exact .ok ⟨.number x, rfl⟩
      | string | keyword | boolean | nil | native | lambda | list | vector | map | synthNode => exact .error _
    | .cons ha (.cons _ _) => cases ha <;> exact .error _
  | synth =>
    exact (synthArguments_matches h).bind fun _ _ hab => .bind_eq (nameOf_eq _ hab.1) fun name =>
      .bind_eq (synthParams_eq hab.2) fun params => trigger_matches _ _ _
  | setParam =>
    exact (three_matches _ h).bind fun _ _ hab => .bind_eq (nodeOf_eq _ hab.1) fun node =>
      .bind_eq (nameOf_eq _ hab.2.1) fun name => .bind_eq (number_eq _ hab.2.2) fun x => .ok ⟨.nil, rfl⟩
  | osc =>
    exact (oneOrMore_matches _ h).bind fun _ _ hab => .bind_eq (nameOf_eq _ hab.1) fun text =>
      .bind_eq (mapM_argumentOf_eq hab.2) fun arguments => .ok ⟨.nil, rfl⟩

end MusicLisp.Operation
