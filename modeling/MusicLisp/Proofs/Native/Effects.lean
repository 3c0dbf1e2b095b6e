import MusicLisp.Proofs.Native.Handles

/-!
# What natives do

A native fails and leaves the session as it was, or it answers and does one thing, by its operation: it prints a line,
has the engine send a message, sets the tempo, or does nothing to either.

* `Operation.Takes`: how many arguments an operation takes. A call with another number of them fails for that, whatever
  they are (`answer_of_count`); so arguments are looked at only where there are any.
* `Operation.Has`: the effects that an operation can have; `answer_has`: **an answer has one of them**.
* `Operation.Does`: what such an effect does to the printed lines and the engine (`Has.does`).
* `callNative_cases`: the two ways of a call.
-/

namespace MusicLisp

namespace Operation

/-! ### Numbers of arguments -/

/-- **The numbers of arguments** that an operation takes. -/
def Takes : Operation → Nat → Prop
  | add, _ | multiply, _ | print, _ | list, _ => True
  | subtract, n | divide, n | osc, n => 1 ≤ n
  | equal, n | less, n | greater, n | chord, n | scale, n => n = 2
  | first, n | rest, n | note, n | frequency, n | playNote, n | free, n | sleep, n => n = 1
  | setParam, n => n = 3
  | tempo, n => n ≤ 1
  | synth, n => n = 1 ∨ n = 2

section Counts

variable {op : Operation} {args : List Value}

theorem one_of_count (h : args.length ≠ 1) : op.one args = .error (.arityMismatch op.name 1 args.length) := by
  unfold one
  split
  · exact absurd rfl h
  · rfl

theorem two_of_count (h : args.length ≠ 2) : op.two args = .error (.arityMismatch op.name 2 args.length) := by
  unfold two
  split
  · exact absurd rfl h
  · rfl

theorem three_of_count (h : args.length ≠ 3) : op.three args = .error (.arityMismatch op.name 3 args.length) := by
  unfold three
  split
  · exact absurd rfl h
  · rfl

theorem oneOrMore_of_count (h : ¬ 1 ≤ args.length) :
    op.oneOrMore args = .error (.invalidArguments (op.name ++ " requires at least 1 argument, got 0")) := by
  unfold oneOrMore
  split
  · exact absurd (Nat.le_add_left 1 _) h
  · rfl

theorem synthArguments_of_count (h : ¬ (args.length = 1 ∨ args.length = 2)) : synthArguments args =
    .error (.invalidArguments ("synth expects between 1 and 2 arguments, got " ++ toString args.length)) := by
  unfold synthArguments
  split
  · exact absurd (.inl rfl) h
  · exact absurd (.inr rfl) h
  · rfl

end Counts

/-- What a call with a wrong number of arguments fails for. -/
def miscount (op : Operation) (n : Nat) : EvalCause :=
  match op with
  | subtract | divide | osc => .invalidArguments (op.name ++ " requires at least 1 argument, got 0")
  | synth => .invalidArguments ("synth expects between 1 and 2 arguments, got " ++ toString n)
  | tempo => .invalidArguments "bpm requires 0 or 1 number argument"
  | equal | less | greater | chord | scale => .arityMismatch op.name 2 n
  | setParam => .arityMismatch op.name 3 n
  | _ => .arityMismatch op.name 1 n

/-- **A wrong number of arguments** is all that a call with it fails for. -/
theorem answer_of_count (settings : Settings) (engine : Engine) {op : Operation} {args : List Value}
    (h : ¬ op.Takes args.length) : op.answer settings engine args = .error (op.miscount args.length) := by
  cases op with
  | add | multiply | print | list => exact absurd trivial h
  | subtract | divide | osc =>
    unfold answer
    rw [oneOrMore_of_count h]
    rfl
  | equal =>
    unfold answer
    rw [two_of_count h]
    rfl
  | less | greater =>
    unfold answer compare
    rw [two_of_count h]
    rfl
  | chord | scale =>
    unfold answer pattern
    rw [two_of_count h]
    rfl
  | first | rest | note | frequency | playNote | free | sleep =>
    unfold answer
    rw [one_of_count h]
    rfl
  | setParam =>
    unfold answer
    rw [three_of_count h]
    rfl
  | tempo =>
    unfold answer
    dsimp only
    split
    · exact absurd (Nat.zero_le 1) h
    · exact absurd (Nat.le_refl 1) h
    · rfl
  | synth =>
    unfold answer
    rw [synthArguments_of_count h]
    rfl

/-! ### Effects -/

/-- **The effects that an operation can have** on a call with these arguments. -/
def Has (op : Operation) (args : List Value) (x : Effect) : Prop :=
  match op with
  | print => x = .print (spaced (args.map Value.text))
  | playNote | synth => ∃ name params, x = .command (.trigger name params)
  | free => ∃ id, x = .command (.free id)
  | setParam => ∃ id param value, x = .command (.setParam id param value)
  | osc => ∃ address arguments, x = .command (.raw address arguments)
  | tempo =>
    match args with
    | [.number bpm] => x = .setTempo bpm
    | _ => x = .none
  | sleep => ∃ seconds, x = .sleep seconds
  | _ => x = .none

/-- **The effect of an answer** is one of its operation. -/
theorem answer_has (settings : Settings) (engine : Engine) (op : Operation) (args : List Value) :
    Gives (fun a => op.Has args a.2) (op.answer settings engine args) := by
  cases op with
  | add | multiply => exact (Gives.any _).bind fun _ _ => .ok rfl
  | subtract =>
    refine (Gives.any _).bind fun _ _ => (Gives.any _).bind fun _ _ => ?_
    split
    · exact .ok rfl
    · exact (Gives.any _).bind fun _ _ => .ok rfl
  | divide =>
    exact (Gives.any _).bind fun _ _ => (Gives.any _).bind fun _ _ => (Gives.any _).bind fun _ _ => .ok rfl
  | equal => exact (Gives.any _).bind fun _ _ => .ok rfl
  | less | greater =>
    exact (Gives.any _).bind fun _ _ => (Gives.any _).bind fun _ _ => (Gives.any _).bind fun _ _ => .ok rfl
  | print | list => exact .ok rfl
  | first | rest | note | frequency => exact (Gives.any _).bind fun _ _ => (Gives.any _).bind fun _ _ => .ok rfl
  | chord | scale =>
    refine (Gives.any _).bind fun _ _ => (Gives.any _).bind fun _ _ => (Gives.any _).bind fun _ _ => ?_
    split
    · exact .error _
    · exact .ok rfl
  | tempo =>
    unfold answer
    dsimp only
    split
    · exact .ok rfl
    · exact .ok rfl
    · exact .error _
  | playNote => exact (Gives.any _).bind fun _ _ => (Gives.any _).bind fun _ _ => .ok ⟨_, _, rfl⟩
  | synth =>
    exact (Gives.any _).bind fun _ _ => (Gives.any _).bind fun _ _ => (Gives.any _).bind fun _ _ => .ok ⟨_, _, rfl⟩
  | free => exact (Gives.any _).bind fun _ _ => (Gives.any _).bind fun _ _ => .ok ⟨_, rfl⟩
  | setParam =>
    exact (Gives.any _).bind fun _ _ => (Gives.any _).bind fun _ _ => (Gives.any _).bind fun _ _ =>
      (Gives.any _).bind fun _ _ => .ok ⟨_, _, _, rfl⟩
  | osc =>
    exact (Gives.any _).bind fun _ _ => (Gives.any _).bind fun _ _ => (Gives.any _).bind fun _ _ => .ok ⟨_, _, rfl⟩
  | sleep => exact (Gives.any _).bind fun _ _ => (Gives.any _).bind fun _ _ => .ok ⟨_, rfl⟩

/-- **What an operation does** to a session when it answers: one line is printed, or one message sent, or the tempo set,
or none of that. A node number is used up only where a synth is started. -/
def Does (op : Operation) (args : List Value) (s t : Session) : Prop :=
  match op with
  | print => t.printed = s.printed.push (spaced (args.map Value.text)) ∧ t.engine = s.engine
  | playNote | synth => t.printed = s.printed ∧
    ∃ m, t.engine = { s.engine with nextNode := s.engine.nextNode + 1, sent := s.engine.sent.push m }
  | free | setParam | osc => t.printed = s.printed ∧ ∃ m, t.engine = { s.engine with sent := s.engine.sent.push m }
  | tempo =>
    match args with
    | [.number bpm] => t.printed = s.printed ∧ t.engine = { s.engine with tempo := bpm }
    | _ => t.printed = s.printed ∧ t.engine = s.engine
  | _ => t.printed = s.printed ∧ t.engine = s.engine

theorem perform_print (s : Session) (line : String) : (s.perform (.print line)).printed = s.printed.push line ∧
    (s.perform (.print line)).engine = s.engine := by
  unfold Session.perform
  dsimp only
  split <;> exact ⟨rfl, rfl⟩

/-- The number of the next node fits a word after an effect, if there was room for one more. -/
theorem fitsWord_perform {s : Session} (h : fitsWord s.engine.nextNode)
    (hroom : s.engine.nextNode + 1 < Int.pow 2 63) (x : Effect) : fitsWord (s.perform x).engine.nextNode := by
  cases x with
  | print line =>
    rw [(perform_print s line).2]
    exact h
  | command c => exact fitsWord_command h hroom c
  | none | sleep | setTempo => exact h

/-- Carrying out an effect of an operation is what the operation does. -/
theorem Has.does {op : Operation} {args : List Value} {x : Effect} (h : op.Has args x) (s : Session) :
    op.Does args s (s.perform x) := by
  cases op with
  | print =>
    obtain rfl : x = .print _ := h
    exact perform_print s _
  | playNote | synth =>
    obtain ⟨name, params, rfl⟩ := h
    exact ⟨rfl, _, rfl⟩
  | free =>
    obtain ⟨id, rfl⟩ := h
    exact ⟨rfl, _, rfl⟩
  | setParam =>
    obtain ⟨id, param, value, rfl⟩ := h
    exact ⟨rfl, _, rfl⟩
  | osc =>
    obtain ⟨address, arguments, rfl⟩ := h
    exact ⟨rfl, _, rfl⟩
  | tempo =>
    dsimp only [Has, Does] at h ⊢
    split at h
    · subst h
      exact ⟨rfl, rfl⟩
    · subst h
      exact ⟨rfl, rfl⟩
  | sleep =>
    obtain ⟨seconds, rfl⟩ := h
    exact ⟨rfl, rfl⟩
  | _ =>
    obtain rfl : x = .none := h
    exact ⟨rfl, rfl⟩

end Operation

/-- **The two ways of a call of a native.** It fails, blaming its span, and leaves the session as it was; with a wrong
number of arguments it fails for that, whatever they are. Or it answers, and does what its operation does and no more;
and the number of the next node still fits a word, if there was room for one more. -/
theorem callNative_cases (op : Operation) (args : List Value) (span : Span) (s : Session) :
    (∃ cause, callNative op args span s = .error ⟨cause, span⟩ s ∧
      (¬ op.Takes args.length → cause = op.miscount args.length)) ∨
    ∃ v t, callNative op args span s = .ok v t ∧ op.Takes args.length ∧ op.Does args s t ∧
      t = { s with engine := t.engine, printed := t.printed, journal := t.journal } ∧
      (Operation.fitsWord s.engine.nextNode → s.engine.nextNode + 1 < Int.pow 2 63 →
        Operation.fitsWord t.engine.nextNode) := by
  unfold callNative
  cases hanswer : op.answer s.settings s.engine args with
  | error cause =>
    refine .inl ⟨cause, rfl, fun hcount => ?_⟩
    exact Except.error.inj (hanswer.symm.trans (op.answer_of_count s.settings s.engine hcount))
  | ok a =>
    obtain ⟨v, x⟩ := a
    refine .inr ⟨v, s.perform x, rfl, ?_, ?_, s.perform_eq x, fun h hroom => Operation.fitsWord_perform h hroom x⟩
    · by_contra hcount
      cases hanswer.symm.trans (Operation.answer_of_count s.settings s.engine hcount)
    · exact (Operation.answer_has s.settings s.engine op args _ hanswer).does s

end MusicLisp
