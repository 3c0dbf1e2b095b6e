import MusicLisp.Form.Read

/-!
# Streams with and without an end mark

A stream of tokens may run out with or without a mark at its end. Where it runs out without one, a reader makes up
the place of the mark from the token taken last, in a branch of its own. Nothing that is read tells the two apart.

The two streams do not stay in the same state: a reader that fails at the end has taken the mark of the one stream
and has found the other empty. From then on both are empty, and both have the same token taken last. `UpToMark` holds
the two states that the streams can be in together, and every reader answers the same in both and keeps them there.

* `readAt_upToMark`, `readItems_upToMark`, `readEntries_upToMark`, `readValue_upToMark`: one reader each, by the
  recursion of the readers.
* `answers_upToMark`: **any sequence of calls**, also after calls that failed.
-/

namespace MusicLisp.TokenStream

/-! ### The mark -/

/-- Where the last of some tokens ends, or `before` if there is none. -/
def lastStop (before : Nat) (ts : List Token) : Nat := (ts.getLast?.map fun t => t.span.stop).getD before

/-- The mark at the end of some tokens. -/
def endMark (before : Nat) (ts : List Token) : Token := ⟨.endOfInput, .point (lastStop before ts)⟩

theorem lastStop_cons (before : Nat) (t : Token) (ts : List Token) :
    lastStop before (t :: ts) = lastStop t.span.stop ts := by
  unfold lastStop
  rw [List.getLast?_cons]
  cases ts.getLast? <;> rfl

/-- A stream with a mark at its end. -/
def withMark (s : TokenStream) : TokenStream := ⟨s.tokens ++ [endMark s.lastEnd s.tokens], s.lastEnd⟩

/-- The token at the front of a stream is taken off the stream with the mark as well. -/
theorem withMark_cons (t : Token) (rest : List Token) (lastEnd : Nat) :
    withMark ⟨t :: rest, lastEnd⟩ = ⟨t :: (after t rest).withMark.tokens, lastEnd⟩ := by
  unfold withMark endMark
  rw [lastStop_cons]
  rfl

/-- **A stream without an end mark and one with it**: the mark stands at the end, or both streams are used up. -/
inductive UpToMark : TokenStream → TokenStream → Prop
  | standing (s : TokenStream) : UpToMark s s.withMark
  | taken (lastEnd : Nat) : UpToMark ⟨[], lastEnd⟩ ⟨[], lastEnd⟩

namespace UpToMark

variable {t : Token} {rest : List Token} {lastEnd : Nat} {s : TokenStream}

theorem of_cons (h : UpToMark ⟨t :: rest, lastEnd⟩ s) : s = ⟨t :: (after t rest).withMark.tokens, lastEnd⟩ := by
  cases h
  exact withMark_cons t rest lastEnd

theorem of_nil (h : UpToMark ⟨[], lastEnd⟩ s) : s = ⟨[endMark lastEnd []], lastEnd⟩ ∨ s = ⟨[], lastEnd⟩ := by
  cases h with
  | standing => exact .inl rfl
  | taken => exact .inr rfl

/-- The streams after a token that both start with. -/
theorem after (t : Token) (rest : List Token) :
    UpToMark (after t rest) (.after t (TokenStream.after t rest).withMark.tokens) := .standing _

end UpToMark

/-! ### Readers -/

section

variable {α : Type} {top top' : TokenStream}

/-- The same answer is given, and the streams left are one without an end mark and one with it. -/
def Alike (r : Reading α top) (r' : Reading α top') : Prop := r.answer = r'.answer ∧ UpToMark r.rest r'.rest

theorem Alike.cases {r : Reading α top} {r' : Reading α top'} (h : Alike r r') :
    (∃ e left hl left' hl', r = ⟨.error e, left, hl⟩ ∧ r' = ⟨.error e, left', hl'⟩ ∧ UpToMark left left') ∨
      ∃ a left hl left' hl', r = ⟨.ok a, left, hl⟩ ∧ r' = ⟨.ok a, left', hl'⟩ ∧ UpToMark left left' := by
  obtain ⟨answer, left, hl⟩ := r
  obtain ⟨answer', left', hl'⟩ := r'
  obtain ⟨rfl, hleft⟩ : answer = answer' ∧ UpToMark left left' := h
  cases answer with
  | error e => exact .inl ⟨e, left, hl, left', hl', rfl, rfl, hleft⟩
  | ok a => exact .inr ⟨a, left, hl, left', hl', rfl, rfl, hleft⟩

end

mutual

theorem readAt_upToMark (t : Token) : ∀ {s s' top top' : TokenStream}, UpToMark s s' → ∀ (h : s.size ≤ top.size)
    (h' : s'.size ≤ top'.size), Alike (readAt t s top h) (readAt t s' top' h')
  | s, s', _, _, hs, h, h' => by
    rw [readAt, readAt]
    cases t.kind with
    | opening b =>
      cases b with
      | round => exact readItems_upToMark .list .round t.span [] hs h h'
      | square => exact readItems_upToMark .vector .square t.span [] hs h h'
      | curly => exact readEntries_upToMark t.span [] hs h h'
    | atom a => exact ⟨rfl, hs⟩
    | closing b => exact ⟨rfl, hs⟩
    | endOfInput => exact ⟨rfl, hs⟩
termination_by s => 2 * s.size + 1

theorem readItems_upToMark (make : Span → List Form → Form) (b : Bracket) (start : Span) (found : List Form) :
    ∀ {s s' top top' : TokenStream}, UpToMark s s' → ∀ (h : s.size ≤ top.size) (h' : s'.size ≤ top'.size),
      Alike (readItems make b start found s top h) (readItems make b start found s' top' h')
  | ⟨[], lastEnd⟩, _, _, _, hs, _, _ => by
    obtain rfl | rfl := hs.of_nil <;> rw [readItems, readItems] <;> exact ⟨rfl, .taken lastEnd⟩
  | ⟨t :: rest, lastEnd⟩, _, _, _, hs, _, _ => by
    obtain rfl := hs.of_cons
    rw [readItems, readItems]
    cases hk : t.kind with
    | closing c =>
      dsimp only
      split
      · exact ⟨rfl, .after t rest⟩
      · exact ⟨rfl, .after t rest⟩
    | endOfInput => exact ⟨rfl, .after t rest⟩
    | opening _ | atom _ =>
      dsimp only
      obtain ⟨e, left, hl, left', hl', hr, hr', hleft⟩ | ⟨form, left, hl, left', hl', hr, hr', hleft⟩ :=
        (readAt_upToMark t (.after t rest) (Nat.le_refl _) (Nat.le_refl _)).cases
      · rw [hr, hr']
        exact ⟨rfl, hleft⟩
      · have hlt : left.size < size ⟨t :: rest, lastEnd⟩ := Nat.lt_succ_of_le hl
        rw [hr, hr']
        exact readItems_upToMark make b start (form :: found) hleft _ _
termination_by s => 2 * s.size
decreasing_by all_goals simp only [size, after, List.length_cons] at *; omega

theorem readEntries_upToMark (start : Span) (found : List (Form × Form)) :
    ∀ {s s' top top' : TokenStream}, UpToMark s s' → ∀ (h : s.size ≤ top.size) (h' : s'.size ≤ top'.size),
      Alike (readEntries start found s top h) (readEntries start found s' top' h')
  | ⟨[], lastEnd⟩, _, _, _, hs, _, _ => by
    obtain rfl | rfl := hs.of_nil <;> rw [readEntries, readEntries] <;> exact ⟨rfl, .taken lastEnd⟩
  | ⟨t :: rest, lastEnd⟩, _, _, _, hs, _, _ => by
    obtain rfl := hs.of_cons
    rw [readEntries, readEntries]
    cases hk : t.kind with
    | closing c => cases c <;> exact ⟨rfl, .after t rest⟩
    | endOfInput => exact ⟨rfl, .after t rest⟩
    | opening _ | atom _ =>
      dsimp only
      obtain ⟨e, left, hl, left', hl', hr, hr', hleft⟩ | ⟨key, left, hl, left', hl', hr, hr', hleft⟩ :=
        (readAt_upToMark t (.after t rest) (Nat.le_refl _) (Nat.le_refl _)).cases
      · rw [hr, hr']
        exact ⟨rfl, hleft⟩
      · have hlt : left.size < size ⟨t :: rest, lastEnd⟩ := Nat.lt_succ_of_le hl
        rw [hr, hr']
        exact readValue_upToMark start found key hleft _ _
termination_by s => 2 * s.size
decreasing_by all_goals simp only [size, after, List.length_cons] at *; omega

theorem readValue_upToMark (start : Span) (found : List (Form × Form)) (key : Form) :
    ∀ {s s' top top' : TokenStream}, UpToMark s s' → ∀ (h : s.size ≤ top.size) (h' : s'.size ≤ top'.size),
      Alike (readValue start found key s top h) (readValue start found key s' top' h')
  | ⟨[], lastEnd⟩, _, _, _, hs, _, _ => by
    obtain rfl | rfl := hs.of_nil <;> rw [readValue, readValue] <;> exact ⟨rfl, .taken lastEnd⟩
  | ⟨t :: rest, lastEnd⟩, _, _, _, hs, _, _ => by
    obtain rfl := hs.of_cons
    rw [readValue, readValue]
    cases hk : t.kind with
    | closing c => cases c <;> exact ⟨rfl, .after t rest⟩
    | endOfInput => exact ⟨rfl, .after t rest⟩
    | opening _ | atom _ =>
      dsimp only
      obtain ⟨e, left, hl, left', hl', hr, hr', hleft⟩ | ⟨value, left, hl, left', hl', hr, hr', hleft⟩ :=
        (readAt_upToMark t (.after t rest) (Nat.le_refl _) (Nat.le_refl _)).cases
      · rw [hr, hr']
        exact ⟨rfl, hleft⟩
      · have hlt : left.size < size ⟨t :: rest, lastEnd⟩ := Nat.lt_succ_of_le hl
        rw [hr, hr']
        exact readEntries_upToMark start ((key, value) :: found) hleft _ _
termination_by s => 2 * s.size
decreasing_by all_goals simp only [size, after, List.length_cons] at *; omega

end

theorem readForm_endMark (lastEnd : Nat) : readForm ⟨[endMark lastEnd []], lastEnd⟩ =
    ⟨.error (.unexpectedEnd aForm (.point lastEnd)), ⟨[], lastEnd⟩, Nat.le_succ 0⟩ := by
  simp only [readForm, readAt, endMark]
  rfl

theorem readForm_upToMark : ∀ {s s' : TokenStream}, UpToMark s s' → Alike (readForm s) (readForm s')
  | ⟨[], lastEnd⟩, _, hs => by
    obtain rfl | rfl := hs.of_nil
    · rw [readForm_endMark]
      exact ⟨rfl, .taken lastEnd⟩
    · exact ⟨rfl, .taken lastEnd⟩
  | ⟨t :: rest, lastEnd⟩, _, hs => by
    obtain rfl := hs.of_cons
    exact readAt_upToMark t (.after t rest) _ _

theorem readAllFrom_upToMark (found : List Form) : ∀ {s s' : TokenStream}, UpToMark s s' →
    (readAllFrom found s).1 = (readAllFrom found s').1 ∧ UpToMark (readAllFrom found s).2 (readAllFrom found s').2
  | ⟨[], lastEnd⟩, _, hs => by
    obtain rfl | rfl := hs.of_nil
    · rw [readAllFrom, readAllFrom]
      exact ⟨rfl, hs⟩
    · rw [readAllFrom]
      exact ⟨rfl, hs⟩
  | ⟨t :: rest, lastEnd⟩, _, hs => by
    obtain rfl := hs.of_cons
    rw [readAllFrom, readAllFrom]
    cases hk : t.kind with
    | endOfInput => exact ⟨rfl, hs⟩
    | opening _ | closing _ | atom _ =>
      dsimp only
      obtain ⟨e, left, hl, left', hl', hr, hr', hleft⟩ | ⟨form, left, hl, left', hl', hr, hr', hleft⟩ :=
        (readAt_upToMark t (.after t rest) (Nat.le_refl _) (Nat.le_refl _)).cases
      · rw [hr, hr']
        exact ⟨rfl, hleft⟩
      · have hlt : left.size < size ⟨t :: rest, lastEnd⟩ := Nat.lt_succ_of_le hl
        rw [hr, hr']
        exact readAllFrom_upToMark (form :: found) hleft
termination_by s => s.size

/-! ### Calls -/

/-- What a stream can be asked for: its next form, or every form up to its end. -/
inductive Call where
  | form
  | all
deriving DecidableEq, Repr, Inhabited

/-- What is answered to a call. -/
inductive Answer where
  | form (answer : Except ReadError Form)
  | all (answer : Except ReadError (List Form))

/-- What a stream answers to a call, and the stream it leaves. -/
def serve (s : TokenStream) : Call → Answer × TokenStream
  | .form => (.form s.readForm.answer, s.readForm.rest)
  | .all => (.all s.readAll.1, s.readAll.2)

/-- **What a stream answers to calls**, one after the other. A call that fails does not end the sequence. -/
def answers (s : TokenStream) : List Call → List Answer
  | [] => []
  | call :: calls => (s.serve call).1 :: (s.serve call).2.answers calls

theorem serve_upToMark {s s' : TokenStream} (hs : UpToMark s s') (call : Call) :
    (s.serve call).1 = (s'.serve call).1 ∧ UpToMark (s.serve call).2 (s'.serve call).2 := by
  cases call with
  | form =>
    obtain ⟨hanswer, hrest⟩ := readForm_upToMark hs
    exact ⟨congrArg Answer.form hanswer, hrest⟩
  | all =>
    obtain ⟨hanswer, hrest⟩ := readAllFrom_upToMark [] hs
    exact ⟨congrArg Answer.all hanswer, hrest⟩

theorem answers_upToMark {s s' : TokenStream} (hs : UpToMark s s') (calls : List Call) :
    s.answers calls = s'.answers calls := by
  induction calls generalizing s s' with
  | nil => rfl
  | cons call calls ih =>
    obtain ⟨hanswer, hrest⟩ := serve_upToMark hs call
    rw [answers, answers, hanswer, ih hrest]

/-- **The end mark makes no difference**: to any sequence of calls, tokens with a mark behind the last of them give
the answers that they give without it. -/
theorem answers_endMark (ts : List Token) (calls : List Call) :
    (ofTokens (ts ++ [endMark 0 ts])).answers calls = (ofTokens ts).answers calls :=
  (answers_upToMark (.standing (ofTokens ts)) calls).symm

end MusicLisp.TokenStream
