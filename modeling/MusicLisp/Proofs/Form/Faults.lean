import MusicLisp.Proofs.Form.Brackets

/-!
# The first fault of a stream

Reading descends into brackets and keeps none of them; what is wrong with a token can still be told from the stack of
the brackets that are open at it. A closing bracket has to be the one of the innermost bracket, a map has to end
between two entries, and at the mark nothing may be open.

* `Brackets.Fault`: what can be wrong with a token, told from the innermost bracket.
* `Brackets.step_eq_error_iff`: the open brackets refuse a token for its fault only. Since only maps await values
  (`Brackets.awaits_of_run`), these are all faults there are.
* `readAll_eq_error_iff`: reading a marked stream and the open brackets stop with the same error before the same tokens.
* `readAll_first_fault`: **reading a marked stream fails with its first fault**, and leaves the tokens after it.
-/

namespace MusicLisp

namespace Brackets

/-! ### Faults -/

/-- **What is wrong with a token** where these brackets are open, the innermost first. -/
inductive Fault : List OpenBracket → Token → ReadError → Prop
  /-- A closing bracket where none is open. -/
  | stray {t : Token} {c : Bracket} (ht : t.kind = .closing c) : Fault [] t (.unexpectedToken t aForm)
  /-- A closing bracket of another shape than the innermost bracket. -/
  | other {o : OpenBracket} {outer : List OpenBracket} {t : Token} {c : Bracket} (ht : t.kind = .closing c)
    (hc : c ≠ o.bracket) : Fault (o :: outer) t (.unexpectedToken t o.bracket.expected)
  /-- The end of a map, or of the stream in a map, while a key awaits its value. -/
  | odd {start : Span} {outer : List OpenBracket} {t : Token}
    (ht : t.kind = .closing .curly ∨ t.kind = .endOfInput) :
    Fault (⟨.curly, start, true⟩ :: outer) t (.oddMap (start.merge t.span))
  /-- The end of the stream in a bracket where no key awaits its value. -/
  | unclosed {b : Bracket} {start : Span} {outer : List OpenBracket} {t : Token} (ht : t.kind = .endOfInput) :
    Fault (⟨b, start, false⟩ :: outer) t (.unexpectedEnd b.expected t.span)

variable {opens opens' : List OpenBracket} {t : Token} {ts : List Token} {e : ReadError}

/-- Only maps await values. -/
theorem awaits_of_run (h : run [] ts = .ok opens) : ∀ o ∈ opens, o.awaits = true → o.bracket = .curly := by
  refine run_forall (P := fun o => o.awaits = true → o.bracket = .curly) (fun o _ hawaits => ?_) h
    (fun t _ b hawaits => absurd hawaits Bool.false_ne_true) (List.forall_mem_nil _)
  exact of_decide_eq_true (Bool.and_eq_true_iff.mp hawaits).1

theorem Fault.step_eq_error (h : Fault opens t e) : step opens t = .error e := by
  cases h with
  | stray ht => exact step_closing_nil ht
  | other ht hc => exact step_other ht hc
  | odd ht => exact step_odd ht
  | unclosed ht => exact step_end ht

/-- **The open brackets refuse a token for its fault**, and for nothing else. -/
theorem step_eq_error_iff (hopens : ∀ o ∈ opens, o.awaits = true → o.bracket = .curly) :
    step opens t = .error e ↔ Fault opens t e := by
  refine ⟨fun h => ?_, Fault.step_eq_error⟩
  unfold step at h
  split at h
  · cases h
  · cases h
  · next ht =>
    cases h
    exact .stray ht
  · next ht =>
    split at h
    · next hc =>
      cases h
      exact .other ht hc
    · next c o outer hc =>
      obtain ⟨b, start, awaits⟩ := o
      obtain rfl : c = b := not_not.mp hc
      split at h
      · next hawaits =>
        cases h
        obtain rfl : awaits = true := hawaits
        obtain rfl : c = .curly := hopens _ List.mem_cons_self rfl
        exact .odd (.inl ht)
      · cases h
  · cases h
  · next o outer ht =>
    obtain ⟨b, start, awaits⟩ := o
    split at h
    · next hawaits =>
      cases h
      obtain rfl : awaits = true := hawaits
      obtain rfl : b = .curly := hopens _ List.mem_cons_self rfl
      exact .odd (.inr ht)
    · next hawaits =>
      cases h
      obtain rfl : awaits = false := Bool.eq_false_iff.mpr hawaits
      exact .unclosed ht

/-- **Where tokens first go wrong**, and with which fault. -/
theorem halt_nil_eq_some_iff {rest : List Token} : halt [] ts = some (e, rest) ↔
    ∃ before t opens, ts = before ++ t :: rest ∧ run [] before = .ok opens ∧ Fault opens t e := by
  refine halt_eq_some_iff.trans ⟨?_, ?_⟩
  · rintro ⟨before, t, opens, hts, hrun, hstep⟩
    exact ⟨before, t, opens, hts, hrun, (step_eq_error_iff (awaits_of_run hrun)).mp hstep⟩
  · rintro ⟨before, t, opens, hts, hrun, hfault⟩
    exact ⟨before, t, opens, hts, hrun, hfault.step_eq_error⟩

end Brackets

/-! ### Reading marked streams -/

namespace TokenStream

open Brackets

section

variable {mark : Token} {ts : List Token} (hmark : mark.kind = .endOfInput)
  (hts : ∀ t ∈ ts, t.kind ≠ .endOfInput) (lastEnd : Nat)
include hmark hts

/-- **Reading and the open brackets** stop with the same error before the same tokens. -/
theorem readAll_eq_error_iff {e : ReadError} {rest : List Token} :
    (∃ left, readAll ⟨ts ++ [mark], lastEnd⟩ = (.error e, left) ∧ left.tokens = rest) ↔
      halt [] (ts ++ [mark]) = some (e, rest) := by
  constructor
  · rintro ⟨left, ha, rfl⟩
    exact halt_of_readAll hmark lastEnd ha
  · intro hhalt
    cases ha : readAll ⟨ts ++ [mark], lastEnd⟩ with
    | mk answer left =>
      cases answer with
      | error e' =>
        rw [halt_of_readAll hmark lastEnd ha] at hhalt
        cases hhalt
        exact ⟨left, rfl, rfl⟩
      | ok forms =>
        have hrun := run_eq_readAll hmark hts lastEnd
        rw [ha, run_of_halt hhalt] at hrun
        cases hrun

/-- A marked stream is read if and only if the open brackets take all of it. -/
theorem readAll_ok_iff_run :
    (∃ forms, (readAll ⟨ts ++ [mark], lastEnd⟩).1 = .ok forms) ↔ run [] (ts ++ [mark]) = .ok [] := by
  rw [run_eq_readAll hmark hts lastEnd]
  cases (readAll ⟨ts ++ [mark], lastEnd⟩).1 with
  | error e =>
    constructor
    · rintro ⟨forms, h⟩
      cases h
    · intro h
      cases h
  | ok forms => exact iff_of_true ⟨forms, rfl⟩ rfl

/-- **Reading a marked stream fails with its first fault**: the open brackets take the tokens before, the error is what
is wrong with the token for them, and the tokens after it are left. It succeeds if and only if the open brackets take
all tokens, the mark included. -/
theorem readAll_first_fault :
    (∀ e rest, (∃ left, readAll ⟨ts ++ [mark], lastEnd⟩ = (.error e, left) ∧ left.tokens = rest) ↔
      ∃ before t opens, ts ++ [mark] = before ++ t :: rest ∧ run [] before = .ok opens ∧ Fault opens t e) ∧
    ((∃ forms, (readAll ⟨ts ++ [mark], lastEnd⟩).1 = .ok forms) ↔ run [] (ts ++ [mark]) = .ok []) :=
  ⟨fun _ _ => (readAll_eq_error_iff hmark hts lastEnd).trans halt_nil_eq_some_iff, readAll_ok_iff_run hmark hts lastEnd⟩

end

/-- In a vector, a map that ends after a key, and then a closing bracket of the wrong shape: the map is the fault, and
the other bracket is left. -/
theorem readAll_first_fault_odd :
    ∃ left, readAll ⟨[⟨.opening .square, 0, 1⟩, ⟨.opening .curly, 1, 2⟩, ⟨.atom (.keyword "a"), 2, 4⟩,
        ⟨.closing .curly, 4, 5⟩, ⟨.closing .round, 5, 6⟩] ++ [⟨.endOfInput, 6, 6⟩], 0⟩ =
      (.error (.oddMap ⟨1, 5⟩), left) ∧ left.tokens = [⟨.closing .round, 5, 6⟩, ⟨.endOfInput, 6, 6⟩] := by
  have hts : ∀ t ∈ [Token.mk (.opening .square) ⟨0, 1⟩, ⟨.opening .curly, 1, 2⟩, ⟨.atom (.keyword "a"), 2, 4⟩,
      ⟨.closing .curly, 4, 5⟩, ⟨.closing .round, 5, 6⟩], t.kind ≠ .endOfInput := by
    simp
  refine ((readAll_first_fault rfl hts 0).1 _ _).mpr ⟨[_, _, _], ⟨.closing .curly, 4, 5⟩, _, rfl, rfl, ?_⟩
  exact .odd (.inl rfl)

end TokenStream

end MusicLisp
