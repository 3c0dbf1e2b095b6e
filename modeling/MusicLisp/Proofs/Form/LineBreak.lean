import MusicLisp.Proofs.Form.Brackets
import MusicLisp.Proofs.Form.Joining

/-!
# What goes wrong across a line break

A text that can be read leaves no bracket open. So after a line break a second text is read as if it stood alone, and
what is wrong with it is wrong with both, only further to the right.

* `ReadError.shift`: an error with all its spans moved to the right.
* `Brackets.step_shift`, `Brackets.run_shift`: moved tokens do to moved brackets what the tokens do to the brackets.
* `readForms_join_error`: the second text cannot be read.
* `reads_across_break`: **tokens and forms of two texts with a line break between**, whatever the second text is.
-/

namespace MusicLisp

/-! ### Moved errors -/

/-- **The error moved** `n` bytes to the right. -/
def ReadError.shift (n : Nat) : ReadError → ReadError
  | unexpectedToken found expected => unexpectedToken (found.shift n) expected
  | unexpectedEnd expected span => unexpectedEnd expected (span.shift n)
  | oddMap span => oddMap (span.shift n)
  | scan error => scan (error.shift n)

/-- The open bracket moved `n` bytes to the right. -/
def OpenBracket.shift (n : Nat) (o : OpenBracket) : OpenBracket := { o with start := o.start.shift n }

namespace Brackets

/-- What tokens do to the open brackets, moved `n` bytes to the right. -/
def shiftRun (n : Nat) : Except ReadError (List OpenBracket) → Except ReadError (List OpenBracket)
  | .ok opens => .ok (opens.map (OpenBracket.shift n))
  | .error e => .error (e.shift n)

theorem passed_shift (n : Nat) (opens : List OpenBracket) :
    passed (opens.map (OpenBracket.shift n)) = (passed opens).map (OpenBracket.shift n) := by
  cases opens with
  | nil => rfl
  | cons o outer => rfl

theorem step_shift (n : Nat) (opens : List OpenBracket) (t : Token) :
    step (opens.map (OpenBracket.shift n)) (t.shift n) = shiftRun n (step opens t) := by
  have hodd : ∀ {b start outer}, t.kind = .closing b ∨ t.kind = .endOfInput →
      step ((⟨b, start, true⟩ :: outer).map (OpenBracket.shift n)) (t.shift n) =
        shiftRun n (step (⟨b, start, true⟩ :: outer) t) := by
    intro b start outer h
    rw [step_odd h, shiftRun, ReadError.shift, Span.shift_merge]
    exact step_odd h
  cases hk : t.kind with
  | opening b =>
    rw [step_opening hk]
    exact step_opening hk
  | atom a =>
    rw [step_atom hk, shiftRun, ← passed_shift]
    exact step_atom hk
  | closing c =>
    cases opens with
    | nil =>
      rw [step_closing_nil hk]
      exact step_closing_nil hk
    | cons o outer =>
      obtain ⟨b, start, awaits⟩ := o
      by_cases hc : c = b
      · subst hc
        cases awaits with
        | true => exact hodd (.inl hk)
        | false =>
          rw [step_closing hk, shiftRun, ← passed_shift]
          exact step_closing hk
      · rw [step_other hk hc]
        exact step_other hk hc
  | endOfInput =>
    cases opens with
    | nil =>
      rw [step_end_nil hk]
      exact step_end_nil hk
    | cons o outer =>
      obtain ⟨b, start, awaits⟩ := o
      cases awaits with
      | true => exact hodd (.inr hk)
      | false =>
        rw [step_end hk]
        exact step_end hk

/-- **Moved tokens** do to moved brackets what the tokens do to the brackets, further to the right. -/
theorem run_shift (n : Nat) (opens : List OpenBracket) (ts : List Token) :
    run (opens.map (OpenBracket.shift n)) (ts.map (Token.shift n)) = shiftRun n (run opens ts) := by
  induction ts generalizing opens with
  | nil => rfl
  | cons t ts ih =>
    have hstep := step_shift n opens t
    rw [List.map_cons]
    cases h : step opens t with
    | error e =>
      rw [h] at hstep
      rw [run_cons_error hstep, run_cons_error h]
      rfl
    | ok opens' =>
      rw [h] at hstep
      rw [run_cons hstep, run_cons h, ih]

end Brackets

/-! ### Two sources -/

/-- **What is wrong with the second text** is wrong with both, further to the right. -/
theorem readForms_join_error {a b : String} {forms : List Form} {e : ReadError} (ha : readForms a = .ok forms)
    (hb : readForms b = .error e) : readForms (a ++ "\n" ++ b) = .error (e.shift (a.utf8ByteSize + 1)) := by
  obtain ⟨ts, hts, hspells⟩ := readForms_ok_iff.mp ha
  cases htokens : tokenize b with
  | error scan =>
    obtain ⟨ts', heq, hjoin⟩ := tokenize_join hts
    cases (readForms_scan_error htokens).symm.trans hb
    refine readForms_scan_error ?_
    rw [hjoin b, htokens]
    rfl
  | ok tokens =>
    obtain ⟨us, rfl, -⟩ := tokenize_places htokens
    have hrun := run_eq_readForms htokens
    have hjoin := run_eq_readForms (tokenize_join_ok hts htokens)
    have hshift := Brackets.run_shift (a.utf8ByteSize + 1) [] (us ++ [⟨.endOfInput, .point b.utf8ByteSize⟩])
    -- the first text leaves no bracket open
    rw [List.append_assoc, hspells.run rfl] at hjoin
    rw [hrun, hb, List.map_append, List.map_singleton, shift_mark, List.map_nil, hjoin] at hshift
    cases hboth : readForms (a ++ "\n" ++ b) with
    | error e' =>
      rw [hboth] at hshift
      cases hshift
      rfl
    | ok forms' =>
      rw [hboth] at hshift
      cases hshift

/-- **Reading goes on across a line break.** Where the first text can be cut into tokens, both together are its tokens
without the mark and then those of the second text, moved to where it stands; where the first text can be read, both
together are its forms and then those of the second text, moved. If the second text cannot be cut into tokens, or not
be read, then both together cannot, and the error is that of the second text, moved. -/
theorem reads_across_break (a b : String) :
    (∀ tokens, tokenize a = .ok tokens → ∃ ts, tokens = ts ++ [⟨.endOfInput, .point a.utf8ByteSize⟩] ∧
      tokenize (a ++ "\n" ++ b) =
        match tokenize b with
        | .ok tokens' => .ok (ts ++ tokens'.map (Token.shift (a.utf8ByteSize + 1)))
        | .error e => .error (e.shift (a.utf8ByteSize + 1))) ∧
    ∀ forms, readForms a = .ok forms → readForms (a ++ "\n" ++ b) =
      match readForms b with
      | .ok forms' => .ok (forms ++ forms'.map (Form.shift (a.utf8ByteSize + 1)))
      | .error e => .error (e.shift (a.utf8ByteSize + 1)) := by
  refine ⟨fun tokens ha => ?_, fun forms ha => ?_⟩
  · obtain ⟨ts, hts, hjoin⟩ := tokenize_join ha
    refine ⟨ts, hts, ?_⟩
    rw [hjoin b]
    cases tokenize b with
    | ok tokens' => rfl
    | error e => rfl
  · cases hb : readForms b with
    | ok forms' => exact readForms_join ha hb
    | error e => exact readForms_join_error ha hb

/-- A comment ends at the line break, and the map after it, broken off at a key, is blamed where it stands. -/
theorem reads_across_break_comment : readForms ("(f) ;é" ++ "\n" ++ "x \x7b:a") = .error (.oddMap ⟨10, 13⟩) := by
  have ha : readForms "(f) ;é" = .ok [.list ⟨0, 3⟩ [.atom ⟨1, 2⟩ (.symbol "f")]] := by cbv
  have hb : readForms "x \x7b:a" = .error (.oddMap ⟨2, 5⟩) := by cbv
  have hboth := (reads_across_break "(f) ;é" "x \x7b:a").2 _ ha
  rw [hb] at hboth
  exact hboth

end MusicLisp
