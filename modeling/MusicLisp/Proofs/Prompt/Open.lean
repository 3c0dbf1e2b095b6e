import MusicLisp.Prompt.Loop
import MusicLisp.Proofs.Form.Brackets
import MusicLisp.Proofs.Form.Joining

/-!
# Input that is still open

The prompt reads on while its input is open. Input is completed by a text if the two, with a line break between, can
be read. What can be completed is open, but for one place: where a map ends after a key, reading complains of the key
that has no value, at the end of the input as at a closing bracket, and the prompt takes the input as it is.

* `cause_of_completes`, `run_of_completes`: what can be completed can be cut into tokens, unless a string is open,
  and nothing is wrong with them.
* `isOpen_of_completes`: **input that can be completed is open, or a key at its end has no value.**
-/

namespace MusicLisp.Prompt

/-- The text completes the input to forms. -/
def Completes (input more : String) : Prop := ∃ forms, readForms (input ++ "\n" ++ more) = .ok forms

/-- What can be completed can be cut into tokens, unless a string is open. -/
theorem cause_of_completes {input more : String} (h : Completes input more) {e : ScanError}
    (he : tokenize input = .error e) : e.cause = .unterminatedString := by
  by_contra hopen
  obtain ⟨forms, hforms⟩ := h
  have htext : (input ++ "\n" ++ more).toList = input.toList ++ '\n' :: more.toList := by
    simp only [String.toList_append, List.append_assoc]
    rfl
  have htokens : tokenize (input ++ "\n" ++ more) = .error e := by
    rw [tokenize, htext]
    exact scanFrom_join_error 0 [] he hopen more.toList
  cases (readForms_scan_error htokens).symm.trans hforms

/-- Nothing is wrong with the tokens of what can be completed. -/
theorem run_of_completes {input more : String} (h : Completes input more) {ts : List Token}
    (hts : tokenize input = .ok (ts ++ [⟨.endOfInput, .point input.utf8ByteSize⟩])) :
    ∃ opens, Brackets.run [] ts = .ok opens := by
  obtain ⟨forms, hforms⟩ := h
  obtain ⟨ts', heq, hjoin⟩ := tokenize_join hts
  obtain rfl := List.append_cancel_right heq
  obtain ⟨us, htokens, hspells⟩ := readForms_ok_iff.mp hforms
  have hrun := hspells.run_mark ⟨.endOfInput, .point (input ++ "\n" ++ more).utf8ByteSize⟩ rfl
  cases hmore : tokenize more with
  | error scan =>
    rw [hjoin more, hmore] at htokens
    cases htokens
  | ok us' =>
    rw [hjoin more, hmore] at htokens
    injection htokens with heq
    rw [← heq] at hrun
    exact Brackets.exists_run_of_append hrun

/-- **Input that can be completed is open**, or a key at its end has no value. -/
theorem isOpen_of_completes {input more : String} {e : ReadError} (he : readForms input = .error e)
    (h : Completes input more) :
    isOpen input = true ∧ (∀ span, e ≠ .oddMap span) ∨
      isOpen input = false ∧ ∃ start < input.utf8ByteSize, e = .oddMap ⟨start, input.utf8ByteSize⟩ := by
  unfold isOpen
  rw [he]
  cases htokens : tokenize input with
  | error scan =>
    cases (readForms_scan_error htokens).symm.trans he
    obtain ⟨cause, span⟩ := scan
    obtain rfl : cause = .unterminatedString := cause_of_completes h htokens
    exact .inl ⟨rfl, by rintro span ⟨⟩⟩
  | ok tokens =>
    obtain ⟨ts, rfl, hts, hplaced⟩ := tokenize_places htokens
    obtain ⟨opens, hopens⟩ := run_of_completes h htokens
    have hinside := Brackets.run_inside [] (fun t ht => (hplaced t ht).inside) hts (List.forall_mem_nil _)
    rw [hopens] at hinside
    obtain herror | ⟨o, outer, hok, ⟨-, rfl⟩ | ⟨-, rfl⟩⟩ := readForms_error_cases htokens he
    · rw [hopens] at herror
      cases herror
    · rw [hopens] at hok
      cases hok
      have ho : o.start.Inside input.utf8ByteSize := hinside o List.mem_cons_self
      have hlt : o.start.start < input.utf8ByteSize := Nat.lt_of_lt_of_le ho.nonempty ho.bound
      refine .inr ⟨rfl, o.start.start, hlt, ?_⟩
      unfold Span.merge Span.point
      rw [Nat.min_eq_left (Nat.le_of_lt hlt), Nat.max_eq_right ho.bound]
    · exact .inl ⟨rfl, by rintro span ⟨⟩⟩

/-- A call with a vector inside, broken off in the vector, is open. -/
theorem isOpen_of_completes_vector : readForms "(f [x" = .error (.unexpectedEnd "']'" ⟨5, 5⟩) ∧
    Completes "(f [x" "])" ∧ isOpen "(f [x" = true := by
  have he : readForms "(f [x" = .error (.unexpectedEnd "']'" ⟨5, 5⟩) := by cbv
  have hforms : readForms ("(f [x" ++ "\n" ++ "])") = .ok [.list ⟨0, 8⟩
      [.atom ⟨1, 2⟩ (.symbol "f"), .vector ⟨3, 7⟩ [.atom ⟨4, 5⟩ (.symbol "x")]]] := by
    cbv
  obtain ⟨hopen, -⟩ | ⟨-, start, -, hodd⟩ := isOpen_of_completes he ⟨_, hforms⟩
  · exact ⟨he, ⟨_, hforms⟩, hopen⟩
  · cases hodd

/-- **A map broken off after a key** can be completed, and is not open. -/
theorem not_isOpen_of_completes : ∃ input more e, readForms input = .error e ∧ Completes input more ∧
    isOpen input = false := by
  have he : readForms "\x7b:a" = .error (.oddMap ⟨0, 3⟩) := by cbv
  have hforms : readForms ("\x7b:a" ++ "\n" ++ ":b\x7d") = .ok [.map ⟨0, 7⟩
      [(.atom ⟨1, 3⟩ (.keyword "a"), .atom ⟨4, 6⟩ (.keyword "b"))]] := by
    cbv
  refine ⟨_, _, _, he, ⟨_, hforms⟩, ?_⟩
  unfold isOpen
  rw [he]

end MusicLisp.Prompt
