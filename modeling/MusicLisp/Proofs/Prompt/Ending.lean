import MusicLisp.Proofs.Form.Blanks
import MusicLisp.Proofs.Form.LineBreak
import MusicLisp.Proofs.Prompt.Completion

/-!
# Where input ends

Input with which nothing is wrong ends inside a string, or inside brackets; if these are none, it can be read.

* `EndsIn`: the input ends inside the brackets. `endsIn_nil_iff` and `isOpen_iff` say what can be read and what is open
  in terms of it; `KeyAwaits` is the case between, in which the prompt does not read on and reading fails.
* `endsIn_of_append`, `isOpen_of_append`: blanks at the end make no difference.
* `EndsIn.after_break`: after a line break, brackets are open as if the text before, which can be read, were not there.
* `exists_forms_of_closed`, `exists_forms_behind`: **closed input of a text that can be read** can be read by itself,
  and so can what comes after it.
-/

namespace MusicLisp.Prompt

/-- **The input ends inside the brackets,** the innermost first, and nothing is wrong before. -/
def EndsIn (input : String) (opens : List OpenBracket) : Prop :=
  ∃ ts, tokenize input = .ok (ts ++ [⟨.endOfInput, .point input.utf8ByteSize⟩]) ∧ Brackets.run [] ts = .ok opens

/-- The input ends in a map, after a key that has no value yet. -/
def KeyAwaits (input : String) : Prop := ∃ o outer, EndsIn input (o :: outer) ∧ o.awaits = true

section

variable {input : String}

/-- What ends inside no bracket can be read. -/
theorem endsIn_nil_iff : EndsIn input [] ↔ ∃ forms, readForms input = .ok forms := by
  constructor
  · rintro ⟨ts, hts, hrun⟩
    have hread := run_eq_readForms hts
    rw [Brackets.run_append, hrun] at hread
    cases h : readForms input with
    | ok forms => exact ⟨forms, rfl⟩
    | error e =>
      rw [h] at hread
      cases hread
  · rintro ⟨forms, hforms⟩
    obtain ⟨ts, hts, hspells⟩ := readForms_ok_iff.mp hforms
    have hrun : Brackets.run [] (ts ++ []) = .ok [] := hspells.run rfl []
    rw [List.append_nil] at hrun
    exact ⟨ts, hts, hrun⟩

/-- Reading fails at the end of what ends inside brackets in which no key awaits its value. -/
theorem readForms_of_endsIn {o : OpenBracket} {outer : List OpenBracket} (h : EndsIn input (o :: outer))
    (ho : o.awaits = false) :
    readForms input = .error (.unexpectedEnd o.bracket.expected (.point input.utf8ByteSize)) := by
  obtain ⟨ts, hts, hrun⟩ := h
  cases hread : readForms input with
  | ok forms =>
    have hboth := run_eq_readForms hts
    obtain ⟨b, start, awaits⟩ := o
    obtain rfl : awaits = false := ho
    rw [Brackets.run_append, hrun, hread] at hboth
    have hend : Brackets.run (⟨b, start, false⟩ :: outer) [⟨.endOfInput, .point input.utf8ByteSize⟩] = .error _ :=
      Brackets.run_cons_error (Brackets.step_end rfl)
    cases hend.symm.trans hboth
  | error e =>
    obtain herror | ⟨o', outer', hok, hcases⟩ := readForms_error_cases hts hread
    · rw [hrun] at herror
      cases herror
    · rw [hrun] at hok
      cases hok
      obtain ⟨hawaits, -⟩ | ⟨-, rfl⟩ := hcases
      · rw [ho] at hawaits
        cases hawaits
      · rfl

section

variable {ts : List Token} (htokens : tokenize input = .ok (ts ++ [⟨.endOfInput, .point input.utf8ByteSize⟩]))
include htokens

/-- What is cut into tokens and cannot be read fails at a token that raises the error. -/
theorem exists_raisedBy {e : ReadError} (h : readForms input = .error e) :
    ∃ t, FailsAt (ts ++ [⟨.endOfInput, .point input.utf8ByteSize⟩]) t e ∧ e.RaisedBy t := by
  obtain ⟨ts', heq, hts, -⟩ := tokenize_places htokens
  obtain rfl := List.append_cancel_right heq
  rw [readForms, htokens] at h
  obtain ⟨t, hfails⟩ := exists_failsAt rfl hts h
  obtain ⟨before, rest, opens, -, -, hfault⟩ := (failsAt_iff_fault rfl hts).mp hfails
  exact ⟨t, hfails, hfault.raisedBy⟩

/-- Only at its end does reading miss the end of a form. -/
theorem endsIn_of_unexpectedEnd {expected : String} {span : Span}
    (h : readForms input = .error (.unexpectedEnd expected span)) :
    ∃ o outer, EndsIn input (o :: outer) ∧ o.awaits = false := by
  obtain ⟨ts', heq, hts, -⟩ := tokenize_places htokens
  obtain rfl := List.append_cancel_right heq
  obtain ⟨t, hfails, -, hend⟩ := exists_raisedBy htokens h
  obtain ⟨opens, hopens⟩ := (hfails.at_mark_iff rfl hts).mp hend
  obtain herror | ⟨o, outer, hok, ⟨-, hodd⟩ | ⟨ho, -⟩⟩ := readForms_error_cases htokens h
  · rw [hopens] at herror
    cases herror
  · cases hodd
  · exact ⟨o, outer, ⟨ts, htokens, hok⟩, ho⟩

end

/-- **Input is open** if it ends inside a string, or inside a bracket in which no key awaits its value. -/
theorem isOpen_iff : isOpen input = true ↔ (∃ e, tokenize input = .error e ∧ e.cause = .unterminatedString) ∨
    ∃ o outer, EndsIn input (o :: outer) ∧ o.awaits = false := by
  constructor
  · intro h
    cases htokens : tokenize input with
    | error scan =>
      obtain ⟨cause, span⟩ := scan
      unfold isOpen at h
      rw [readForms_scan_error htokens] at h
      cases cause with
      | unterminatedString => exact .inl ⟨_, rfl, rfl⟩
      | unexpectedCharacter | invalidNumber | invalidToken => cases h
    | ok tokens =>
      obtain ⟨ts, rfl, -⟩ := tokenize_join htokens
      unfold isOpen at h
      split at h
      · next hread => exact .inr (endsIn_of_unexpectedEnd htokens hread)
      · next hread =>
        obtain ⟨t, -, hnone⟩ := exists_raisedBy htokens hread
        exact hnone.elim
      · cases h
  · rintro (⟨⟨cause, span⟩, htokens, rfl⟩ | ⟨o, outer, hends, ho⟩)
    · unfold isOpen
      rw [readForms_scan_error htokens]
    · unfold isOpen
      rw [readForms_of_endsIn hends ho]

/-- **Where a key awaits its value,** the input is closed, and it cannot be read. -/
theorem KeyAwaits.closed (h : KeyAwaits input) : isOpen input = false ∧ ∀ forms, readForms input ≠ .ok forms := by
  obtain ⟨o, outer, ⟨ts, hts, hrun⟩, ho⟩ := h
  have hends {opens : List OpenBracket} (h : EndsIn input opens) : opens = o :: outer := by
    obtain ⟨ts', hts', hrun'⟩ := h
    obtain rfl := List.append_cancel_right (Except.ok.inj (hts.symm.trans hts'))
    exact Except.ok.inj (hrun'.symm.trans hrun)
  refine ⟨Bool.eq_false_iff.mpr fun hopen => ?_, fun forms hforms => ?_⟩
  · obtain ⟨e, herror, -⟩ | ⟨o', outer', h, ho'⟩ := isOpen_iff.mp hopen
    · cases hts.symm.trans herror
    · obtain ⟨rfl, -⟩ := List.cons.inj (hends h)
      rw [ho] at ho'
      cases ho'
  · cases hends (endsIn_nil_iff.mpr ⟨forms, hforms⟩)

/-- Whether a key at the end awaits its value, told by the scan and the open brackets. -/
def endsAtKey (input : String) : Bool :=
  match tokenize input with
  | .error _ => false
  | .ok tokens =>
    match Brackets.run [] tokens.dropLast with
    | .ok (o :: _) => o.awaits
    | _ => false

theorem keyAwaits_iff : KeyAwaits input ↔ endsAtKey input = true := by
  unfold endsAtKey
  cases htokens : tokenize input with
  | error e =>
    refine iff_of_false ?_ Bool.false_ne_true
    rintro ⟨o, outer, ⟨ts, hts, -⟩, -⟩
    cases htokens.symm.trans hts
  | ok tokens =>
    obtain ⟨ts, rfl, -⟩ := tokenize_join htokens
    dsimp only
    rw [List.dropLast_concat]
    constructor
    · rintro ⟨o, outer, ⟨ts', hts, hrun⟩, ho⟩
      obtain rfl := List.append_cancel_right (Except.ok.inj (htokens.symm.trans hts))
      rw [hrun]
      exact ho
    · intro h
      split at h
      · next o outer hrun => exact ⟨o, outer, ⟨ts, htokens, hrun⟩, h⟩
      · cases h

instance (input : String) : Decidable (KeyAwaits input) := decidable_of_iff _ keyAwaits_iff.symm

end

/-! ### Blanks at the end -/

section

variable {a ws : String} {opens : List OpenBracket}

/-- Blanks at its end do not change where a text ends. -/
theorem endsIn_of_append (hws : ∀ c ∈ ws.toList, Text.isBlank c = true) (h : EndsIn (a ++ ws) opens) :
    EndsIn a opens := by
  obtain ⟨ts, hts, hrun⟩ := h
  obtain ⟨ts', heq, ha⟩ := tokenize_of_append hws hts
  obtain rfl := List.append_cancel_right heq
  exact ⟨ts, ha, hrun⟩

/-- What is open with blanks at its end is open without. -/
theorem isOpen_of_append (hws : ∀ c ∈ ws.toList, Lexeme.isBlank c = true) (h : isOpen (a ++ ws) = true) :
    isOpen a = true := by
  have hblank : ∀ c ∈ ws.toList, Text.isBlank c = true := fun c hc => Text.isBlank_of_known (hws c hc)
  obtain ⟨e, htokens, hcause⟩ | ⟨o, outer, hends, ho⟩ := isOpen_iff.mp h
  · cases ha : tokenize a with
    | ok tokens =>
      obtain ⟨ts, rfl, -⟩ := tokenize_join ha
      cases (tokenize_append hws ha).symm.trans htokens
    | error e' =>
      obtain ⟨span, herror⟩ := tokenize_append_error hblank ha
      obtain rfl := Except.error.inj (herror.symm.trans htokens)
      exact isOpen_iff.mpr (.inl ⟨e', ha, hcause⟩)
  · exact isOpen_iff.mpr (.inr ⟨o, outer, endsIn_of_append hblank hends, ho⟩)

/-- What is open cannot be read with blanks at its end. -/
theorem not_reads_of_isOpen (hopen : isOpen a = true) (hws : ∀ c ∈ ws.toList, Text.isBlank c = true)
    (forms : List Form) : readForms (a ++ ws) ≠ .ok forms := by
  intro h
  unfold isOpen at hopen
  rw [readForms_of_append hws h] at hopen
  cases hopen

end

/-! ### Line breaks -/

section

variable {a b : String}

/-- **After a line break**, brackets are open as if the text before, which can be read, were not there. -/
theorem EndsIn.after_break {forms : List Form} {opens : List OpenBracket} (ha : readForms a = .ok forms)
    (hb : EndsIn b opens) : EndsIn (a ++ "\n" ++ b) (opens.map (OpenBracket.shift (a.utf8ByteSize + 1))) := by
  obtain ⟨ts, hts, hspells⟩ := readForms_ok_iff.mp ha
  obtain ⟨us, hus, hrun⟩ := hb
  refine ⟨_, tokenize_join_ok hts hus, ?_⟩
  have hshift := Brackets.run_shift (a.utf8ByteSize + 1) [] us
  rw [hrun] at hshift
  rw [hspells.run rfl]
  exact hshift

theorem KeyAwaits.after_break {forms : List Form} (ha : readForms a = .ok forms) (hb : KeyAwaits b) :
    KeyAwaits (a ++ "\n" ++ b) := by
  obtain ⟨o, outer, hends, ho⟩ := hb
  exact ⟨o.shift _, _, hends.after_break ha, ho⟩

/-- **Closed input** of a text that can be read can be read by itself, if no key at its end awaits its value. -/
theorem exists_forms_of_closed (h : Completes a b) (hclosed : isOpen a = false) (hkey : ¬ KeyAwaits a) :
    ∃ forms, readForms a = .ok forms := by
  have hnot : ¬ isOpen a = true := Bool.eq_false_iff.mp hclosed
  cases ha : tokenize a with
  | error e => exact absurd (isOpen_iff.mpr (.inl ⟨e, ha, cause_of_completes h ha⟩)) hnot
  | ok tokens =>
    obtain ⟨ts, rfl, -⟩ := tokenize_join ha
    obtain ⟨opens, hopens⟩ := run_of_completes h ha
    cases opens with
    | nil => exact endsIn_nil_iff.mp ⟨ts, ha, hopens⟩
    | cons o outer =>
      cases ho : o.awaits with
      | true => exact absurd ⟨o, outer, ⟨ts, ha, hopens⟩, ho⟩ hkey
      | false => exact absurd (isOpen_iff.mpr (.inr ⟨o, outer, ⟨ts, ha, hopens⟩, ho⟩)) hnot

/-- **What comes after a text that can be read** can be read by itself if both together can. -/
theorem exists_forms_behind {forms both : List Form} (ha : readForms a = .ok forms)
    (h : readForms (a ++ "\n" ++ b) = .ok both) : ∃ forms', readForms b = .ok forms' ∧
      both = forms ++ forms'.map (Form.shift (a.utf8ByteSize + 1)) := by
  cases hb : readForms b with
  | ok forms' => exact ⟨forms', rfl, Except.ok.inj (h.symm.trans (readForms_join ha hb))⟩
  | error e => cases h.symm.trans (readForms_join_error ha hb)

end

end MusicLisp.Prompt
