import MusicLisp.Proofs.Form.Joining
import MusicLisp.Proofs.Token.Blanks

/-!
# Reading without the blanks around

Tokens of the same kinds are read as the same forms, up to spans. So a text that can be read is read as the same forms
when it is trimmed.

* `Form.bare_shift`: a moved form differs in its spans only.
* `readForms_of_kinds`: texts with tokens of the same kinds.
* `readForms_of_append`, `readForms_trim`: **texts with blanks at the end, or on both sides.**
-/

namespace MusicLisp

namespace Form

mutual

/-- **A moved form** differs in its spans only. -/
theorem bare_shift (n : Nat) : ∀ form : Form, (form.shift n).bare = form.bare
  | atom _ _ => rfl
  | list _ items => by rw [shift, bare, bare, bares_shifts n items]
  | vector _ items => by rw [shift, bare, bare, bares_shifts n items]
  | map _ entries => by rw [shift, bare, bare, entryBares_entryShifts n entries]

theorem bares_shifts (n : Nat) : ∀ forms : List Form, bares (shifts n forms) = bares forms
  | [] => rfl
  | form :: rest => by rw [shifts, bares, bares, bare_shift n form, bares_shifts n rest]

theorem entryBares_entryShifts (n : Nat) : ∀ entries : List (Form × Form),
    entryBares (entryShifts n entries) = entryBares entries
  | [] => rfl
  | (key, value) :: rest => by
    rw [entryShifts, entryBares, entryBares, bare_shift n key, bare_shift n value, entryBares_entryShifts n rest]

end

theorem map_bare_shift (n : Nat) (forms : List Form) : (forms.map (shift n)).map bare = forms.map bare := by
  rw [← shifts_eq_map, ← bares_eq_map, bares_shifts, bares_eq_map]

end Form

/-- **Texts with tokens of the same kinds** are read as the same forms, up to spans. -/
theorem readForms_of_kinds {a b : String} {ts us : List Token} {forms : List Form} (ha : tokenize a = .ok ts)
    (hb : tokenize b = .ok us) (hkinds : us.map Token.kind = ts.map Token.kind) (hread : readForms a = .ok forms) :
    ∃ forms', readForms b = .ok forms' ∧ forms'.map Form.bare = forms.map Form.bare := by
  obtain ⟨p, hp, hspells⟩ := readForms_ok_iff.mp hread
  obtain rfl := Except.ok.inj (ha.symm.trans hp)
  obtain ⟨q, rfl, -⟩ := tokenize_join hb
  rw [List.map_append, List.map_append] at hkinds
  obtain ⟨hkinds, -⟩ := List.append_inj' hkinds rfl
  obtain ⟨forms', hspells', hbares⟩ := Form.exists_spellsAll forms (hkinds.trans hspells.map_kind)
  refine ⟨forms', readForms_ok_iff.mpr ⟨q, hb, hspells'⟩, ?_⟩
  rw [← Form.bares_eq_map, ← Form.bares_eq_map, hbares]

/-- **A text with blanks at its end** is read as the text without. -/
theorem readForms_of_append {a ws : String} (hws : ∀ c ∈ ws.toList, Text.isBlank c = true) {forms : List Form}
    (h : readForms (a ++ ws) = .ok forms) : readForms a = .ok forms := by
  obtain ⟨ts, hts, hspells⟩ := readForms_ok_iff.mp h
  obtain ⟨ts', heq, ha⟩ := tokenize_of_append hws hts
  obtain rfl := List.append_cancel_right heq
  exact readForms_ok_iff.mpr ⟨ts, ha, hspells⟩

/-- **A trimmed text** is read as the same forms, up to spans. -/
theorem readForms_trim {source : String} {forms : List Form} (h : readForms source = .ok forms) :
    ∃ forms', readForms (String.ofList (Text.trim source.toList)) = .ok forms' ∧
      forms'.map Form.bare = forms.map Form.bare := by
  obtain ⟨ts, hts, -⟩ := readForms_ok_iff.mp h
  obtain ⟨us, hus, hkinds⟩ := tokenize_trim hts
  exact readForms_of_kinds hts hus hkinds h

end MusicLisp
