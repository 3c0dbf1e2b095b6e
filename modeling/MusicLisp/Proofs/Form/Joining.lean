import MusicLisp.Proofs.Form.Reading
import MusicLisp.Proofs.Token.Joining

/-!
# Reading across a line break

The forms of two texts with a line break between are those of the first and then those of the second, moved to
where the second text stands.

* `Form.shift`: a form with all its spans moved to the right. Moved tokens spell the moved form.
* `readForms_ok_iff`: a source reads as the forms that its tokens spell.
* `readForms_join`: **the forms of two texts with a line break between.**
-/

namespace MusicLisp

namespace Form

/-! ### Moved forms -/

mutual

/-- **The form moved** `n` bytes to the right. -/
def shift (n : Nat) : Form → Form
  | atom span a => atom (span.shift n) a
  | list span items => list (span.shift n) (shifts n items)
  | vector span items => vector (span.shift n) (shifts n items)
  | map span entries => map (span.shift n) (entryShifts n entries)

/-- The forms of a list moved `n` bytes to the right. -/
def shifts (n : Nat) : List Form → List Form
  | [] => []
  | form :: rest => shift n form :: shifts n rest

/-- The keys and values of a map moved `n` bytes to the right. -/
def entryShifts (n : Nat) : List (Form × Form) → List (Form × Form)
  | [] => []
  | (key, value) :: rest => (shift n key, shift n value) :: entryShifts n rest

end

theorem shifts_eq_map (n : Nat) (forms : List Form) : shifts n forms = forms.map (shift n) := by
  induction forms with
  | nil => rfl
  | cons form rest ih => rw [shifts, ih]; rfl

theorem entryShifts_eq_map (n : Nat) (entries : List (Form × Form)) :
    entryShifts n entries = entries.map (Prod.map (shift n) (shift n)) := by
  induction entries with
  | nil => rfl
  | cons entry rest ih => rw [entryShifts, ih]; rfl

theorem Bracketed.shift {b : Bracket} {span : Span} {inner inner' : List Token → Prop} {p : List Token}
    (h : Bracketed b span inner p) (n : Nat) (hinner : ∀ q, inner q → inner' (q.map (Token.shift n))) :
    Bracketed b (span.shift n) inner' (p.map (Token.shift n)) := by
  obtain ⟨o, q, c, rfl, ho, hc, rfl, hq⟩ := h
  refine ⟨o.shift n, q.map (Token.shift n), c.shift n, ?_, ho, hc, Span.shift_merge n _ _, hinner q hq⟩
  rw [List.map_cons, List.map_append, List.map_singleton]

mutual

/-- **Moved tokens spell the moved form.** -/
theorem Spells.shift (n : Nat) : ∀ {form : Form} {p : List Token}, form.Spells p →
    (form.shift n).Spells (p.map (Token.shift n))
  | atom _ _, _, h => by
    obtain ⟨t, rfl, ht, rfl⟩ := h
    exact ⟨t.shift n, rfl, ht, rfl⟩
  | list _ _, _, h => Bracketed.shift h n fun _ hq => SpellsAll.shift n hq
  | vector _ _, _, h => Bracketed.shift h n fun _ hq => SpellsAll.shift n hq
  | map _ _, _, h => Bracketed.shift h n fun _ hq => SpellsEntries.shift n hq

theorem SpellsAll.shift (n : Nat) : ∀ {forms : List Form} {p : List Token}, SpellsAll forms p →
    SpellsAll (shifts n forms) (p.map (Token.shift n))
  | [], _, h => by cases h; rfl
  | form :: rest, _, h => by
    obtain ⟨q, r, rfl, hq, hr⟩ := h
    exact ⟨_, _, List.map_append, Spells.shift n hq, SpellsAll.shift n hr⟩

theorem SpellsEntries.shift (n : Nat) : ∀ {entries : List (Form × Form)} {p : List Token},
    SpellsEntries entries p → SpellsEntries (entryShifts n entries) (p.map (Token.shift n))
  | [], _, h => by cases h; rfl
  | (key, value) :: rest, _, h => by
    obtain ⟨q, r, u, rfl, hq, hr, hu⟩ := h
    exact ⟨_, _, _, by rw [List.map_append, List.map_append], Spells.shift n hq, Spells.shift n hr,
      SpellsEntries.shift n hu⟩

end

theorem SpellsAll.append : ∀ {forms forms' : List Form} {p p' : List Token}, SpellsAll forms p →
    SpellsAll forms' p' → SpellsAll (forms ++ forms') (p ++ p')
  | [], _, _, _, h, h' => by cases h; exact h'
  | form :: rest, _, _, _, h, h' => by
    obtain ⟨q, r, rfl, hq, hr⟩ := h
    exact ⟨q, r ++ _, List.append_assoc q r _, hq, SpellsAll.append hr h'⟩

end Form

/-! ### Sources -/

/-- A source that cannot be cut into tokens cannot be read. -/
theorem readForms_scan_error {source : String} {e : ScanError} (h : tokenize source = .error e) :
    readForms source = .error (.scan e) := by
  unfold readForms
  rw [h]

/-- **A source reads as the forms that its tokens spell.** -/
theorem readForms_ok_iff {source : String} {forms : List Form} : readForms source = .ok forms ↔
    ∃ ts, tokenize source = .ok (ts ++ [⟨.endOfInput, .point source.utf8ByteSize⟩]) ∧
      Form.SpellsAll forms ts := by
  unfold readForms
  cases htokens : tokenize source with
  | error e =>
    constructor
    · exact fun h => nomatch h
    · exact fun ⟨_, h, _⟩ => nomatch h
  | ok tokens =>
    obtain ⟨-, ts, rfl, -, hts⟩ := tokenize_partition htokens
    dsimp only
    rw [TokenStream.ofTokens, TokenStream.readAll_iff rfl fun t ht => (hts t ht).1]
    constructor
    · exact fun h => ⟨ts, rfl, h⟩
    · rintro ⟨ts', h, hspells⟩
      injection h with h
      rwa [List.append_cancel_right h]

/-- **The forms of two texts with a line break between.** -/
theorem readForms_join {a b : String} {forms forms' : List Form} (ha : readForms a = .ok forms)
    (hb : readForms b = .ok forms') :
    readForms (a ++ "\n" ++ b) = .ok (forms ++ forms'.map (Form.shift (a.utf8ByteSize + 1))) := by
  obtain ⟨ts, hts, hspells⟩ := readForms_ok_iff.mp ha
  obtain ⟨us, hus, hspells'⟩ := readForms_ok_iff.mp hb
  refine readForms_ok_iff.mpr ⟨_, tokenize_join_ok hts hus, ?_⟩
  rw [← Form.shifts_eq_map]
  exact hspells.append (hspells'.shift _)

end MusicLisp
