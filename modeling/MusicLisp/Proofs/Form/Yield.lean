import MusicLisp.Form

/-!
# The tokens of a form

The grammar of forms, in two readings.

* `Form.yield`: the kinds of the tokens that a form is written with: an atom is its token, and a list,
  a vector or a map is its opening bracket, the tokens of what is inside in order, keys and values in
  turns, and its closing bracket.
* `Form.Spells`: the form is what these very tokens are written for, spans included: an atom has the span
  of its token, and a bracketed form the least span that covers both its brackets.

`Form.bare` forgets the spans of a form. Tokens of the right kinds spell a form with just the spans they
determine (`exists_spells`), so the yield says all about a form but its spans.
-/

namespace MusicLisp

/-- A form can start with a token of the kind. -/
def TokenKind.Starts : TokenKind → Prop
  | .opening _ => True
  | .atom _ => True
  | _ => False

namespace Form

/-! ### Yields -/

mutual

/-- **The kinds of the tokens of a form.** -/
def yield : Form → List TokenKind
  | atom _ a => [.atom a]
  | list _ items => .opening .round :: (yields items ++ [.closing .round])
  | vector _ items => .opening .square :: (yields items ++ [.closing .square])
  | map _ entries => .opening .curly :: (entryYields entries ++ [.closing .curly])

/-- The kinds of the tokens of forms one after the other. -/
def yields : List Form → List TokenKind
  | [] => []
  | form :: rest => yield form ++ yields rest

/-- The kinds of the tokens of entries, each key before its value. -/
def entryYields : List (Form × Form) → List TokenKind
  | [] => []
  | (key, value) :: rest => yield key ++ (yield value ++ entryYields rest)

end

theorem yields_eq_flatMap (forms : List Form) : yields forms = forms.flatMap yield := by
  induction forms with
  | nil => rfl
  | cons form rest ih => rw [yields, ih]; rfl

mutual

/-- No form is written with the mark at the end of the source. -/
theorem endOfInput_not_mem_yield : ∀ form : Form, .endOfInput ∉ form.yield
  | atom _ _ => by simp [yield]
  | list _ items => by simp [yield, endOfInput_not_mem_yields items]
  | vector _ items => by simp [yield, endOfInput_not_mem_yields items]
  | map _ entries => by simp [yield, endOfInput_not_mem_entryYields entries]

theorem endOfInput_not_mem_yields : ∀ forms : List Form, .endOfInput ∉ yields forms
  | [] => by simp [yields]
  | form :: rest => by
    simp [yields, endOfInput_not_mem_yield form, endOfInput_not_mem_yields rest]

theorem endOfInput_not_mem_entryYields : ∀ entries : List (Form × Form),
    .endOfInput ∉ entryYields entries
  | [] => by simp [entryYields]
  | (key, value) :: rest => by
    simp [entryYields, endOfInput_not_mem_yield key, endOfInput_not_mem_yield value,
      endOfInput_not_mem_entryYields rest]

end

/-- Tokens of the kinds of yields are before the mark at the end of the source. -/
theorem ne_endOfInput_of_map_kind {forms : List Form} {ts : List Token}
    (h : ts.map Token.kind = yields forms) : ∀ t ∈ ts, t.kind ≠ .endOfInput := by
  intro t ht hk
  have hmem : t.kind ∈ ts.map Token.kind := List.mem_map_of_mem ht
  rw [h, hk] at hmem
  exact endOfInput_not_mem_yields forms hmem

/-! ### Forms without spans -/

mutual

/-- The form with all its spans forgotten. -/
def bare : Form → Form
  | atom _ a => atom (.point 0) a
  | list _ items => list (.point 0) (bares items)
  | vector _ items => vector (.point 0) (bares items)
  | map _ entries => map (.point 0) (entryBares entries)

/-- The forms of a list with their spans forgotten. -/
def bares : List Form → List Form
  | [] => []
  | form :: rest => bare form :: bares rest

/-- The keys and values of a map with their spans forgotten. -/
def entryBares : List (Form × Form) → List (Form × Form)
  | [] => []
  | (key, value) :: rest => (bare key, bare value) :: entryBares rest

end

theorem bares_eq_map (forms : List Form) : bares forms = forms.map bare := by
  induction forms with
  | nil => rfl
  | cons form rest ih => rw [bares, ih]; rfl

theorem entryBares_eq_map (entries : List (Form × Form)) :
    entryBares entries = entries.map fun entry => (entry.1.bare, entry.2.bare) := by
  induction entries with
  | nil => rfl
  | cons entry rest ih => rw [entryBares, ih, List.map_cons]

mutual

theorem yield_bare : ∀ form : Form, form.bare.yield = form.yield
  | atom _ _ => rfl
  | list _ items => by simp only [bare, yield, yields_bares items]
  | vector _ items => by simp only [bare, yield, yields_bares items]
  | map _ entries => by simp only [bare, yield, entryYields_entryBares entries]

theorem yields_bares : ∀ forms : List Form, yields (bares forms) = yields forms
  | [] => rfl
  | form :: rest => by simp only [bares, yields, yield_bare form, yields_bares rest]

theorem entryYields_entryBares : ∀ entries : List (Form × Form),
    entryYields (entryBares entries) = entryYields entries
  | [] => rfl
  | (key, value) :: rest => by
    simp only [entryBares, entryYields, yield_bare key, yield_bare value,
      entryYields_entryBares rest]

end

/-! ### Spelling -/

/-- The tokens `p` are a pair of brackets around tokens with a property, and `span` covers the brackets. -/
def Bracketed (b : Bracket) (span : Span) (inner : List Token → Prop) (p : List Token) : Prop :=
  ∃ o q c, p = o :: (q ++ [c]) ∧ o.kind = .opening b ∧ c.kind = .closing b ∧
    span = o.span.merge c.span ∧ inner q

mutual

/-- **The tokens spell the form**, spans included. -/
def Spells : Form → List Token → Prop
  | atom span a, p => ∃ t, p = [t] ∧ t.kind = .atom a ∧ span = t.span
  | list span items, p => Bracketed .round span (fun q => SpellsAll items q) p
  | vector span items, p => Bracketed .square span (fun q => SpellsAll items q) p
  | map span entries, p => Bracketed .curly span (fun q => SpellsEntries entries q) p

/-- The tokens spell the forms one after the other. -/
def SpellsAll : List Form → List Token → Prop
  | [], p => p = []
  | form :: rest, p => ∃ q r, p = q ++ r ∧ Spells form q ∧ SpellsAll rest r

/-- The tokens spell the entries, each key before its value. -/
def SpellsEntries : List (Form × Form) → List Token → Prop
  | [], p => p = []
  | (key, value) :: rest, p =>
    ∃ q r u, p = q ++ (r ++ u) ∧ Spells key q ∧ Spells value r ∧ SpellsEntries rest u

end

/-- A form is spelled by at least one token, and it opens a bracket or is an atom. -/
theorem Spells.exists_cons : ∀ {form : Form} {p : List Token}, form.Spells p →
    ∃ t q, p = t :: q ∧ t.kind.Starts
  | atom _ _, _, ⟨t, hp, ht, _⟩ => ⟨t, [], hp, by rw [ht]; trivial⟩
  | list _ _, _, ⟨o, q, c, hp, ho, _⟩ => ⟨o, q ++ [c], hp, by rw [ho]; trivial⟩
  | vector _ _, _, ⟨o, q, c, hp, ho, _⟩ => ⟨o, q ++ [c], hp, by rw [ho]; trivial⟩
  | map _ _, _, ⟨o, q, c, hp, ho, _⟩ => ⟨o, q ++ [c], hp, by rw [ho]; trivial⟩

theorem Bracketed.map_kind {b : Bracket} {span : Span} {inner : List Token → Prop} {p : List Token}
    (h : Bracketed b span inner p) {kinds : List TokenKind}
    (hinner : ∀ q, inner q → q.map Token.kind = kinds) :
    p.map Token.kind = .opening b :: (kinds ++ [.closing b]) := by
  obtain ⟨o, q, c, rfl, ho, hc, -, hq⟩ := h
  rw [List.map_cons, List.map_append, hinner q hq, List.map_singleton, ho, hc]

mutual

/-- Tokens that spell a form are of the kinds of its yield. -/
theorem Spells.map_kind : ∀ {form : Form} {p : List Token}, form.Spells p →
    p.map Token.kind = form.yield
  | atom _ _, _, h => by
    obtain ⟨t, rfl, ht, -⟩ := h
    rw [List.map_singleton, ht]; rfl
  | list _ items, _, h => Bracketed.map_kind h fun _ hq => SpellsAll.map_kind hq
  | vector _ items, _, h => Bracketed.map_kind h fun _ hq => SpellsAll.map_kind hq
  | map _ entries, _, h =>
    Bracketed.map_kind h fun _ hq => SpellsEntries.map_kind hq

theorem SpellsAll.map_kind : ∀ {forms : List Form} {p : List Token}, SpellsAll forms p →
    p.map Token.kind = yields forms
  | [], _, h => by cases h; rfl
  | form :: rest, _, h => by
    obtain ⟨q, r, rfl, hq, hr⟩ := h
    rw [List.map_append, Spells.map_kind hq, SpellsAll.map_kind hr]; rfl

theorem SpellsEntries.map_kind : ∀ {entries : List (Form × Form)} {p : List Token},
    SpellsEntries entries p → p.map Token.kind = entryYields entries
  | [], _, h => by cases h; rfl
  | (key, value) :: rest, _, h => by
    obtain ⟨q, r, u, rfl, hq, hr, hu⟩ := h
    rw [List.map_append, List.map_append, Spells.map_kind hq, Spells.map_kind hr,
      SpellsEntries.map_kind hu]
    rfl

end

theorem exists_bracketed {b : Bracket} {kinds : List TokenKind} {p : List Token}
    (h : p.map Token.kind = .opening b :: (kinds ++ [.closing b])) :
    ∃ span q, q.map Token.kind = kinds ∧
      ∀ inner : List Token → Prop, inner q → Bracketed b span inner p := by
  obtain ⟨o, r, rfl, ho, hr⟩ := List.map_eq_cons_iff.mp h
  obtain ⟨q, u, rfl, hq, hu⟩ := List.map_eq_append_iff.mp hr
  obtain ⟨c, rfl, hc⟩ := List.map_eq_singleton_iff.mp hu
  exact ⟨o.span.merge c.span, q, hq, fun inner hi => ⟨o, q, c, rfl, ho, hc, rfl, hi⟩⟩

mutual

/-- **Tokens of the kinds of a yield spell a form** that differs from the given one in spans at most. -/
theorem exists_spells : ∀ (form : Form) {p : List Token}, p.map Token.kind = form.yield →
    ∃ form', Spells form' p ∧ form'.bare = form.bare
  | atom _ a, _, h => by
    obtain ⟨t, rfl, ht⟩ := List.map_eq_singleton_iff.mp h
    exact ⟨atom t.span a, ⟨t, rfl, ht, rfl⟩, rfl⟩
  | list _ items, _, h => by
    obtain ⟨span, q, hq, hb⟩ := exists_bracketed h
    obtain ⟨items', hs, he⟩ := exists_spellsAll items hq
    exact ⟨list span items', hb _ hs, by rw [bare, bare, he]⟩
  | vector _ items, _, h => by
    obtain ⟨span, q, hq, hb⟩ := exists_bracketed h
    obtain ⟨items', hs, he⟩ := exists_spellsAll items hq
    exact ⟨vector span items', hb _ hs, by rw [bare, bare, he]⟩
  | map _ entries, _, h => by
    obtain ⟨span, q, hq, hb⟩ := exists_bracketed h
    obtain ⟨entries', hs, he⟩ := exists_spellsEntries entries hq
    exact ⟨map span entries', hb _ hs, by rw [bare, bare, he]⟩

theorem exists_spellsAll : ∀ (forms : List Form) {p : List Token}, p.map Token.kind = yields forms →
    ∃ forms', SpellsAll forms' p ∧ bares forms' = bares forms
  | [], _, h => ⟨[], List.map_eq_nil_iff.mp h, rfl⟩
  | form :: rest, _, h => by
    obtain ⟨q, r, rfl, hq, hr⟩ := List.map_eq_append_iff.mp h
    obtain ⟨form', hs, he⟩ := exists_spells form hq
    obtain ⟨rest', hs', he'⟩ := exists_spellsAll rest hr
    exact ⟨form' :: rest', ⟨q, r, rfl, hs, hs'⟩, by rw [bares, bares, he, he']⟩

theorem exists_spellsEntries : ∀ (entries : List (Form × Form)) {p : List Token},
    p.map Token.kind = entryYields entries →
    ∃ entries', SpellsEntries entries' p ∧ entryBares entries' = entryBares entries
  | [], _, h => ⟨[], List.map_eq_nil_iff.mp h, rfl⟩
  | (key, value) :: rest, _, h => by
    obtain ⟨q, q', rfl, hq, hq'⟩ := List.map_eq_append_iff.mp h
    obtain ⟨r, u, rfl, hr, hu⟩ := List.map_eq_append_iff.mp hq'
    obtain ⟨key', hs, he⟩ := exists_spells key hq
    obtain ⟨value', hs', he'⟩ := exists_spells value hr
    obtain ⟨rest', hs'', he''⟩ := exists_spellsEntries rest hu
    exact ⟨(key', value') :: rest', ⟨q, r, u, rfl, hs, hs', hs''⟩,
      by rw [entryBares, entryBares, he, he', he'']⟩

end

end Form

end MusicLisp
