import MusicLisp.Form.Read
import MusicLisp.Proofs.Form.Yield

/-!
# What reading accepts

Reading is exactly the grammar of forms, with nothing lost: a form is read off a stream if and only if
the stream starts with tokens that spell it, and what comes after them is left.

* `readAt_sound`, `readItems_sound`, `readEntries_sound`: the tokens taken spell what is returned. By
  induction on the length of the stream, one token or one form at a time.
* `readAt_complete`, `readItems_complete`, `readEntries_complete`: tokens that spell a form are read as
  that form. By recursion on the form.
* `reads_exactly_yield`: the two together, in terms of the kinds of the tokens. Since a stream has one
  reading only, forms of the same yield are equal up to spans.
-/

namespace MusicLisp.TokenStream

open Form

/-! ### One token of a sequence -/

section Steps

variable {t : Token} {rest : List Token} {lastEnd : Nat} {top left : TokenStream} {form : Form}
variable {h : size ⟨t :: rest, lastEnd⟩ ≤ top.size}

theorem readItems_closing (make : Span → List Form → Form) {b : Bracket} (start : Span)
    (found : List Form) (hk : t.kind = .closing b) :
    readItems make b start found ⟨t :: rest, lastEnd⟩ top h =
      ⟨.ok (make (start.merge t.span) found.reverse), after t rest, Nat.le_of_succ_le h⟩ := by
  rw [readItems, hk]
  exact if_pos rfl

theorem readItems_step (make : Span → List Form → Form) (b : Bracket) (start : Span)
    (found : List Form) (hk : t.kind.Starts) {hl : left.size ≤ (after t rest).size}
    (hr : readAt t (after t rest) (after t rest) (Nat.le_refl _) = ⟨.ok form, left, hl⟩) :
    readItems make b start found ⟨t :: rest, lastEnd⟩ top h =
      readItems make b start (form :: found) left top
        (Nat.le_trans hl (Nat.le_of_succ_le h)) := by
  rw [readItems]
  cases hkind : t.kind with
  | opening _ | atom _ => dsimp only; rw [hr]
  | closing _ | endOfInput => rw [hkind] at hk; exact hk.elim

/-- A sequence that is read to its end starts with its closing bracket or with a form. -/
theorem readItems_ok_cases {make : Span → List Form → Form} {b : Bracket} {start : Span}
    {found : List Form} {hl : left.size ≤ top.size}
    (ha : readItems make b start found ⟨t :: rest, lastEnd⟩ top h = ⟨.ok form, left, hl⟩) :
    t.kind = .closing b ∨ t.kind.Starts ∧ ∃ first next hn,
      readAt t (after t rest) (after t rest) (Nat.le_refl _) = ⟨.ok first, next, hn⟩ := by
  unfold readItems at ha
  cases hk : t.kind with
  | closing c =>
    rw [hk] at ha
    dsimp only at ha
    split at ha
    · next hc => exact .inl (by rw [hc])
    · cases ha
  | endOfInput => rw [hk] at ha; cases ha
  | opening _ | atom _ =>
    rw [hk] at ha
    dsimp only at ha
    split at ha
    · cases ha
    · next first next hn hr => exact .inr ⟨trivial, first, next, hn, hr⟩

theorem readEntries_closing (start : Span) (found : List (Form × Form))
    (hk : t.kind = .closing .curly) :
    readEntries start found ⟨t :: rest, lastEnd⟩ top h =
      ⟨.ok (.map (start.merge t.span) found.reverse), after t rest, Nat.le_of_succ_le h⟩ := by
  rw [readEntries, hk]

theorem readEntries_step (start : Span) (found : List (Form × Form)) (hk : t.kind.Starts)
    {hl : left.size ≤ (after t rest).size}
    (hr : readAt t (after t rest) (after t rest) (Nat.le_refl _) = ⟨.ok form, left, hl⟩) :
    readEntries start found ⟨t :: rest, lastEnd⟩ top h =
      readValue start found form left top (Nat.le_trans hl (Nat.le_of_succ_le h)) := by
  rw [readEntries]
  cases hkind : t.kind with
  | opening _ | atom _ => dsimp only; rw [hr]
  | closing _ | endOfInput => rw [hkind] at hk; exact hk.elim

/-- Entries that are read to their end start with the closing bracket or with a key. -/
theorem readEntries_ok_cases {start : Span} {found : List (Form × Form)} {hl : left.size ≤ top.size}
    (ha : readEntries start found ⟨t :: rest, lastEnd⟩ top h = ⟨.ok form, left, hl⟩) :
    t.kind = .closing .curly ∨ t.kind.Starts ∧ ∃ key next hn,
      readAt t (after t rest) (after t rest) (Nat.le_refl _) = ⟨.ok key, next, hn⟩ := by
  unfold readEntries at ha
  cases hk : t.kind with
  | closing c =>
    rw [hk] at ha
    cases c with
    | curly => exact .inl rfl
    | round | square => cases ha
  | endOfInput => rw [hk] at ha; cases ha
  | opening _ | atom _ =>
    rw [hk] at ha
    dsimp only at ha
    split at ha
    · cases ha
    · next key next hn hr => exact .inr ⟨trivial, key, next, hn, hr⟩

theorem readValue_step (start : Span) (found : List (Form × Form)) (key : Form)
    (hk : t.kind.Starts) {hl : left.size ≤ (after t rest).size}
    (hr : readAt t (after t rest) (after t rest) (Nat.le_refl _) = ⟨.ok form, left, hl⟩) :
    readValue start found key ⟨t :: rest, lastEnd⟩ top h =
      readEntries start ((key, form) :: found) left top
        (Nat.le_trans hl (Nat.le_of_succ_le h)) := by
  rw [readValue]
  cases hkind : t.kind with
  | opening _ | atom _ => dsimp only; rw [hr]
  | closing _ | endOfInput => rw [hkind] at hk; exact hk.elim

/-- Entries that are read to their end have a value for each key. -/
theorem readValue_ok_cases {start : Span} {found : List (Form × Form)} {key : Form}
    {hl : left.size ≤ top.size}
    (ha : readValue start found key ⟨t :: rest, lastEnd⟩ top h = ⟨.ok form, left, hl⟩) :
    t.kind.Starts ∧ ∃ value next hn,
      readAt t (after t rest) (after t rest) (Nat.le_refl _) = ⟨.ok value, next, hn⟩ := by
  unfold readValue at ha
  cases hk : t.kind with
  | closing c =>
    rw [hk] at ha
    cases c <;> cases ha
  | endOfInput => rw [hk] at ha; cases ha
  | opening _ | atom _ =>
    rw [hk] at ha
    dsimp only at ha
    split at ha
    · cases ha
    · next value next hn hr => exact ⟨trivial, value, next, hn, hr⟩

end Steps

/-! ### What is read spells what is returned -/

mutual

/-- **A form that is read is spelled by the tokens taken.** -/
theorem readAt_sound : ∀ (t : Token) (s top : TokenStream) (h : s.size ≤ top.size) {form : Form}
    {left : TokenStream} {hl : left.size ≤ top.size}, readAt t s top h = ⟨.ok form, left, hl⟩ →
    ∃ p, s.tokens = p ++ left.tokens ∧ form.Spells (t :: p)
  | t, s, top, h, form, left, hl, ha => by
    unfold readAt at ha
    cases hk : t.kind with
    | opening b =>
      rw [hk] at ha
      cases b with
      | round =>
        obtain ⟨items, p, c, hs, hc, hp, rfl⟩ := readItems_sound .list .round t.span [] s top h ha
        exact ⟨p ++ [c], by rw [List.append_assoc]; exact hs, t, p, c, rfl, hk, hc, rfl, hp⟩
      | square =>
        obtain ⟨items, p, c, hs, hc, hp, rfl⟩ := readItems_sound .vector .square t.span [] s top h ha
        exact ⟨p ++ [c], by rw [List.append_assoc]; exact hs, t, p, c, rfl, hk, hc, rfl, hp⟩
      | curly =>
        obtain ⟨entries, p, c, hs, hc, hp, rfl⟩ := readEntries_sound t.span [] s top h ha
        exact ⟨p ++ [c], by rw [List.append_assoc]; exact hs, t, p, c, rfl, hk, hc, rfl, hp⟩
    | atom a =>
      rw [hk] at ha
      cases ha
      exact ⟨[], rfl, t, rfl, hk, rfl⟩
    | closing _ | endOfInput => rw [hk] at ha; cases ha
termination_by _ s => 2 * s.size + 1

/-- A sequence that is read is its items, spelled one after the other, and the closing bracket. -/
theorem readItems_sound (make : Span → List Form → Form) (b : Bracket) (start : Span) :
    ∀ (found : List Form) (s top : TokenStream) (h : s.size ≤ top.size) {form : Form}
      {left : TokenStream} {hl : left.size ≤ top.size},
    readItems make b start found s top h = ⟨.ok form, left, hl⟩ →
    ∃ items p c, s.tokens = p ++ c :: left.tokens ∧ c.kind = .closing b ∧ SpellsAll items p ∧
      form = make (start.merge c.span) (found.reverse ++ items)
  | _, ⟨[], _⟩, _, _, _, _, _, ha => by unfold readItems at ha; cases ha
  | found, ⟨t :: rest, lastEnd⟩, top, h, form, left, hl, ha => by
    obtain hk | ⟨hk, first, next, hn, hr⟩ := readItems_ok_cases ha
    · rw [readItems_closing make start found hk] at ha
      cases ha
      exact ⟨[], [], t, rfl, hk, rfl, by rw [List.append_nil]⟩
    · have hlt : next.size < size ⟨t :: rest, lastEnd⟩ := Nat.lt_succ_of_le hn
      obtain ⟨p, hp, hfirst⟩ := readAt_sound t _ _ _ hr
      rw [readItems_step make b start found hk hr] at ha
      obtain ⟨items, q, c, hq, hc, hitems, hform⟩ := readItems_sound make b start _ next top _ ha
      refine ⟨first :: items, (t :: p) ++ q, c, ?_, hc, ⟨t :: p, q, rfl, hfirst, hitems⟩, ?_⟩
      · rw [List.append_assoc, ← hq]
        exact congrArg (t :: ·) hp
      · rw [hform, List.reverse_cons, List.append_assoc]; rfl
termination_by _ s => 2 * s.size
decreasing_by all_goals simp only [size, after, List.length_cons] at hlt ⊢; omega

/-- A map that is read is its entries, keys and values in turns, and the closing bracket. -/
theorem readEntries_sound (start : Span) :
    ∀ (found : List (Form × Form)) (s top : TokenStream) (h : s.size ≤ top.size) {form : Form}
      {left : TokenStream} {hl : left.size ≤ top.size},
    readEntries start found s top h = ⟨.ok form, left, hl⟩ →
    ∃ entries p c, s.tokens = p ++ c :: left.tokens ∧ c.kind = .closing .curly ∧
      SpellsEntries entries p ∧ form = .map (start.merge c.span) (found.reverse ++ entries)
  | _, ⟨[], _⟩, _, _, _, _, _, ha => by unfold readEntries at ha; cases ha
  | found, ⟨t :: rest, lastEnd⟩, top, h, form, left, hl, ha => by
    obtain hk | ⟨hk, key, next, hn, hr⟩ := readEntries_ok_cases ha
    · rw [readEntries_closing start found hk] at ha
      cases ha
      exact ⟨[], [], t, rfl, hk, rfl, by rw [List.append_nil]⟩
    · have hlt : next.size < size ⟨t :: rest, lastEnd⟩ := Nat.lt_succ_of_le hn
      obtain ⟨p, hp, hkey⟩ := readAt_sound t _ _ _ hr
      rw [readEntries_step start found hk hr] at ha
      obtain ⟨value, entries, u, v, c, hq, hc, hu, hv, hform⟩ :=
        readValue_sound start found key next top _ ha
      refine ⟨(key, value) :: entries, (t :: p) ++ (u ++ v), c, ?_, hc,
        ⟨t :: p, u, v, rfl, hkey, hu, hv⟩, hform⟩
      rw [List.append_assoc, ← hq]
      exact congrArg (t :: ·) hp
termination_by _ s => 2 * s.size
decreasing_by all_goals simp only [size, after, List.length_cons] at hlt ⊢; omega

/-- A key that is read on from is followed by its value and the entries after it. -/
theorem readValue_sound (start : Span) (found : List (Form × Form)) (key : Form) :
    ∀ (s top : TokenStream) (h : s.size ≤ top.size) {form : Form} {left : TokenStream}
      {hl : left.size ≤ top.size}, readValue start found key s top h = ⟨.ok form, left, hl⟩ →
    ∃ value entries u v c, s.tokens = (u ++ v) ++ c :: left.tokens ∧ c.kind = .closing .curly ∧
      Spells value u ∧ SpellsEntries entries v ∧
      form = .map (start.merge c.span) (found.reverse ++ (key, value) :: entries)
  | ⟨[], _⟩, _, _, _, _, _, ha => by unfold readValue at ha; cases ha
  | ⟨t :: rest, lastEnd⟩, top, h, form, left, hl, ha => by
    obtain ⟨hk, value, next, hn, hr⟩ := readValue_ok_cases ha
    have hlt : next.size < size ⟨t :: rest, lastEnd⟩ := Nat.lt_succ_of_le hn
    obtain ⟨p, hp, hvalue⟩ := readAt_sound t _ _ _ hr
    rw [readValue_step start found key hk hr] at ha
    obtain ⟨entries, q, c, hq, hc, hentries, hform⟩ := readEntries_sound start _ next top _ ha
    refine ⟨value, entries, t :: p, q, c, ?_, hc, hvalue, hentries, ?_⟩
    · rw [List.append_assoc, ← hq]
      exact congrArg (t :: ·) hp
    · rw [hform, List.reverse_cons, List.append_assoc]; rfl
termination_by s => 2 * s.size
decreasing_by all_goals simp only [size, after, List.length_cons] at hlt ⊢; omega

end

/-! ### What spells a form is read as that form -/

mutual

/-- **A form that the tokens spell is read**, and what comes after them is left. -/
theorem readAt_complete : ∀ (form : Form) {t : Token} {p : List Token}, form.Spells (t :: p) →
    ∀ (rest : List Token) (s top : TokenStream) (h : s.size ≤ top.size), s.tokens = p ++ rest →
    ∃ left hl, readAt t s top h = ⟨.ok form, left, hl⟩ ∧ left.tokens = rest
  | .atom span a, t, p, ⟨t', hp, ht, hspan⟩, rest, s, top, h, hs => by
    cases hp
    unfold readAt
    rw [ht, hspan]
    exact ⟨s, h, rfl, hs⟩
  | .list span items, t, p, ⟨o, q, c, hp, ho, hc, hspan, hq⟩, rest, s, top, h, hs => by
    cases hp
    unfold readAt
    rw [ho, hspan]
    rw [List.append_assoc] at hs
    exact readItems_complete .list .round items hq hc t.span [] rest s top h hs
  | .vector span items, t, p, ⟨o, q, c, hp, ho, hc, hspan, hq⟩, rest, s, top, h, hs => by
    cases hp
    unfold readAt
    rw [ho, hspan]
    rw [List.append_assoc] at hs
    exact readItems_complete .vector .square items hq hc t.span [] rest s top h hs
  | .map span entries, t, p, ⟨o, q, c, hp, ho, hc, hspan, hq⟩, rest, s, top, h, hs => by
    cases hp
    unfold readAt
    rw [ho, hspan]
    rw [List.append_assoc] at hs
    exact readEntries_complete entries hq hc t.span [] rest s top h hs

theorem readItems_complete (make : Span → List Form → Form) (b : Bracket) :
    ∀ (items : List Form) {q : List Token} {c : Token}, SpellsAll items q → c.kind = .closing b →
    ∀ (start : Span) (found : List Form) (rest : List Token) (s top : TokenStream)
      (h : s.size ≤ top.size), s.tokens = q ++ c :: rest →
    ∃ left hl, readItems make b start found s top h =
        ⟨.ok (make (start.merge c.span) (found.reverse ++ items)), left, hl⟩ ∧ left.tokens = rest
  | [], q, c, hq, hc, start, found, rest, ⟨tokens, lastEnd⟩, top, h, hs => by
    cases hq
    cases hs
    rw [List.append_nil]
    exact ⟨_, _, readItems_closing make start found hc, rfl⟩
  | form :: items, _, c, ⟨q, r, hqr, hq, hr⟩, hc, start, found, rest, ⟨tokens, lastEnd⟩, top, h,
      hs => by
    obtain ⟨t, p, rfl, ht⟩ := hq.exists_cons
    rw [hqr, List.append_assoc, List.cons_append] at hs
    cases hs
    obtain ⟨left, hl, hread, hleft⟩ := readAt_complete form hq _ (after t _) _ (Nat.le_refl _) rfl
    rw [readItems_step make b start found ht hread]
    have hitems := readItems_complete make b items hr hc start (form :: found) rest left top
      (Nat.le_trans hl (Nat.le_of_succ_le h)) hleft
    rw [List.reverse_cons, List.append_assoc] at hitems
    exact hitems

theorem readEntries_complete : ∀ (entries : List (Form × Form)) {q : List Token} {c : Token},
    SpellsEntries entries q → c.kind = .closing .curly →
    ∀ (start : Span) (found : List (Form × Form)) (rest : List Token) (s top : TokenStream)
      (h : s.size ≤ top.size), s.tokens = q ++ c :: rest →
    ∃ left hl, readEntries start found s top h =
        ⟨.ok (.map (start.merge c.span) (found.reverse ++ entries)), left, hl⟩ ∧ left.tokens = rest
  | [], q, c, hq, hc, start, found, rest, ⟨tokens, lastEnd⟩, top, h, hs => by
    cases hq
    cases hs
    rw [List.append_nil]
    exact ⟨_, _, readEntries_closing start found hc, rfl⟩
  | (key, value) :: entries, _, c, ⟨q, r, u, hqr, hq, hr, hu⟩, hc, start, found, rest,
      ⟨tokens, lastEnd⟩, top, h, hs => by
    obtain ⟨t, p, rfl, ht⟩ := hq.exists_cons
    obtain ⟨t', p', rfl, ht'⟩ := hr.exists_cons
    rw [hqr, List.append_assoc, List.append_assoc, List.cons_append] at hs
    cases hs
    obtain ⟨⟨tokens, lastEnd'⟩, hl, hread, hleft⟩ :=
      readAt_complete key hq _ (after t _) _ (Nat.le_refl _) rfl
    rw [readEntries_step start found ht hread]
    rw [List.cons_append] at hleft
    cases hleft
    obtain ⟨left, hl', hread', hleft'⟩ :=
      readAt_complete value hr _ (after t' _) _ (Nat.le_refl _) rfl
    rw [readValue_step start found key ht' hread']
    have hentries := readEntries_complete entries hu hc start ((key, value) :: found) rest left top
      (Nat.le_trans hl' (Nat.le_of_succ_le (Nat.le_trans hl (Nat.le_of_succ_le h)))) hleft'
    rw [List.reverse_cons, List.append_assoc] at hentries
    exact hentries

end

/-! ### Whole streams -/

/-- **A form is read off a stream if and only if the stream starts with tokens that spell it.** -/
theorem readForm_iff {s : TokenStream} {form : Form} {rest : List Token} :
    s.readForm.answer = .ok form ∧ s.readForm.rest.tokens = rest ↔
      ∃ p, s.tokens = p ++ rest ∧ form.Spells p := by
  obtain ⟨tokens, lastEnd⟩ := s
  constructor
  · rintro ⟨ha, rfl⟩
    cases tokens with
    | nil => cases ha
    | cons t tokens =>
      rw [readForm] at ha ⊢
      cases hr : readAt t (after t tokens) ⟨t :: tokens, lastEnd⟩ (Nat.le_succ _) with
      | mk answer left hl =>
        rw [hr] at ha
        cases ha
        obtain ⟨p, hp, hform⟩ := readAt_sound t _ _ _ hr
        exact ⟨t :: p, congrArg (t :: ·) hp, hform⟩
  · rintro ⟨p, hp, hform⟩
    obtain ⟨t, q, rfl, -⟩ := hform.exists_cons
    rw [List.cons_append] at hp
    cases hp
    obtain ⟨left, hl, hr, hleft⟩ := readAt_complete form hform rest (after t (q ++ rest))
      ⟨t :: (q ++ rest), lastEnd⟩ (Nat.le_succ _) rfl
    rw [readForm, hr]
    exact ⟨rfl, hleft⟩

/-- The stream is at its end: there are no tokens, or the next one is the mark. -/
def AtEnd (tokens : List Token) : Prop := ∀ t ∈ tokens.head?, t.kind = .endOfInput

theorem readAllFrom_atEnd {s : TokenStream} (found : List Form) (hs : AtEnd s.tokens) :
    readAllFrom found s = (.ok found.reverse, s) := by
  obtain ⟨tokens, lastEnd⟩ := s
  cases tokens with
  | nil => unfold readAllFrom; rfl
  | cons t rest =>
    have ht : t.kind = .endOfInput := hs t rfl
    unfold readAllFrom
    rw [ht]

theorem readAllFrom_step {t : Token} {rest : List Token} {lastEnd : Nat} {left : TokenStream}
    {form : Form} (found : List Form) (hk : t.kind ≠ .endOfInput)
    (hl : left.size ≤ (after t rest).size)
    (hr : readAt t (after t rest) (after t rest) (Nat.le_refl _) = ⟨.ok form, left, hl⟩) :
    readAllFrom found ⟨t :: rest, lastEnd⟩ = readAllFrom (form :: found) left := by
  rw [readAllFrom]
  cases hkind : t.kind with
  | opening _ | atom _ | closing _ => dsimp only; rw [hr]
  | endOfInput => exact absurd hkind hk

theorem readAllFrom_ok_cases {t : Token} {rest : List Token} {lastEnd : Nat} {found forms : List Form}
    (ha : (readAllFrom found ⟨t :: rest, lastEnd⟩).1 = .ok forms) :
    t.kind = .endOfInput ∨ t.kind ≠ .endOfInput ∧ ∃ first left hl,
      readAt t (after t rest) (after t rest) (Nat.le_refl _) = ⟨.ok first, left, hl⟩ := by
  unfold readAllFrom at ha
  cases hk : t.kind with
  | endOfInput => exact .inl rfl
  | opening _ | atom _ | closing _ =>
    rw [hk] at ha
    dsimp only at ha
    split at ha
    · cases ha
    · next first left hl hr => exact .inr ⟨by simp, first, left, hl, hr⟩

/-- What is read to the end is spelled one form after the other, up to the end. -/
theorem readAllFrom_sound : ∀ (found : List Form) (s : TokenStream) {forms : List Form},
    (readAllFrom found s).1 = .ok forms →
    ∃ items p rest, s.tokens = p ++ rest ∧ AtEnd rest ∧ SpellsAll items p ∧
      forms = found.reverse ++ items
  | found, ⟨[], lastEnd⟩, forms, ha => by
    rw [readAllFrom_atEnd found (by rintro t ⟨⟩)] at ha
    cases ha
    exact ⟨[], [], [], rfl, by rintro t ⟨⟩, rfl, (List.append_nil _).symm⟩
  | found, ⟨t :: tokens, lastEnd⟩, forms, ha => by
    obtain ht | ⟨ht, first, left, hl, hr⟩ := readAllFrom_ok_cases ha
    · have hend : AtEnd (t :: tokens) := by rintro u ⟨⟩; exact ht
      rw [readAllFrom_atEnd found hend] at ha
      cases ha
      exact ⟨[], [], t :: tokens, rfl, hend, rfl, (List.append_nil _).symm⟩
    · have hlt : left.size < size ⟨t :: tokens, lastEnd⟩ := Nat.lt_succ_of_le hl
      obtain ⟨p, hp, hfirst⟩ := readAt_sound t _ _ _ hr
      rw [readAllFrom_step found ht hl hr] at ha
      obtain ⟨items, q, rest, hq, hend, hitems, hforms⟩ := readAllFrom_sound _ left ha
      refine ⟨first :: items, (t :: p) ++ q, rest, ?_, hend, ⟨t :: p, q, rfl, hfirst, hitems⟩, ?_⟩
      · rw [List.append_assoc, ← hq]
        exact congrArg (t :: ·) hp
      · rw [hforms, List.reverse_cons, List.append_assoc]; rfl
termination_by _ s => s.size

/-- Forms spelled one after the other, up to the end, are read. -/
theorem readAllFrom_complete : ∀ (items : List Form) {p rest : List Token}, SpellsAll items p →
    AtEnd rest → ∀ (found : List Form) (s : TokenStream), s.tokens = p ++ rest →
    (readAllFrom found s).1 = .ok (found.reverse ++ items)
  | [], p, rest, hp, hend, found, s, hs => by
    cases hp
    rw [readAllFrom_atEnd found (by rw [hs]; exact hend), List.append_nil]
  | form :: items, _, rest, ⟨q, r, hqr, hq, hr⟩, hend, found, ⟨tokens, lastEnd⟩, hs => by
    obtain ⟨t, p, rfl, ht⟩ := hq.exists_cons
    rw [hqr, List.append_assoc, List.cons_append] at hs
    cases hs
    obtain ⟨left, hl, hread, hleft⟩ := readAt_complete form hq _ (after t _) _ (Nat.le_refl _) rfl
    have hne : t.kind ≠ .endOfInput := by rintro hk; rw [hk] at ht; exact ht
    rw [readAllFrom_step found hne hl hread,
      readAllFrom_complete items hr hend (form :: found) left hleft, List.reverse_cons,
      List.append_assoc]
    rfl

section Marked

variable {e : Token} (he : e.kind = .endOfInput)
include he

/-- Before the mark, tokens up to the end are all there is. -/
theorem eq_of_atEnd : ∀ {ts p rest : List Token}, (∀ t ∈ ts, t.kind ≠ .endOfInput) →
    (∀ t ∈ p, t.kind ≠ .endOfInput) → AtEnd rest → ts ++ [e] = p ++ rest → p = ts
  | [], [], _, _, _, _, _ => rfl
  | [], t :: p, _, _, hp, _, h => by
    obtain ⟨rfl, -⟩ := List.cons.inj h
    exact absurd he (hp e List.mem_cons_self)
  | t :: ts, [], _, hts, _, hend, h => by
    cases h
    exact absurd (hend t rfl) (hts t List.mem_cons_self)
  | t :: ts, u :: p, rest, hts, hp, hend, h => by
    obtain ⟨rfl, h'⟩ := List.cons.inj h
    rw [eq_of_atEnd (fun v hv => hts v (List.mem_cons_of_mem _ hv))
      (fun v hv => hp v (List.mem_cons_of_mem _ hv)) hend h']

/-- **A marked stream is read to its end if and only if the tokens before the mark spell the forms.** -/
theorem readAll_iff {ts : List Token} {lastEnd : Nat} {forms : List Form}
    (hts : ∀ t ∈ ts, t.kind ≠ .endOfInput) :
    (readAll ⟨ts ++ [e], lastEnd⟩).1 = .ok forms ↔ SpellsAll forms ts := by
  constructor
  · intro ha
    obtain ⟨items, p, rest, hp, hend, hitems, hforms⟩ := readAllFrom_sound [] _ ha
    have hmark := ne_endOfInput_of_map_kind hitems.map_kind
    rw [hforms, ← eq_of_atEnd he hts hmark hend hp]
    exact hitems
  · intro hforms
    exact readAllFrom_complete forms hforms (by rintro t ⟨⟩; exact he) [] _ rfl

end Marked

/-- Forms of the same yields differ in their spans at most: tokens of these kinds spell both, and are
read one way only. -/
theorem bares_eq_of_yields_eq {forms forms' : List Form} (h : yields forms = yields forms') :
    bares forms = bares forms' := by
  have hk : ((yields forms).map fun kind => Token.mk kind (.point 0)).map Token.kind = yields forms := by
    rw [List.map_map]
    exact List.map_id _
  obtain ⟨found, hs, hb⟩ := exists_spellsAll forms hk
  obtain ⟨found', hs', hb'⟩ := exists_spellsAll forms' (hk.trans h)
  have hend : AtEnd [] := by rintro t ⟨⟩
  have hr := readAllFrom_complete found hs hend [] (.ofTokens _) (List.append_nil _).symm
  have hr' := readAllFrom_complete found' hs' hend [] (.ofTokens _) (List.append_nil _).symm
  rw [hr] at hr'
  have he : found = found' := by injection hr'
  rw [← hb, ← hb', he]

/-- **Reading accepts exactly the grammar and loses nothing.**

A form is read off a stream, whatever its spans and marks, if and only if the stream starts with tokens of
the kinds of its yield, and it is read with the spans that these tokens determine. A stream whose only mark
is at its end is read whole if and only if its kinds are the yields of the forms one after the other, and
these yields determine the forms. -/
theorem reads_exactly_yield :
    (∀ (s : TokenStream) (form : Form) (rest : List Token),
      (∃ found : Form, s.readForm.answer = .ok found ∧ found.bare = form.bare ∧
        s.readForm.rest.tokens = rest) ↔
      ∃ p, s.tokens = p ++ rest ∧ p.map Token.kind = form.yield) ∧
    (∀ (s : TokenStream) (form : Form) (rest : List Token),
      s.readForm.answer = .ok form ∧ s.readForm.rest.tokens = rest ↔
        ∃ p, s.tokens = p ++ rest ∧ form.Spells p) ∧
    (∀ (ts : List Token) (e : Token) (lastEnd : Nat), (∀ t ∈ ts, t.kind ≠ .endOfInput) →
      e.kind = .endOfInput →
      (∀ forms : List Form,
        (∃ found : List Form, (readAll ⟨ts ++ [e], lastEnd⟩).1 = .ok found ∧
          found.map bare = forms.map bare) ↔
        ts.map Token.kind = forms.flatMap yield) ∧
      ∀ forms : List Form, (readAll ⟨ts ++ [e], lastEnd⟩).1 = .ok forms ↔ SpellsAll forms ts) ∧
    ∀ forms forms' : List Form, forms.flatMap yield = forms'.flatMap yield →
      forms.map bare = forms'.map bare := by
  refine ⟨fun s form rest => ⟨?_, ?_⟩, fun s form rest => readForm_iff, fun ts e lastEnd hts he =>
    ⟨fun forms => ⟨?_, ?_⟩, fun forms => readAll_iff he hts⟩, fun forms forms' h => ?_⟩
  · rintro ⟨found, ha, hb, hrest⟩
    obtain ⟨p, hp, hs⟩ := readForm_iff.mp ⟨ha, hrest⟩
    exact ⟨p, hp, by rw [hs.map_kind, ← yield_bare, hb, yield_bare]⟩
  · rintro ⟨p, hp, hk⟩
    obtain ⟨found, hs, hb⟩ := exists_spells form hk
    obtain ⟨ha, hrest⟩ := readForm_iff.mpr ⟨p, hp, hs⟩
    exact ⟨found, ha, hb, hrest⟩
  · rintro ⟨found, ha, hb⟩
    rw [← bares_eq_map, ← bares_eq_map] at hb
    have hs := (readAll_iff he hts).mp ha
    rw [hs.map_kind, ← yields_eq_flatMap, ← yields_bares, hb, yields_bares]
  · intro hk
    rw [← yields_eq_flatMap] at hk
    obtain ⟨found, hs, hb⟩ := exists_spellsAll forms hk
    exact ⟨found, (readAll_iff he hts).mpr hs, by rw [← bares_eq_map, ← bares_eq_map, hb]⟩
  · rw [← yields_eq_flatMap, ← yields_eq_flatMap] at h
    rw [← bares_eq_map, ← bares_eq_map]
    exact bares_eq_of_yields_eq h

end MusicLisp.TokenStream
