import Mathlib.Data.Nat.Digits.Lemmas
import MusicLisp.Music.Pitch
import MusicLisp.Proofs.Number.Text

/-!
# Note names

Which texts name a pitch and which pitch, and what the others are refused for.

* `Spells`: what a note name looks like. A text is taken apart in one way only, although `b` is both a letter and an
  accidental, since no digit is an accidental (`splitAccidental_append`).
* `Decimal.placeValue`: the number that digits denote, each counted by its place.
* `number?_eq`: the steps on the way to a number all fit exactly if the number does.
* `Reads`: the ways that reading a text as a note name can end; `ofName_exact`: **each text ends in its own**.
-/

namespace MusicLisp

/-- **The number that digits denote:** each digit counts ten times as much as the one after it. -/
def Decimal.placeValue (digits : List Char) : Nat :=
  Nat.ofDigits 10 (digits.reverse.map fun c => c.toNat - '0'.toNat)

theorem Decimal.ofDigits_eq_placeValue (digits : List Char) : ofDigits digits = placeValue digits := by
  induction digits using List.reverseRecOn with
  | nil => rfl
  | append_singleton digits c ih =>
    calc ofDigits (digits ++ [c]) = 10 * ofDigits digits + (c.toNat - '0'.toNat) := by
          unfold ofDigits
          rw [List.foldl_concat]
      _ = placeValue (digits ++ [c]) := by
          rw [ih, placeValue, placeValue, List.reverse_concat, List.map_cons, Nat.ofDigits_cons, Nat.add_comm]

namespace Pitch

/-! ### Spelling -/

/-- **The spelling of a note name:** a letter from `A` to `G` in either case, an accidental or none, and the digits of
an octave to the end. -/
structure Spells (letter : Char) (accidental digits : List Char) (text : String) : Prop where
  chars : text.toList = letter :: (accidental ++ digits)
  letter : ('A' ≤ letter ∧ letter ≤ 'G') ∨ ('a' ≤ letter ∧ letter ≤ 'g')
  accidental : accidental = [] ∨ accidental = ['#'] ∨ accidental = ['b']
  digits : Decimal.AreDigits digits

/-- The note that a letter in either case and an accidental name. -/
def noteName (letter : Char) (accidental : List Char) : String := String.ofList (letter.toUpper :: accidental)

theorem toUpper_letter_iff (c : Char) :
    ('A' ≤ c.toUpper ∧ c.toUpper ≤ 'G') ↔ ('A' ≤ c ∧ c ≤ 'G') ∨ ('a' ≤ c ∧ c ≤ 'g') := by
  grind [Char.toUpper, Char.le_def]

theorem splitAccidental_append {accidental digits : List Char}
    (ha : accidental = [] ∨ accidental = ['#'] ∨ accidental = ['b']) (hd : Decimal.AreDigits digits) :
    splitAccidental (accidental ++ digits) = (accidental, digits) := by
  rcases ha with rfl | rfl | rfl
  · obtain ⟨c, r, rfl⟩ := List.exists_cons_of_ne_nil hd.1
    have hc := hd.2 c List.mem_cons_self
    unfold splitAccidental
    split
    · next heq => cases heq; cases hc
    · next heq => cases heq; cases hc
    · rfl
  · rfl
  · rfl

/-- Taking the accidental off loses nothing. -/
theorem append_splitAccidental (rest : List Char) : (splitAccidental rest).1 ++ (splitAccidental rest).2 = rest ∧
    ((splitAccidental rest).1 = [] ∨ (splitAccidental rest).1 = ['#'] ∨ (splitAccidental rest).1 = ['b']) := by
  unfold splitAccidental
  split
  · exact ⟨rfl, .inr (.inl rfl)⟩
  · exact ⟨rfl, .inr (.inr rfl)⟩
  · exact ⟨rfl, .inl rfl⟩

/-- A note name is all ASCII. -/
theorem Spells.ascii {letter : Char} {accidental digits : List Char} {text : String}
    (h : Spells letter accidental digits text) : ∀ c ∈ text.toList, c.toNat < 128 := by
  intro c hc
  rw [h.chars, List.mem_cons, List.mem_append] at hc
  rcases hc with rfl | hc | hc
  · rcases h.letter with ⟨-, hlast⟩ | ⟨-, hlast⟩
    · exact Nat.lt_of_le_of_lt hlast (by decide)
    · exact Nat.lt_of_le_of_lt hlast (by decide)
  · rcases h.accidental with ha | ha | ha <;> rw [ha] at hc
    · cases hc
    · rw [List.mem_singleton.mp hc]
      decide
    · rw [List.mem_singleton.mp hc]
      decide
  · exact Nat.lt_of_le_of_lt (Char.isDigit_iff_toNat.mp (h.digits.2 c hc)).2 (by decide)

/-! ### Numbers -/

theorem bind_fit? {α : Type} (n : Int) (f : Int → Option α) :
    (fit? n).bind f = if largest < n then none else f n := by
  unfold fit?
  split <;> rfl

/-- **The steps on the way to a number all fit exactly if the number does.** -/
theorem number?_eq {octave offset : Int} (ho : 0 ≤ octave) (hk : 0 ≤ offset) : number? octave offset =
    if 12 * (octave + 1) + offset ≤ largest then some (12 * (octave + 1) + offset) else none := by
  have hsteps : number? octave offset = if largest < octave + 1 then none
      else if largest < (octave + 1) * 12 then none else fit? ((octave + 1) * 12 + offset) := by
    unfold number?
    exact (bind_fit? _ _).trans (if_congr Iff.rfl rfl (bind_fit? _ _))
  rw [hsteps, fit?, Int.mul_comm]
  split
  · rw [if_neg (by omega)]
  · split
    · rw [if_neg (by omega)]
    · exact (ite_not _ _ _).symm.trans (if_congr Int.not_lt rfl rfl)

theorem lookup_offsets_iff {name : String} {offset : Int} :
    offsets.lookup name = some offset ↔ (name, offset) ∈ offsets := by
  have hnames : offsets.Pairwise fun a b => b.1 ≠ a.1 := by decide
  rw [List.lookup_eq_some_iff]
  constructor
  · rintro ⟨before, after, h, -⟩
    rw [h]
    exact List.mem_append_right _ List.mem_cons_self
  · intro h
    obtain ⟨before, after, hsplit⟩ := List.append_of_mem h
    rw [hsplit] at hnames
    refine ⟨before, after, hsplit, fun entry hentry => bne_iff_ne.mpr ?_⟩
    exact (List.pairwise_append.mp hnames).2.2 entry hentry _ List.mem_cons_self

theorem offset_nonneg {name : String} {offset : Int} (h : (name, offset) ∈ offsets) : 0 ≤ offset := by
  have hall : ∀ entry ∈ offsets, 0 ≤ entry.2 := by decide
  exact hall _ h

/-! ### Reading -/

variable {text : String} {letter : Char} {accidental digits : List Char}

/-- A text that is spelled like a note name is judged by its octave, then by its note, then by its number. -/
theorem ofName_of_spells (h : Spells letter accidental digits text) : ofName text =
    if largest < Decimal.placeValue digits then .error (.malformed text)
    else match offsets.lookup (noteName letter accidental) with
      | none => .error (.unknown (noteName letter accidental))
      | some offset =>
        match number? (Decimal.placeValue digits) offset with
        | none => .error (.malformed text)
        | some number => .ok number := by
  have hletter := (toUpper_letter_iff letter).mpr h.letter
  have hdigits : digits.isEmpty = false ∧ digits.all Char.isDigit = true :=
    ⟨List.isEmpty_eq_false_iff.mpr h.digits.1, List.all_eq_true.mpr h.digits.2⟩
  unfold ofName
  rw [h.chars]
  simp only [splitAccidental_append h.accidental h.digits, hletter, hdigits, Decimal.ofDigits_eq_placeValue]
  rfl

/-- A text that is not spelled like one is malformed. -/
theorem ofName_of_not_spells (h : ∀ letter accidental digits, ¬ Spells letter accidental digits text) :
    ofName text = .error (.malformed text) := by
  unfold ofName
  split
  · rfl
  · next c rest hchars =>
    dsimp only
    obtain ⟨happend, ha⟩ := append_splitAccidental rest
    split
    · rfl
    · next hletter =>
      split
      · rfl
      · next hdigits =>
        refine absurd ⟨?_, (toUpper_letter_iff c).mp ?_, ha, ?_⟩ (h c (splitAccidental rest).1 (splitAccidental rest).2)
        · rw [hchars, happend]
        · simpa using hletter
        · simpa [Decimal.AreDigits] using hdigits

/-- **How reading a text as a note name ends:** with the number of a pitch; or there is no such note; or the text is
refused as it stands, because of its spelling, an octave that is too large, or a number that is too large. -/
inductive Reads (text : String) : Except String Int → Prop
  | pitch {letter : Char} {accidental digits : List Char} {offset : Int} (h : Spells letter accidental digits text)
    (hoctave : Decimal.placeValue digits ≤ largest) (hnote : (noteName letter accidental, offset) ∈ offsets)
    (hnumber : 12 * ((Decimal.placeValue digits : Int) + 1) + offset ≤ largest) :
    Reads text (.ok (12 * ((Decimal.placeValue digits : Int) + 1) + offset))
  | tooHigh {letter : Char} {accidental digits : List Char} {offset : Int} (h : Spells letter accidental digits text)
    (hoctave : Decimal.placeValue digits ≤ largest) (hnote : (noteName letter accidental, offset) ∈ offsets)
    (hnumber : largest < 12 * ((Decimal.placeValue digits : Int) + 1) + offset) :
    Reads text (.error ("invalid note format: " ++ text))
  | noNote {letter : Char} {accidental digits : List Char} (h : Spells letter accidental digits text)
    (hoctave : Decimal.placeValue digits ≤ largest) (hnote : ∀ offset, (noteName letter accidental, offset) ∉ offsets) :
    Reads text (.error ("invalid note: " ++ noteName letter accidental))
  | noOctave {letter : Char} {accidental digits : List Char} (h : Spells letter accidental digits text)
    (hoctave : largest < Decimal.placeValue digits) : Reads text (.error ("invalid note format: " ++ text))
  | misspelled (h : ∀ letter accidental digits, ¬ Spells letter accidental digits text) :
    Reads text (.error ("invalid note format: " ++ text))

/-- Every text is read in one of these ways. -/
theorem reads_ofName (text : String) : Reads text ((ofName text).mapError Fault.message) := by
  by_cases hspelled : ∃ letter accidental digits, Spells letter accidental digits text
  · obtain ⟨letter, accidental, digits, h⟩ := hspelled
    rw [ofName_of_spells h]
    split
    · next hoctave => exact .noOctave h hoctave
    · next hoctave =>
      have hoctave := Int.not_lt.mp hoctave
      split
      · next hnone =>
        refine .noNote h hoctave fun offset hmem => ?_
        cases hnone.symm.trans (lookup_offsets_iff.mpr hmem)
      · next offset hsome =>
        have hmem := lookup_offsets_iff.mp hsome
        rw [number?_eq (Int.natCast_nonneg _) (offset_nonneg hmem)]
        by_cases hnumber : 12 * ((Decimal.placeValue digits : Int) + 1) + offset ≤ largest
        · rw [if_pos hnumber]
          exact .pitch h hoctave hmem hnumber
        · rw [if_neg hnumber]
          exact .tooHigh h hoctave hmem (Int.not_le.mp hnumber)
  · have hnone : ∀ letter accidental digits, ¬ Spells letter accidental digits text :=
      fun letter accidental digits h => hspelled ⟨letter, accidental, digits, h⟩
    rw [ofName_of_not_spells hnone]
    exact .misspelled hnone

/-- And in one only. -/
theorem Reads.eq {r : Except String Int} (h : Reads text r) : (ofName text).mapError Fault.message = r := by
  cases h with
  | pitch h hoctave hnote hnumber =>
    rw [ofName_of_spells h, if_neg (Int.not_lt.mpr hoctave), lookup_offsets_iff.mpr hnote]
    dsimp only
    rw [number?_eq (Int.natCast_nonneg _) (offset_nonneg hnote), if_pos hnumber]
    rfl
  | tooHigh h hoctave hnote hnumber =>
    rw [ofName_of_spells h, if_neg (Int.not_lt.mpr hoctave), lookup_offsets_iff.mpr hnote]
    dsimp only
    rw [number?_eq (Int.natCast_nonneg _) (offset_nonneg hnote), if_neg (Int.not_le.mpr hnumber)]
    rfl
  | @noNote letter accidental digits h hoctave hnote =>
    have hnone : offsets.lookup (noteName letter accidental) = none :=
      Option.eq_none_iff_forall_ne_some.mpr fun offset hsome => hnote offset (lookup_offsets_iff.mp hsome)
    rw [ofName_of_spells h, if_neg (Int.not_lt.mpr hoctave), hnone]
    rfl
  | noOctave h hoctave =>
    rw [ofName_of_spells h, if_pos hoctave]
    rfl
  | misspelled h =>
    rw [ofName_of_not_spells h]
    rfl

/-- The same fault, of another text. -/
def Fault.about (text : String) : Fault → Fault
  | malformed _ => malformed text
  | unknown note => unknown note

/-- The name with zeros in front of its octave. -/
def padded (letter : Char) (accidental : List Char) (zeros : Nat) (digits : List Char) : String :=
  String.ofList (letter :: (accidental ++ (List.replicate zeros '0' ++ digits)))

theorem Spells.padded (h : Spells letter accidental digits text) (zeros : Nat) :
    Spells letter accidental (List.replicate zeros '0' ++ digits) (padded letter accidental zeros digits) where
  chars := String.toList_ofList
  letter := h.letter
  accidental := h.accidental
  digits := h.digits.zeros_append zeros

/-- Zeros in front of an octave do not matter. -/
theorem ofName_padded (h : Spells letter accidental digits text) (zeros : Nat) :
    ofName (padded letter accidental zeros digits) =
      (ofName text).mapError (Fault.about (padded letter accidental zeros digits)) := by
  have hvalue : Decimal.placeValue (List.replicate zeros '0' ++ digits) = Decimal.placeValue digits := by
    rw [← Decimal.ofDigits_eq_placeValue, Decimal.ofDigits_zeros_append, Decimal.ofDigits_eq_placeValue]
  rw [ofName_of_spells (h.padded zeros), ofName_of_spells h, hvalue]
  split
  · rfl
  · cases offsets.lookup (noteName letter accidental) with
    | none => rfl
    | some offset =>
      dsimp only
      cases number? (Decimal.placeValue digits) offset <;> rfl

/-- **Every text is read exactly as it is spelled.** It ends in its own one of the ways there are, with the error of
that way word for word; a text that is not all ASCII names no pitch; and however many zeros stand in front of an octave,
the name stands for the same pitch or is refused for the same reason. -/
theorem ofName_exact (text : String) :
    (∀ r, (ofName text).mapError Fault.message = r ↔ Reads text r) ∧
    ((∃ c ∈ text.toList, 128 ≤ c.toNat) → ofName text = .error (.malformed text)) ∧
    ∀ letter accidental digits, Spells letter accidental digits text → ∀ zeros,
      ofName (padded letter accidental zeros digits) =
        (ofName text).mapError (Fault.about (padded letter accidental zeros digits)) := by
  refine ⟨fun r => ⟨?_, Reads.eq⟩, ?_, fun _ _ _ h zeros => ofName_padded h zeros⟩
  · rintro rfl
    exact reads_ofName text
  · rintro ⟨c, hc, hlarge⟩
    refine ofName_of_not_spells fun letter accidental digits h => ?_
    exact absurd (h.ascii c hc) (Nat.not_lt.mpr hlarge)

/-- In this name `b` stands for a letter and for an accidental. -/
theorem ofName_exact_flat : Spells 'b' ['b'] ['2'] "bb2" ∧ Reads "bb2" (.ok 46) ∧
    ofName (padded 'b' ['b'] 3 ['2']) = .ok 46 := by
  have hspells : Spells 'b' ['b'] ['2'] "bb2" := ⟨rfl, by decide, by decide, List.cons_ne_nil _ _, List.forall_mem_singleton.mpr rfl⟩
  have hread : ofName "bb2" = .ok 46 := by decide +kernel
  refine ⟨hspells, ((ofName_exact "bb2").1 (.ok 46)).mp (by rw [hread]; rfl), ?_⟩
  exact ((ofName_exact "bb2").2.2 _ _ _ hspells 3).trans (by rw [hread]; rfl)

end Pitch

end MusicLisp
