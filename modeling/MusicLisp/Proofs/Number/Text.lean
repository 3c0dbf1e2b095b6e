import MusicLisp.Number.Text
import MusicLisp.Proofs.Number.Shortest

/-!
# Number texts read back

* `unsigned_positional`: a decimal written out is digits, with a point and more digits or without, and all
  its digits and places come to its value.
* `read?_numberText`: with the shortest decimal of a finite double that text reads back as the double.
* `numberText_of_not_isFinite`: the texts of the other doubles are names.
-/

namespace MusicLisp

/-! ### Runs -/

section Runs

variable {p : Char → Bool} {cs rest : List Char}

/-- No run of characters with the property goes on into the text. -/
def Stops (p : Char → Bool) (rest : List Char) : Prop := ∀ c ∈ rest.head?, p c = false

theorem Stops.append {r : List Char} (hr : Stops p r) (hrest : Stops p rest) :
    Stops p (r ++ rest) := by
  cases r with
  | nil => exact hrest
  | cons c r => exact hr

theorem Stops.any_head? (h : Stops p rest) : rest.head?.any p = false := by
  cases rest with
  | nil => rfl
  | cons c r => exact h c rfl

theorem takeWhile_run (hcs : ∀ c ∈ cs, p c = true) (hrest : Stops p rest) :
    (cs ++ rest).takeWhile p = cs := by
  rw [List.takeWhile_append_of_pos hcs]
  cases rest with
  | nil => exact List.append_nil cs
  | cons c r => rw [List.takeWhile_cons, hrest c rfl]; exact List.append_nil cs

theorem dropWhile_run (hcs : ∀ c ∈ cs, p c = true) (hrest : Stops p rest) :
    (cs ++ rest).dropWhile p = rest := by
  rw [List.dropWhile_append_of_pos hcs]
  cases rest with
  | nil => rfl
  | cons c r => rw [List.dropWhile_cons, hrest c rfl]; rfl

end Runs

namespace Decimal

/-! ### Digits -/

theorem ofDigits_eq (cs : List Char) : ofDigits cs = Nat.ofDigitChars 10 cs 0 := rfl

theorem ofDigits_toDigits (n : Nat) : ofDigits (Nat.toDigits 10 n) = n := by
  rw [ofDigits_eq, Nat.ofDigitChars_ten_toDigits]

theorem ofDigits_zeros_append (k : Nat) (cs : List Char) :
    ofDigits (List.replicate k '0' ++ cs) = ofDigits cs := by
  rw [ofDigits_eq, Nat.ofDigitChars_append, Nat.ofDigitChars_replicate_zero, Nat.mul_zero, ofDigits_eq]

theorem ofDigits_append_zeros (cs : List Char) (k : Nat) :
    ofDigits (cs ++ List.replicate k '0') = 10 ^ k * ofDigits cs := by
  rw [ofDigits_eq, Nat.ofDigitChars_append, Nat.ofDigitChars_replicate_zero, ofDigits_eq]

/-- The characters are digits, and there is at least one. -/
def AreDigits (cs : List Char) : Prop := cs ≠ [] ∧ ∀ c ∈ cs, c.isDigit = true

/-- A written number without sign and exponent: its digits before the point, and those after it if there
is one. -/
inductive Unsigned : List Char → List Char → List Char → Prop
  | whole {ds : List Char} : AreDigits ds → Unsigned ds ds []
  | point {ds ps : List Char} : AreDigits ds → AreDigits ps → Unsigned (ds ++ '.' :: ps) ds ps

/-- An unsigned number starts with a digit. -/
theorem Unsigned.exists_cons {cs ds ps : List Char} (h : Unsigned cs ds ps) :
    ∃ c r, cs = c :: r ∧ c.isDigit = true := by
  cases h with
  | whole hd =>
    obtain ⟨c, r, rfl⟩ := List.exists_cons_of_ne_nil hd.1
    exact ⟨c, r, rfl, hd.2 c List.mem_cons_self⟩
  | point hd hp =>
    obtain ⟨c, r, rfl⟩ := List.exists_cons_of_ne_nil hd.1
    exact ⟨c, r ++ '.' :: ps, rfl, hd.2 c List.mem_cons_self⟩

/-- Digits, a point and any number of digits are read as all the digits, those after the point as places. -/
theorem ofChars?_point {ds ps : List Char} (hd : AreDigits ds) (hp : ∀ c ∈ ps, c.isDigit = true) :
    ofChars? (ds ++ '.' :: ps) = some ⟨ofDigits (ds ++ ps), -(ps.length : Int)⟩ := by
  have hstop : Stops Char.isDigit ('.' :: ps) := by rintro c ⟨⟩; rfl
  have hend : Stops Char.isDigit [] := by rintro c ⟨⟩
  have htake := takeWhile_run hp hend
  have hdrop := dropWhile_run hp hend
  have hne : ds.isEmpty = false := List.isEmpty_eq_false_iff.mpr hd.1
  rw [List.append_nil] at htake hdrop
  simp only [Decimal.ofChars?, takeWhile_run hd.2 hstop, dropWhile_run hd.2 hstop, splitPoint,
    htake, hdrop, hne, Bool.false_and]
  rfl

/-- An unsigned number is read as all its digits, those after the point as places. -/
theorem Unsigned.ofChars? {cs ds ps : List Char} (h : Unsigned cs ds ps) :
    ofChars? cs = some ⟨ofDigits (ds ++ ps), -(ps.length : Int)⟩ := by
  cases h with
  | whole hd =>
    have hend : Stops Char.isDigit [] := by rintro c ⟨⟩
    have htake := takeWhile_run hd.2 hend
    have hdrop := dropWhile_run hd.2 hend
    have hne : cs.isEmpty = false := List.isEmpty_eq_false_iff.mpr hd.1
    rw [List.append_nil] at htake hdrop
    simp only [Decimal.ofChars?, htake, hdrop, splitPoint, hne, Bool.false_and]
    rfl
  | point hd hp => exact ofChars?_point hd hp.2

theorem areDigits_toDigits (n : Nat) : AreDigits (Nat.toDigits 10 n) :=
  ⟨Nat.toDigits_ne_nil, fun _ hc => Nat.isDigit_of_mem_toDigits (by decide) (by decide) hc⟩

section Zeros

variable {cs : List Char} (k : Nat)

theorem AreDigits.zeros_append (h : AreDigits cs) : AreDigits (List.replicate k '0' ++ cs) := by
  refine ⟨fun he => h.1 (List.append_eq_nil_iff.mp he).2, fun c hc => ?_⟩
  rcases List.mem_append.mp hc with hc | hc
  · rw [List.eq_of_mem_replicate hc]; rfl
  · exact h.2 c hc

theorem AreDigits.append_zeros (h : AreDigits cs) : AreDigits (cs ++ List.replicate k '0') := by
  refine ⟨fun he => h.1 (List.append_eq_nil_iff.mp he).1, fun c hc => ?_⟩
  rcases List.mem_append.mp hc with hc | hc
  · exact h.2 c hc
  · rw [List.eq_of_mem_replicate hc]; rfl

end Zeros

/-- Digits with some, but not all, of them after a point. -/
theorem Unsigned.split {cs : List Char} {k : Nat} (h : AreDigits cs) (hpos : 0 < k) (hk : k < cs.length) :
    Unsigned (cs.take (cs.length - k) ++ '.' :: cs.drop (cs.length - k))
      (cs.take (cs.length - k)) (cs.drop (cs.length - k)) := by
  refine .point ⟨List.ne_nil_of_length_pos ?_, fun c hc => h.2 c (List.mem_of_mem_take hc)⟩
    ⟨List.ne_nil_of_length_pos ?_, fun c hc => h.2 c (List.mem_of_mem_drop hc)⟩
  · rw [List.length_take]; omega
  · rw [List.length_drop]; omega

/-- **A decimal written out is an unsigned number of the same value.** -/
theorem unsigned_positional (d : Decimal) : ∃ ds ps, Unsigned d.positional ds ps ∧
    (⟨ofDigits (ds ++ ps), -(ps.length : Int)⟩ : Decimal).value = d.value := by
  obtain ⟨digits, exponent⟩ := d
  have hdigits := areDigits_toDigits digits
  cases exponent with
  | ofNat n =>
    refine ⟨Nat.toDigits 10 digits ++ List.replicate n '0', [], .whole (hdigits.append_zeros n), ?_⟩
    rw [List.append_nil, ofDigits_append_zeros, ofDigits_toDigits, value, value, mul_comm (10 ^ n)]
    push_cast
    rw [List.length_nil, Nat.cast_zero, neg_zero, zpow_zero, mul_one, Int.ofNat_eq_natCast,
      zpow_natCast]
  | negSucc n =>
    -- the zeros in front are as many as leave a digit before the point
    have hpadded := hdigits.zeros_append (n + 1 + 1 - (Nat.toDigits 10 digits).length)
    have hlen : n + 1 < (List.replicate (n + 1 + 1 - (Nat.toDigits 10 digits).length) '0' ++
        Nat.toDigits 10 digits).length := by
      rw [List.length_append, List.length_replicate]; omega
    have hsplit := Unsigned.split hpadded (Nat.succ_pos n) hlen
    refine ⟨_, _, hsplit, ?_⟩
    rw [List.take_append_drop, ofDigits_zeros_append, ofDigits_toDigits, List.length_drop,
      Nat.sub_sub_self (Nat.le_of_lt hlen)]
    rfl

end Decimal

namespace Binary64

open Decimal

theorem toLower_of_isDigit {c : Char} (h : c.isDigit = true) : c.toLower = c := by
  refine Char.toLower_eq_of_not_isUpper fun hupper => ?_
  have hle : c.toNat ≤ 57 := (Char.isDigit_iff_toNat.mp h).2
  simp only [Char.isUpper, decide_eq_true_eq] at hupper
  have hge : 65 ≤ c.toNat := UInt32.le_iff_toNat_le.mp hupper.1
  omega

/-- What starts with a digit is none of the names of infinity and of no number. -/
theorem magnitude?_digit {c : Char} (hc : c.isDigit = true) (r : List Char) :
    magnitude? (c :: r) = (Decimal.ofChars? (c :: r)).map Decimal.bits := by
  have hname : ∀ (a : Char) (name : List Char), a.isDigit = false →
      String.ofList ((c :: r).map Char.toLower) ≠ String.ofList (a :: name) := by
    intro a name ha he
    rw [String.ofList_inj, List.map_cons, toLower_of_isDigit hc] at he
    rw [(List.cons.inj he).1, ha] at hc
    exact Bool.false_ne_true hc
  unfold magnitude?
  split
  · next he => exact absurd he (hname 'i' ['n', 'f'] rfl)
  · next he => exact absurd he (hname 'i' _ rfl)
  · next he => exact absurd he (hname 'n' _ rfl)
  · rfl

/-- What starts with a digit has no sign. -/
theorem read?_digit {c : Char} (hc : c.isDigit = true) (r : List Char) :
    read? (c :: r) = (magnitude? (c :: r)).map (assemble false) := by
  have hminus : c ≠ '-' := by rintro rfl; revert hc; decide
  have hplus : c ≠ '+' := by rintro rfl; revert hc; decide
  unfold read?
  split
  · next he => exact absurd (List.cons.inj he).1 hminus
  · next he => exact absurd (List.cons.inj he).1 hplus
  · rfl

/-- An unsigned number is read as the bits of its decimal. -/
theorem magnitude?_unsigned {cs ds ps : List Char} (h : Unsigned cs ds ps) :
    magnitude? cs = some (Decimal.bits ⟨ofDigits (ds ++ ps), -(ps.length : Int)⟩) := by
  obtain ⟨c, r, rfl, hc⟩ := h.exists_cons
  rw [magnitude?_digit hc, h.ofChars?]
  rfl

/-- A minus in front of an unsigned number is its sign. -/
theorem read?_signed {cs ds ps : List Char} (h : Unsigned cs ds ps) (negative : Bool) :
    read? (if negative then '-' :: cs else cs) =
      some (assemble negative (Decimal.bits ⟨ofDigits (ds ++ ps), -(ps.length : Int)⟩)) := by
  cases negative with
  | true => rw [if_pos rfl, read?, magnitude?_unsigned h]; rfl
  | false =>
    obtain ⟨c, r, rfl, hc⟩ := h.exists_cons
    rw [if_neg Bool.false_ne_true, read?_digit hc, magnitude?_unsigned h]
    rfl

end Binary64

open Decimal Binary64

/-- **The text of a finite double** is an unsigned number, after a minus or not, and it is read as the
double itself. -/
theorem read?_numberText {x : Float} (h : x.isFinite = true) : ∃ (negative : Bool) (cs ds ps : List Char),
    Unsigned cs ds ps ∧ (numberText x).toList = (if negative then '-' :: cs else cs) ∧
      read? (numberText x).toList = some x := by
  obtain ⟨negative, mantissa, exponent, hx⟩ := (isFinite_iff x).mp h
  obtain ⟨ds, ps, hcs, hvalue⟩ := unsigned_positional (shortest mantissa exponent)
  have htext : (numberText x).toList =
      (if negative then '-' :: (shortest mantissa exponent).positional
        else (shortest mantissa exponent).positional) := by
    rw [numberText, numberTextWith, hx]
    exact String.toList_ofList
  refine ⟨negative, _, ds, ps, hcs, htext, ?_⟩
  rw [htext, read?_signed hcs, bits_congr hvalue, bits_shortest, assemble_nearestBits hx]

/-- The texts of the other doubles are names. -/
theorem numberText_of_not_isFinite {x : Float} (h : x.isFinite = false) :
    numberText x = "NaN" ∨ numberText x = "inf" ∨ numberText x = "-inf" := by
  rw [numberText, numberTextWith]
  cases hx : ofFloat x with
  | notANumber => exact .inl rfl
  | infinite negative => cases negative with
    | true => exact .inr (.inr rfl)
    | false => exact .inr (.inl rfl)
  | finite negative mantissa exponent =>
    rw [(isFinite_iff x).mpr ⟨negative, mantissa, exponent, hx⟩] at h
    cases h

end MusicLisp
