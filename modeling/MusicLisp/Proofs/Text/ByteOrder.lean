import Mathlib.Data.String.Basic

/-!
# The order of texts is the order of their bytes

Texts are compared character by character. Their bytes in UTF-8 compare the same way: the first byte of a character says
how many there are and grows with the character, and the digits of a character follow it, the high ones first.

* `first`, `following`: the first byte of a character and those after it (`encode_eq`).
* `encode_append_lt`: the bytes of a smaller character, whatever follows, come before those of a larger one.
* `lt_iff_bytes_lt`: **a text is below another exactly if its bytes are**.
-/

namespace MusicLisp.Text

/-- The bytes of a text in UTF-8. -/
def bytes (s : String) : List UInt8 := s.toByteArray.data.toList

theorem bytes_eq (s : String) : bytes s = s.toList.flatMap String.utf8EncodeChar := by
  unfold bytes
  conv_lhs => rw [← String.ofList_toList (s := s)]
  rw [String.toByteArray_ofList, List.utf8Encode, List.data_toByteArray, List.toList_toArray]

/-- Of two lists of bytes the first ones that differ decide. -/
theorem cons_lt_cons {a b : Nat} {l l' : List UInt8} (hb : b < 256) (h : a < b ∨ a = b ∧ l < l') :
    UInt8.ofNat a :: l < UInt8.ofNat b :: l' := by
  rw [List.cons_lt_cons_iff]
  rcases h with h | ⟨rfl, h⟩
  · refine .inl (UInt8.lt_iff_toNat_lt.mpr ?_)
    rwa [UInt8.toNat_ofNat_of_lt' hb, UInt8.toNat_ofNat_of_lt' (Nat.lt_trans h hb)]
  · exact .inr ⟨rfl, h⟩

/-! ### The bytes of a character -/

/-- The last digits of a number to the base 64, each as a byte that follows another. -/
def following (v : Nat) : Nat → List UInt8
  | 0 => []
  | n + 1 => UInt8.ofNat (v / 64 ^ n % 64 + 128) :: following v n

/-- How many bytes follow the first one of a character. -/
def followers (v : Nat) : Nat := if v ≤ 127 then 0 else if v ≤ 2047 then 1 else if v ≤ 65535 then 2 else 3

/-- What the first byte has on top of its digits, to say how many follow. -/
def mark : Nat → Nat
  | 0 => 0
  | 1 => 192
  | 2 => 224
  | _ => 240

/-- The first byte of a character. -/
def first (v : Nat) : Nat := v / 64 ^ followers v + mark (followers v)

variable {v w : Nat}

/-- The ranges of characters with the same number of bytes. -/
theorem first_cases (hv : v < 1114112) :
    (v ≤ 127 ∧ followers v = 0 ∧ first v = v) ∨
    (127 < v ∧ v ≤ 2047 ∧ followers v = 1 ∧ first v = v / 64 + 192) ∨
    (2047 < v ∧ v ≤ 65535 ∧ followers v = 2 ∧ first v = v / 4096 + 224) ∨
    (65535 < v ∧ v < 1114112 ∧ followers v = 3 ∧ first v = v / 262144 + 240) := by
  unfold first followers
  split
  · exact .inl ⟨‹_›, rfl, Nat.div_one v⟩
  · split
    · exact .inr (.inl ⟨by omega, ‹_›, rfl, rfl⟩)
    · split
      · exact .inr (.inr (.inl ⟨by omega, ‹_›, rfl, rfl⟩))
      · exact .inr (.inr (.inr ⟨by omega, hv, rfl, rfl⟩))

theorem val_lt (c : Char) : c.val.toNat < 1114112 := by
  rcases c.valid with hsmall | ⟨-, hlarge⟩
  · exact Nat.lt_trans hsmall (by decide)
  · exact hlarge

theorem encode_eq (c : Char) : String.utf8EncodeChar c =
    UInt8.ofNat (first c.val.toNat) :: following c.val.toNat (followers c.val.toNat) := by
  have hv := val_lt c
  unfold String.utf8EncodeChar
  dsimp only
  generalize c.val.toNat = v at *
  obtain ⟨hle, hn, hfirst⟩ | ⟨hlt, hle, hn, hfirst⟩ | ⟨hlt, hle, hn, hfirst⟩ | ⟨hlt, hle, hn, hfirst⟩ := first_cases hv
  · rw [hn, hfirst, if_pos hle]
    rfl
  · rw [hn, hfirst, if_neg (by omega), if_pos hle, Nat.mod_eq_of_lt (by omega : v / 64 < 32)]
    simp [following]
  · rw [hn, hfirst, if_neg (by omega), if_neg (by omega), if_pos hle, Nat.mod_eq_of_lt (by omega : v / 4096 < 16)]
    simp [following]
  · rw [hn, hfirst, if_neg (by omega), if_neg (by omega), if_neg (by omega),
      Nat.mod_eq_of_lt (by omega : v / 262144 < 8)]
    simp [following]

/-- The first byte grows with the character. -/
theorem first_le (h : v < w) (hw : w < 1114112) : first v ≤ first w := by
  have hv := first_cases (Nat.lt_trans h hw)
  have hw := first_cases hw
  omega

theorem first_lt (hv : v < 1114112) : first v < 256 := by
  have hv := first_cases hv
  omega

/-- The first byte says how many follow. -/
theorem followers_eq (hv : v < 1114112) (hw : w < 1114112) (h : first v = first w) : followers v = followers w := by
  have hv := first_cases hv
  have hw := first_cases hw
  omega

/-- Where two numbers do not differ in front, the first of the last digits that differ decides. -/
theorem following_append_lt {n : Nat} (hfront : v / 64 ^ n = w / 64 ^ n) (h : v < w) (r r' : List UInt8) :
    following v n ++ r < following w n ++ r' := by
  induction n with
  | zero =>
    rw [Nat.pow_zero, Nat.div_one, Nat.div_one] at hfront
    exact absurd hfront (Nat.ne_of_lt h)
  | succ n ih =>
    rw [Nat.pow_succ, ← Nat.div_div_eq_div_mul, ← Nat.div_div_eq_div_mul] at hfront
    have hle : v / 64 ^ n ≤ w / 64 ^ n := Nat.div_le_div_right (Nat.le_of_lt h)
    refine cons_lt_cons (by omega) ?_
    rcases Nat.lt_or_eq_of_le hle with hdigit | hdigit
    · exact .inl (by omega)
    · exact .inr ⟨by rw [hdigit], ih hdigit⟩

/-- **The bytes of a smaller character** come before those of a larger one. -/
theorem encode_append_lt {c d : Char} (h : c < d) (r r' : List UInt8) :
    String.utf8EncodeChar c ++ r < String.utf8EncodeChar d ++ r' := by
  have hlt : c.val.toNat < d.val.toNat := h
  rw [encode_eq, encode_eq]
  refine cons_lt_cons (first_lt (val_lt d)) ?_
  rcases Nat.lt_or_eq_of_le (first_le hlt (val_lt d)) with hfirst | hfirst
  · exact .inl hfirst
  · have hn := followers_eq (val_lt c) (val_lt d) hfirst
    have hfront : c.val.toNat / 64 ^ followers c.val.toNat = d.val.toNat / 64 ^ followers c.val.toNat := by
      unfold first at hfirst
      rw [← hn] at hfirst
      exact Nat.add_right_cancel hfirst
    exact .inr ⟨hfirst, hn ▸ following_append_lt hfront hlt r r'⟩

/-! ### The bytes of a text -/

theorem flatMap_encode_lt {cs ds : List Char} (h : cs < ds) :
    cs.flatMap String.utf8EncodeChar < ds.flatMap String.utf8EncodeChar := by
  induction h with
  | @nil d ds =>
    obtain ⟨b, r, hb⟩ := List.exists_cons_of_ne_nil String.utf8EncodeChar_ne_nil
    rw [List.flatMap_cons, hb]
    exact List.nil_lt_cons b _
  | rel hcd =>
    rw [List.flatMap_cons, List.flatMap_cons]
    exact encode_append_lt hcd _ _
  | cons _ ih =>
    rw [List.flatMap_cons, List.flatMap_cons]
    exact List.append_left_lt ih

/-- **A text is below another exactly if its bytes are.** -/
theorem lt_iff_bytes_lt {s t : String} : s < t ↔ bytes s < bytes t := by
  have hmono : ∀ {s t : String}, s < t → bytes s < bytes t := fun h => by
    rw [bytes_eq, bytes_eq]
    exact flatMap_encode_lt h
  refine ⟨hmono, fun h => ?_⟩
  rcases Std.lt_trichotomy s t with hlt | rfl | hgt
  · exact hlt
  · exact absurd h (List.lt_irrefl _)
  · exact absurd (hmono hgt) (List.lt_asymm h)

end MusicLisp.Text
