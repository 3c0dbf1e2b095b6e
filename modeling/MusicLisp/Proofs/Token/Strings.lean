import MusicLisp.Form
import MusicLisp.Token.Piece

/-!
# Strings between source and text

What a scanned string can hold, and what becomes of it when it is written and scanned again.

A backslash in a source string takes the character after it, and `unescape` keeps every pair but `\"` and
`\n`. So a decoded string falls from the left into plain characters and pairs of a backslash and a character
that is neither a quote nor an `n` (`Decoded`). Writing escapes quotes and newlines and leaves backslashes
alone. That closes the string at the right quote (`stringBody_escape`), but a newline that is the second half
of a pair turns into an `n` behind two backslashes.

* `unescape_escape_iff`: a decoded string comes back from its source if and only if no newline in it stands
  behind an odd number of backslashes.
-/

namespace MusicLisp.Lexeme

/-- A character inside quotes that needs no escape. -/
theorem escapeChar_of_ne {c : Char} (hq : c ≠ '"') (hn : c ≠ '\n') : escapeChar c = [c] := by
  rw [escapeChar, if_neg hq, if_neg hn]

theorem unescape_plain {c : Char} (hc : c ≠ '\\') (r : List Char) :
    unescape (c :: r) = c :: unescape r := by
  rw [unescape] <;> simp [hc]

theorem unescape_pair {c : Char} (hq : c ≠ '"') (hn : c ≠ 'n') (r : List Char) :
    unescape ('\\' :: c :: r) = '\\' :: c :: unescape r := by
  rw [unescape] <;> simp [hq, hn]

theorem stringBody_pair (n : Nat) (c : Char) (r : List Char) :
    stringBody n ('\\' :: c :: r) = stringBody (n + 2) r := by
  rw [stringBody]

theorem stringBody_plain {c : Char} (hq : c ≠ '"') (hc : c ≠ '\\') (n : Nat) (r : List Char) :
    stringBody n (c :: r) = stringBody (n + 1) r := by
  rw [stringBody] <;> simp [hq, hc]

/-- A character that is neither a lone backslash at the end nor the first of a pair is no backslash. -/
theorem ne_slash {c : Char} {r : List Char} (hlast : c = '\\' → r = [] → False)
    (hpair : ∀ d r', c = '\\' → r = d :: r' → False) : c ≠ '\\' := by
  intro hc
  cases r with
  | nil => exact hlast hc rfl
  | cons d r => exact hpair d r hc rfl

/-! ### Decoded strings -/

/-- **What a decoded string is made of:** plain characters, and pairs of a backslash and a character that
makes no escape with it. -/
inductive Decoded : List Char → Prop
  | nil : Decoded []
  | plain {c : Char} {t : List Char} (hc : c ≠ '\\') (ht : Decoded t) : Decoded (c :: t)
  | pair {c : Char} {t : List Char} (hq : c ≠ '"') (hn : c ≠ 'n') (ht : Decoded t) :
    Decoded ('\\' :: c :: t)

/-- What stands between the quotes of a scanned string decodes to a decoded string. -/
theorem decoded_unescape (n m : Nat) (cs : List Char) (h : stringBody n cs = (true, m)) :
    n ≤ m ∧ Decoded (unescape (cs.take (m - n))) := by
  fun_induction stringBody n cs with
  | case1 n => cases h
  | case2 n r =>
    cases h
    rw [Nat.sub_self, List.take_zero]
    exact ⟨Nat.le_refl _, .nil⟩
  | case3 n => cases h
  | case4 n c r ih =>
    obtain ⟨hle, hr⟩ := ih h
    refine ⟨by omega, ?_⟩
    rw [show m - n = m - (n + 2) + 2 by omega, List.take_succ_cons, List.take_succ_cons]
    by_cases hq : c = '"'
    · subst hq
      exact .plain (by decide) hr
    · by_cases hn : c = 'n'
      · subst hn
        exact .plain (by decide) hr
      · rw [unescape_pair hq hn]
        exact .pair hq hn hr
  | case5 n c r hq hlast hpair ih =>
    have hc : c ≠ '\\' := ne_slash hlast hpair
    obtain ⟨hle, hr⟩ := ih h
    refine ⟨by omega, ?_⟩
    rw [show m - n = m - (n + 1) + 1 by omega, List.take_succ_cons, unescape_plain hc]
    exact .plain hc hr

/-! ### Newlines behind backslashes -/

/-- The number of backslashes in a row at the end of a text. -/
def slashes (before : List Char) : Nat := (before.reverse.takeWhile (· = '\\')).length

/-- **Some newline stands behind an odd number of backslashes**, all that there are in a row. -/
def OddNewline (t : List Char) : Prop :=
  ∃ before after, t = before ++ '\n' :: after ∧ slashes before % 2 = 1

theorem slashes_plain {c : Char} (hc : c ≠ '\\') (before : List Char) :
    slashes (c :: before) = slashes before := by
  rw [slashes, slashes, List.reverse_cons, List.takeWhile_append]
  split
  · next h =>
    rw [List.takeWhile_cons, decide_eq_false hc, List.length_append, h]
    rfl
  · rfl

/-- A pair at the front does not change whether the backslashes at the end are odd in number: it is two
backslashes or it ends with something else. -/
theorem slashes_pair (c : Char) (before : List Char) :
    slashes ('\\' :: c :: before) % 2 = slashes before % 2 := by
  have hfront : ('\\' :: c :: before).reverse = before.reverse ++ [c, '\\'] := by simp
  rw [slashes, slashes, hfront, List.takeWhile_append]
  split
  · next h =>
    rw [List.length_append, h]
    by_cases hc : c = '\\'
    · subst hc
      exact Nat.add_mod_right _ 2
    · rw [List.takeWhile_cons, decide_eq_false hc]
      rfl
  · rfl

theorem oddNewline_plain {c : Char} (hc : c ≠ '\\') (t : List Char) :
    OddNewline (c :: t) ↔ OddNewline t := by
  constructor
  · rintro ⟨before, after, ht, hodd⟩
    cases before with
    | nil => cases hodd
    | cons d before =>
      obtain ⟨rfl, rfl⟩ := List.cons.inj ht
      rw [slashes_plain hc] at hodd
      exact ⟨before, after, rfl, hodd⟩
  · rintro ⟨before, after, rfl, hodd⟩
    exact ⟨c :: before, after, rfl, by rw [slashes_plain hc]; exact hodd⟩

theorem oddNewline_pair (c : Char) (t : List Char) :
    OddNewline ('\\' :: c :: t) ↔ c = '\n' ∨ OddNewline t := by
  constructor
  · rintro ⟨before, after, ht, hodd⟩
    match before, ht, hodd with
    | [], ht, _ => exact absurd (List.cons.inj ht).1 (by decide)
    | [_], ht, _ => exact .inl (List.cons.inj (List.cons.inj ht).2).1
    | a :: b :: before, ht, hodd =>
      obtain ⟨ha, ht⟩ := List.cons.inj ht
      obtain ⟨rfl, rfl⟩ := List.cons.inj ht
      rw [← ha, slashes_pair] at hodd
      exact .inr ⟨before, after, rfl, hodd⟩
  · rintro (rfl | ⟨before, after, rfl, hodd⟩)
    · exact ⟨['\\'], t, rfl, rfl⟩
    · exact ⟨'\\' :: c :: before, after, rfl, by rw [slashes_pair]; exact hodd⟩

/-! ### Writing and scanning again -/

theorem escapeChar_newline : escapeChar '\n' = ['\\', 'n'] := rfl

/-- A plain character, written, is one character or an escape pair, and scanned again it is itself. -/
theorem unescape_escapeChar {c : Char} (hc : c ≠ '\\') (r : List Char) :
    unescape (escapeChar c ++ r) = c :: unescape r := by
  by_cases hq : c = '"'
  · subst hq; rfl
  · by_cases hn : c = '\n'
    · subst hn; rfl
    · rw [escapeChar_of_ne hq hn]
      exact unescape_plain hc r

theorem stringBody_escapeChar {c : Char} (hc : c ≠ '\\') (n : Nat) (r : List Char) :
    stringBody n (escapeChar c ++ r) = stringBody (n + (escapeChar c).length) r := by
  by_cases hq : c = '"'
  · subst hq; exact stringBody_pair n '"' r
  · by_cases hn : c = '\n'
    · subst hn; exact stringBody_pair n 'n' r
    · rw [escapeChar_of_ne hq hn]
      exact stringBody_plain hq hc n r

theorem escapeChar_slash : escapeChar '\\' = ['\\'] := rfl

/-- A pair, written, does not end the string. -/
theorem stringBody_slash {c : Char} (hq : c ≠ '"') (n : Nat) (r : List Char) :
    stringBody n ('\\' :: (escapeChar c ++ r)) = stringBody (n + (1 + (escapeChar c).length)) r := by
  by_cases hn : c = '\n'
  · subst hn
    exact (stringBody_pair n '\\' ('n' :: r)).trans (stringBody_plain (by decide) (by decide) _ r)
  · rw [escapeChar_of_ne hq hn]
    exact stringBody_pair n c r

section Written

variable {t : List Char} (h : Decoded t)
include h

/-- A decoded string, written, ends at the quote behind it. -/
theorem stringBody_escape (n : Nat) (rest : List Char) :
    stringBody n (t.flatMap escapeChar ++ '"' :: rest) =
      (true, n + (t.flatMap escapeChar).length) := by
  induction h generalizing n with
  | nil => rfl
  | plain hc _ ih =>
    rw [List.flatMap_cons, List.append_assoc, stringBody_escapeChar hc, ih, List.length_append,
      Nat.add_assoc]
  | pair hq _ _ ih =>
    rw [List.flatMap_cons, List.flatMap_cons, escapeChar_slash, List.singleton_append,
      List.cons_append, List.append_assoc, stringBody_slash hq, ih, List.length_cons,
      List.length_append]
    congr 1
    omega

/-- **A decoded string comes back** from its source if and only if no newline in it stands behind an odd
number of backslashes. -/
theorem unescape_escape_iff : unescape (t.flatMap escapeChar) = t ↔ ¬ OddNewline t := by
  induction h with
  | nil =>
    refine iff_of_true rfl ?_
    rintro ⟨before, after, ht, -⟩
    exact absurd ht (by simp)
  | plain hc _ ih =>
    rw [List.flatMap_cons, unescape_escapeChar hc, oddNewline_plain hc, ← ih, List.cons.injEq]
    exact and_iff_right rfl
  | @pair c t hq hn _ ih =>
    rw [List.flatMap_cons, List.flatMap_cons, escapeChar_slash, oddNewline_pair]
    by_cases hnl : c = '\n'
    · subst hnl
      rw [escapeChar_newline]
      have hsecond : unescape ('\\' :: '\\' :: 'n' :: t.flatMap escapeChar) =
          '\\' :: '\\' :: unescape ('n' :: t.flatMap escapeChar) :=
        unescape_pair (by decide) (by decide) _
      refine iff_of_false ?_ fun h => h (.inl rfl)
      intro he
      have hne := (List.cons.inj (List.cons.inj (hsecond.symm.trans he)).2).1
      exact absurd hne (by decide)
    · rw [escapeChar_of_ne hq hnl, or_iff_right hnl, ← ih]
      change unescape ('\\' :: c :: t.flatMap escapeChar) = _ ↔ _
      rw [unescape_pair hq hn, List.cons.injEq, List.cons.injEq]
      exact (and_iff_right rfl).trans (and_iff_right rfl)

end Written

end MusicLisp.Lexeme
