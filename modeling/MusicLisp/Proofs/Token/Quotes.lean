import MusicLisp.Proofs.Token.Longest

/-!
# Quotes behind backslashes

A string is gone through from the left, and a backslash takes the character after it. Which quote closes the string
can also be told from that quote alone: it is the first one behind an even number of backslashes, all that there are
in a row.

* `body_iff`: what can stand between quotes are the texts in which no quote closes, not ending in a lone backslash.
* `closed_iff`, `open_iff`: a string is closed by the first quote that closes, and without one it is open; an open
  string leaves out at most the lone backslash at the end.
-/

namespace MusicLisp.Lexeme

/-- **No quote closes a string** that starts before the text: each stands behind an odd number of backslashes. -/
def Unclosed (cs : List Char) : Prop := ∀ before after, cs = before ++ '"' :: after → slashes before % 2 = 1

theorem unclosed_nil : Unclosed [] := by
  intro before after h
  cases before <;> cases h

theorem unclosed_plain {c : Char} (hq : c ≠ '"') (hs : c ≠ '\\') {cs : List Char} :
    Unclosed (c :: cs) ↔ Unclosed cs := by
  constructor
  · rintro h before after rfl
    have hodd := h (c :: before) after rfl
    rwa [slashes_plain hs] at hodd
  · intro h before after heq
    cases before with
    | nil => exact absurd (List.cons.inj heq).1 hq
    | cons d before =>
      obtain ⟨rfl, rfl⟩ := List.cons.inj heq
      rw [slashes_plain hs]
      exact h before after rfl

theorem unclosed_pair (c : Char) {cs : List Char} : Unclosed ('\\' :: c :: cs) ↔ Unclosed cs := by
  constructor
  · rintro h before after rfl
    have hodd := h ('\\' :: c :: before) after rfl
    rwa [slashes_pair] at hodd
  · intro h before after heq
    match before, heq with
    | [], heq => exact absurd (List.cons.inj heq).1 (by decide)
    | [_], heq =>
      rw [← (List.cons.inj heq).1]
      rfl
    | a :: b :: before, heq =>
      obtain ⟨ha, heq⟩ := List.cons.inj heq
      obtain ⟨rfl, rfl⟩ := List.cons.inj heq
      rw [← ha, slashes_pair]
      exact h before after rfl

theorem slashes_concat (b : List Char) : slashes (b ++ ['\\']) = slashes b + 1 := by
  rw [slashes, slashes, List.reverse_append]
  rfl

/-- A lone backslash at the end takes nothing. -/
theorem Unclosed.concat {b : List Char} (h : Unclosed b) : Unclosed (b ++ ['\\']) := by
  intro before after heq
  obtain ⟨r, rfl, hr⟩ | ⟨r, hb, hr⟩ := List.append_eq_append_iff.mp heq
  · cases r with
    | nil => cases hr
    | cons d r => cases r <;> cases hr
  · cases r with
    | nil => cases hr
    | cons d r =>
      obtain ⟨rfl, rfl⟩ := List.cons.inj hr
      exact h before r hb

theorem Body.unclosed {b : List Char} (h : Body b) : Unclosed b ∧ slashes b % 2 = 0 := by
  induction h with
  | nil => exact ⟨unclosed_nil, rfl⟩
  | plain hq hs _ ih => exact ⟨(unclosed_plain hq hs).mpr ih.1, by rw [slashes_plain hs]; exact ih.2⟩
  | pair _ ih => exact ⟨(unclosed_pair _).mpr ih.1, by rw [slashes_pair]; exact ih.2⟩

/-- An open string takes the whole text, or all but a lone backslash at its end. -/
theorem body_of_open {n m : Nat} {cs : List Char} (h : stringBody n cs = (false, m)) :
    Body cs ∧ m = n + cs.length ∨ ∃ b, Body b ∧ cs = b ++ ['\\'] ∧ m = n + b.length := by
  fun_induction stringBody n cs with
  | case1 n =>
    cases h
    exact .inl ⟨.nil, rfl⟩
  | case2 n r => cases h
  | case3 n =>
    cases h
    exact .inr ⟨[], .nil, rfl, rfl⟩
  | case4 n c r ih =>
    obtain ⟨hr, rfl⟩ | ⟨b, hb, rfl, rfl⟩ := ih h
    · exact .inl ⟨.pair hr, by rw [List.length_cons, List.length_cons]; omega⟩
    · exact .inr ⟨'\\' :: c :: b, .pair hb, rfl, by rw [List.length_cons, List.length_cons]; omega⟩
  | case5 n c r hq hlast hpair ih =>
    have hs : c ≠ '\\' := ne_slash hlast hpair
    obtain ⟨hr, rfl⟩ | ⟨b, hb, rfl, rfl⟩ := ih h
    · exact .inl ⟨.plain hq hs hr, by rw [List.length_cons]; omega⟩
    · exact .inr ⟨c :: b, .plain hq hs hb, rfl, by rw [List.length_cons]; omega⟩

theorem unclosed_of_open {m : Nat} {cs : List Char} (h : stringBody 0 cs = (false, m)) :
    Unclosed cs ∧ m = cs.length - slashes cs % 2 := by
  obtain ⟨hbody, hm⟩ | ⟨b, hb, rfl, hm⟩ := body_of_open h
  · obtain ⟨hopen, heven⟩ := hbody.unclosed
    exact ⟨hopen, by omega⟩
  · obtain ⟨hopen, heven⟩ := hb.unclosed
    have hlength : (b ++ ['\\']).length = b.length + 1 := List.length_append
    have hslashes := slashes_concat b
    exact ⟨hopen.concat, by omega⟩

/-- **What can stand between quotes**, told from its quotes and its end. -/
theorem body_iff {b : List Char} : Body b ↔ Unclosed b ∧ slashes b % 2 = 0 := by
  refine ⟨Body.unclosed, ?_⟩
  rintro ⟨hopen, heven⟩
  cases hbody : stringBody 0 b with
  | mk closed m =>
    cases closed with
    | true =>
      obtain ⟨b', rest, hb, hb', -⟩ := body_of_stringBody hbody
      have hodd := hopen b' rest hb
      have heven' := hb'.unclosed.2
      omega
    | false =>
      obtain ⟨hb, -⟩ | ⟨b', hb', rfl, -⟩ := body_of_open hbody
      · exact hb
      · rw [slashes_concat] at heven
        have heven' := hb'.unclosed.2
        omega

/-- **A string is closed** by the first quote behind an even number of backslashes. -/
theorem closed_iff {m : Nat} {cs : List Char} : stringBody 0 cs = (true, m) ↔
    ∃ b rest, cs = b ++ '"' :: rest ∧ Unclosed b ∧ slashes b % 2 = 0 ∧ m = b.length := by
  constructor
  · intro h
    obtain ⟨b, rest, hcs, hb, hm⟩ := body_of_stringBody h
    obtain ⟨hopen, heven⟩ := hb.unclosed
    exact ⟨b, rest, hcs, hopen, heven, by omega⟩
  · rintro ⟨b, rest, rfl, hopen, heven, rfl⟩
    rw [(body_iff.mpr ⟨hopen, heven⟩).stringBody_append, Nat.zero_add]
    rfl

/-- **A string is open** if no quote closes it. -/
theorem open_iff {m : Nat} {cs : List Char} :
    stringBody 0 cs = (false, m) ↔ Unclosed cs ∧ m = cs.length - slashes cs % 2 := by
  refine ⟨unclosed_of_open, ?_⟩
  rintro ⟨hopen, rfl⟩
  cases hbody : stringBody 0 cs with
  | mk closed m =>
    cases closed with
    | true =>
      obtain ⟨b, rest, hcs, -, heven, -⟩ := closed_iff.mp hbody
      have hodd := hopen b rest hcs
      omega
    | false => rw [(unclosed_of_open hbody).2]

end MusicLisp.Lexeme
