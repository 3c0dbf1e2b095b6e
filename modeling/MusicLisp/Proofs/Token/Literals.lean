import MusicLisp.Proofs.Token.Passing
import MusicLisp.Proofs.Token.Quotes

/-!
# String literals

A string literal can be told without going through it: it ends at the first quote behind an even number of backslashes
(`Closes`), and its text is what stands before that quote, decoded pair by pair (`Decodes`).

* `closes_iff_body`, `unclosed_iff`: the quote that closes, by what can stand between quotes; without one, no quote
  of the text closes.
* `Body.decodes_iff`, `Decodes.byteLength_le`: what can stand between quotes decodes to one text, which is no longer.
* `judge`, `front_quote_judged`: a second way to the same verdict. The longest match of the pattern of strings may end in
  a quote that a backslash has taken; it is judged by its last character, and by whether a backslash is left
  over at the end when it is decoded.
* `tokenize_string_exact`: **the literals of a source**, wherever its scan comes to a quote.
-/

namespace MusicLisp

namespace Lexeme

/-! ### The quote that closes -/

/-- **The quote behind `b` closes a string** whose first quote stands before the text: it is the first quote of the
text behind an even number of backslashes, all that there are in a row. -/
structure Closes (b cs : List Char) : Prop where
  stands : b ++ ['"'] <+: cs
  even : slashes b % 2 = 0
  first : ∀ b', b' ++ ['"'] <+: cs → slashes b' % 2 = 0 → b.length ≤ b'.length

theorem quote_stands_iff {b cs : List Char} : b ++ ['"'] <+: cs ↔ ∃ rest, cs = b ++ '"' :: rest := by
  refine exists_congr fun rest => ?_
  rw [List.append_assoc, List.singleton_append, eq_comm]

/-- **The quote that closes** is the one behind what can stand between quotes. -/
theorem closes_iff_body {b cs : List Char} : Closes b cs ↔ Body b ∧ ∃ rest, cs = b ++ '"' :: rest := by
  rw [← quote_stands_iff]
  constructor
  · intro h
    refine ⟨body_iff.mpr ⟨?_, h.even⟩, h.stands⟩
    rintro before after rfl
    by_contra hodd
    have hstands : before ++ ['"'] <+: cs :=
      (quote_stands_iff.mpr ⟨after ++ ['"'], by rw [List.append_assoc, List.cons_append]⟩).trans h.stands
    have hle := h.first before hstands (by omega)
    simp only [List.length_append, List.length_cons] at hle
    omega
  · rintro ⟨hb, hstands⟩
    obtain ⟨hopen, heven⟩ := hb.unclosed
    refine ⟨hstands, heven, fun b' hstands' heven' => ?_⟩
    by_contra hlt
    -- a quote before it would stand in `b`
    have hwithin : b' ++ ['"'] <+: b := by
      refine List.prefix_of_prefix_length_le hstands' ((List.prefix_append b ['"']).trans hstands) ?_
      simp only [List.length_append, List.length_singleton]
      omega
    obtain ⟨after, hafter⟩ := quote_stands_iff.mp hwithin
    have hodd := hopen b' after hafter
    omega

/-- **No quote closes** if and only if none is the first to close. -/
theorem unclosed_iff {cs : List Char} : Unclosed cs ↔ ∀ b, ¬ Closes b cs := by
  constructor
  · intro hopen b h
    obtain ⟨rest, hrest⟩ := quote_stands_iff.mp h.stands
    have hodd := hopen b rest hrest
    have heven := h.even
    omega
  · intro h
    cases hbody : stringBody 0 cs with
    | mk closed m =>
      cases closed with
      | true =>
        obtain ⟨b, rest, hcs, hb, -⟩ := body_of_stringBody hbody
        exact absurd (closes_iff_body.mpr ⟨hb, rest, hcs⟩) (h b)
      | false => exact (open_iff.mp hbody).1

/-! ### Decoding -/

/-- **What stands between quotes decodes to a text**, from the left: a quote or an `n` that a backslash takes is a quote
or a newline, and any other pair stays as its two characters. A backslash at the end takes nothing, so there is no case
for it. -/
inductive Decodes : List Char → List Char → Prop
  | nil : Decodes [] []
  | plain {c : Char} {b t : List Char} (hs : c ≠ '\\') (h : Decodes b t) : Decodes (c :: b) (c :: t)
  | quote {b t : List Char} (h : Decodes b t) : Decodes ('\\' :: '"' :: b) ('"' :: t)
  | newline {b t : List Char} (h : Decodes b t) : Decodes ('\\' :: 'n' :: b) ('\n' :: t)
  | pair {c : Char} {b t : List Char} (hq : c ≠ '"') (hn : c ≠ 'n') (h : Decodes b t) :
    Decodes ('\\' :: c :: b) ('\\' :: c :: t)

namespace Decodes

variable {b t : List Char} (h : Decodes b t)
include h

theorem unescape_eq : unescape b = t := by
  induction h with
  | nil => rfl
  | plain hs _ ih => rw [unescape_plain hs, ih]
  | quote _ ih => rw [unescape, ih]
  | newline _ ih => rw [unescape, ih]
  | pair hq hn _ ih => rw [unescape_pair hq hn, ih]

/-- **Decoding never makes a text longer** in bytes. -/
theorem byteLength_le : byteLength t ≤ byteLength b := by
  induction h with
  | nil => exact le_rfl
  | plain _ _ ih =>
    rw [byteLength_cons, byteLength_cons]
    omega
  | quote _ ih | pair _ _ _ ih =>
    simp only [byteLength_cons]
    omega
  | newline _ ih =>
    have hnewline : '\n'.utf8Size = 1 := rfl
    have hn := 'n'.utf8Size_pos
    simp only [byteLength_cons]
    omega

/-- No backslash is left over at the end. -/
theorem slashes_even : slashes b % 2 = 0 := by
  induction h with
  | nil => rfl
  | plain hs _ ih => rwa [slashes_plain hs]
  | quote _ ih | newline _ ih | pair _ _ _ ih => rwa [slashes_pair]

end Decodes

theorem Body.decodes {b : List Char} (h : Body b) : Decodes b (unescape b) := by
  induction h with
  | nil => exact .nil
  | plain _ hs _ ih =>
    rw [unescape_plain hs]
    exact .plain hs ih
  | @pair c r _ ih =>
    by_cases hq : c = '"'
    · subst hq
      exact .quote ih
    · by_cases hn : c = 'n'
      · subst hn
        exact .newline ih
      · rw [unescape_pair hq hn]
        exact .pair hq hn ih

/-- **What can stand between quotes** decodes to one text. -/
theorem Body.decodes_iff {b t : List Char} (h : Body b) : Decodes b t ↔ unescape b = t :=
  ⟨Decodes.unescape_eq, fun ht => ht ▸ h.decodes⟩

/-! ### Judging the longest match -/

/-- The text of a string from what stands between its quotes, unless a backslash at the end is left over. -/
def unescape? : List Char → Option (List Char)
  | [] => some []
  | ['\\'] => none
  | '\\' :: '"' :: r => (unescape? r).map ('"' :: ·)
  | '\\' :: 'n' :: r => (unescape? r).map ('\n' :: ·)
  | '\\' :: c :: r => (unescape? r).map fun t => '\\' :: c :: t
  | c :: r => (unescape? r).map (c :: ·)

theorem unescape?_eq_some_iff {b t : List Char} : unescape? b = some t ↔ Decodes b t := by
  constructor
  · intro h
    fun_induction unescape? b generalizing t with
    | case1 => cases h; exact .nil
    | case2 => cases h
    | case3 r ih =>
      obtain ⟨t, ht, rfl⟩ := Option.map_eq_some_iff.mp h
      exact .quote (ih ht)
    | case4 r ih =>
      obtain ⟨t, ht, rfl⟩ := Option.map_eq_some_iff.mp h
      exact .newline (ih ht)
    | case5 c r hq hn ih =>
      obtain ⟨t, ht, rfl⟩ := Option.map_eq_some_iff.mp h
      exact .pair hq hn (ih ht)
    | case6 c r hlone hquote hnewline hpair ih =>
      obtain ⟨t, ht, rfl⟩ := Option.map_eq_some_iff.mp h
      exact .plain (ne_slash hlone hpair) (ih ht)
  · intro h
    induction h with
    | nil => rfl
    | plain hs _ ih => rw [unescape?, ih] <;> simp [hs]
    | quote _ ih => rw [unescape?, ih]; rfl
    | newline _ ih => rw [unescape?, ih]; rfl
    | pair hq hn _ ih => rw [unescape?, ih] <;> simp [hq, hn]

/-- **The verdict on a match** of the pattern of strings: it must be more than its first quote and end in a quote, and
what stands between them must leave no backslash over. -/
def judge (slice : List Char) : Piece :=
  if slice.length = 1 ∨ slice.getLast? ≠ some '"' then .broken .unterminatedString
  else match unescape? slice.tail.dropLast with
    | some t => .lexeme (.atom (.string (String.ofList t)))
    | none => .broken .unterminatedString

/-- A match that ends in a quote is a string if what stands before that quote can be decoded. -/
theorem judge_closed {b t : List Char} (h : Decodes b t) :
    judge ('"' :: (b ++ ['"'])) = .lexeme (.atom (.string (String.ofList t))) := by
  have hlast : ('"' :: (b ++ ['"'])).getLast? = some '"' := List.getLast?_concat (l := '"' :: b)
  have hbetween : ('"' :: (b ++ ['"'])).tail.dropLast = b := List.dropLast_concat
  rw [judge, hlast, hbetween, unescape?_eq_some_iff.mpr h]
  simp

/-- A match in which no quote closes is open, also if it ends in a quote. -/
theorem judge_open {b : List Char} (h : Unclosed b) : judge ('"' :: b) = .broken .unterminatedString := by
  rcases List.eq_nil_or_concat' b with rfl | ⟨b, d, rfl⟩
  · rfl
  · have hlast : ('"' :: (b ++ [d])).getLast? = some d := List.getLast?_concat (l := '"' :: b)
    have hbetween : ('"' :: (b ++ [d])).tail.dropLast = b := List.dropLast_concat
    rw [judge, hlast, hbetween]
    by_cases hd : d = '"'
    · subst hd
      -- a backslash takes the quote, so it is left over when the quote is cut off
      have hodd := h b [] rfl
      cases hdecoded : unescape? b with
      | none => simp
      | some t =>
        have heven := (unescape?_eq_some_iff.mp hdecoded).slashes_even
        omega
    · simp [hd]

end Lexeme

open Lexeme

namespace Piece

/-- **Judging the longest match** of the pattern of strings comes to what the scanner takes. -/
theorem front_quote_judged (cs : List Char) : ∃ slice rest, cs = slice ++ rest ∧
    '"' :: slice ∈ TokenClass.string.pattern ∧
    (∀ more rest', more ≠ [] → rest = more ++ rest' → '"' :: (slice ++ more) ∉ TokenClass.string.pattern) ∧
    front '"' cs = (judge ('"' :: slice), slice.length) := by
  obtain ⟨slice, rest, rfl, hmem, hfront⟩ : ∃ slice rest, cs = slice ++ rest ∧
      '"' :: slice ∈ TokenClass.string.pattern ∧ front '"' cs = (judge ('"' :: slice), slice.length) := by
    cases hbody : stringBody 0 cs with
    | mk closed m =>
      cases closed with
      | true =>
        obtain ⟨b, rest, rfl, hb, rfl⟩ := body_of_stringBody hbody
        refine ⟨b ++ ['"'], rest, by simp, mem_string.mpr ⟨b, hb, .inr rfl⟩, ?_⟩
        rw [judge_closed hb.decodes, front_string hbody, Nat.zero_add, List.take_left, List.length_append]
        rfl
      | false =>
        obtain ⟨hb, rfl⟩ | ⟨b, hb, rfl, rfl⟩ := body_of_open hbody
        · refine ⟨cs, [], (List.append_nil cs).symm, mem_string.mpr ⟨cs, hb, .inl rfl⟩, ?_⟩
          rw [judge_open hb.unclosed.1, front_open hbody, Nat.zero_add]
        · refine ⟨b, ['\\'], rfl, mem_string.mpr ⟨b, hb, .inl rfl⟩, ?_⟩
          rw [judge_open hb.unclosed.1, front_open hbody, Nat.zero_add]
  refine ⟨slice, rest, rfl, hmem, ?_, hfront⟩
  rintro more rest' hmore rfl hlonger
  -- a longer match is within what the scanner takes
  have hle := length_le_front hlonger rest'
  rw [List.append_assoc, hfront, List.length_append] at hle
  have hpos := List.length_pos_of_ne_nil hmore
  omega

theorem front_string_iff {b rest : List Char} {text : String} :
    front '"' (b ++ '"' :: rest) = (.lexeme (.atom (.string text)), b.length + 1) ↔ Body b ∧ Decodes b text.toList := by
  constructor
  · intro h
    generalize hcs : b ++ '"' :: rest = cs at h
    generalize hn : b.length + 1 = n at h
    cases front_of_eq h with
    | @string b' rest' _ hb' hcs' =>
      obtain ⟨rfl, -⟩ := List.append_inj (hcs.trans hcs') (by omega)
      rw [String.toList_ofList]
      exact ⟨hb', hb'.decodes⟩
  · rintro ⟨hb, ht⟩
    have hbody := hb.stringBody_append 0 ('"' :: rest)
    rw [Nat.zero_add] at hbody
    refine (front_string hbody).trans ?_
    rw [List.take_left, ht.unescape_eq, String.ofList_toList]

end Piece

/-! ### Literals in a source -/

/-- An open string leaves out as many bytes as it leaves backslashes over. -/
theorem Lexeme.Unclosed.byteLength_take {cs : List Char} (h : Unclosed cs) :
    byteLength (cs.take (cs.length - slashes cs % 2)) + slashes cs % 2 = byteLength cs := by
  obtain ⟨hb, -⟩ | ⟨b, hb, rfl, -⟩ := body_of_open (open_iff.mpr ⟨h, rfl⟩)
  · rw [hb.unclosed.2, Nat.sub_zero, List.take_length, Nat.add_zero]
  · have heven := hb.unclosed.2
    have hodd : slashes (b ++ ['\\']) % 2 = 1 := by
      rw [slashes_concat]
      omega
    rw [hodd, List.length_append, List.length_singleton, Nat.add_sub_cancel, List.take_left, byteLength_append]
    rfl

section

variable {before b r rest : List Char} {offset : Nat} {ts : List Token} (hplace : Passed ('"' :: r) offset before ts)
include hplace

/-- **The literal at a quote** that the scan comes to. -/
theorem Passed.string_iff (hr : r = b ++ '"' :: rest) {text : String} :
    Passed rest offset (before ++ '"' :: (b ++ ['"'])) (ts ++ [⟨.atom (.string text), offset + byteLength before,
        offset + byteLength before + byteLength ('"' :: (b ++ ['"']))⟩]) ↔ Body b ∧ Decodes b text.toList := by
  have hliteral : Passed rest (offset + byteLength before) ('"' :: (b ++ ['"'])) [⟨.atom (.string text),
      offset + byteLength before, offset + byteLength before + byteLength ('"' :: (b ++ ['"']))⟩] ↔
        Body b ∧ Decodes b text.toList := by
    have hlength : (b ++ ['"']).length = b.length + 1 := List.length_append
    rw [Passed.singleton_iff, List.append_assoc, List.singleton_append, hlength, Piece.front_string_iff]
  have hsplit : '"' :: r = '"' :: (b ++ ['"']) ++ rest := by simp [hr]
  rw [hsplit] at hplace
  rw [← hliteral]
  constructor
  · intro hall
    obtain ⟨us, hus, hpassed⟩ := hplace.of_append hall
    rwa [List.append_cancel_left hus]
  · exact hplace.append

/-- **The scan fails at a quote** behind which no quote closes. -/
theorem Passed.scan_unclosed (hopen : Unclosed r) (found : List Token) :
    scanFrom offset found (before ++ '"' :: r) = .error ⟨.unterminatedString, offset + byteLength before,
      offset + byteLength (before ++ '"' :: r) - slashes r % 2⟩ := by
  have hstop : offset + byteLength before + byteLength ('"' :: r.take (r.length - slashes r % 2)) =
      offset + byteLength (before ++ '"' :: r) - slashes r % 2 := by
    have htake := hopen.byteLength_take
    rw [byteLength_append, byteLength_cons, byteLength_cons]
    omega
  rw [hplace.scan, scanFrom, Piece.front_open (open_iff.mpr ⟨hopen, rfl⟩)]
  dsimp only
  rw [hstop]

end

/-- **The literals of a source are exact.** Where the scan of a source comes to a quote, with the tokens before it and
the text `r` behind it, the scanner takes a string token with the lexeme `"b"` if and only if the quote behind `b` is the
first of `r` that closes, and the text of the token is the one that `b` decodes to, which has no more bytes than `b`.
If no quote of `r` closes, the string is unterminated; the error blames all from the first quote on but
a backslash left over at the end. -/
theorem tokenize_string_exact {before r : String} {ts : List Token}
    (hplace : Passed ('"' :: r.toList) 0 before.toList ts) :
    (∀ b text : String, (∃ rest : String, r = b ++ "\"" ++ rest ∧
        Passed rest.toList 0 (before ++ "\"" ++ b ++ "\"").toList
          (ts ++ [⟨.atom (.string text), before.utf8ByteSize, (before ++ "\"" ++ b ++ "\"").utf8ByteSize⟩])) ↔
      Closes b.toList r.toList ∧ Decodes b.toList text.toList) ∧
    (∀ b : String, Closes b.toList r.toList → ∃ text : String,
      (∀ text' : String, Decodes b.toList text'.toList ↔ text' = text) ∧ text.utf8ByteSize ≤ b.utf8ByteSize) ∧
    ((∀ b : String, ¬ Closes b.toList r.toList) → tokenize (before ++ "\"" ++ r) =
      .error ⟨.unterminatedString, before.utf8ByteSize,
        (before ++ "\"" ++ r).utf8ByteSize - slashes r.toList % 2⟩) := by
  refine ⟨fun b text => ?_, fun b hb => ?_, fun hnone => ?_⟩
  · have hlexeme : (before ++ "\"" ++ b ++ "\"").toList = before.toList ++ '"' :: (b.toList ++ ['"']) := by simp
    have hstop : (before ++ "\"" ++ b ++ "\"").utf8ByteSize =
        0 + byteLength before.toList + byteLength ('"' :: (b.toList ++ ['"'])) := by
      rw [← byteLength_toList, hlexeme, byteLength_append, Nat.zero_add]
    have hstart : before.utf8ByteSize = 0 + byteLength before.toList := by rw [byteLength_toList, Nat.zero_add]
    rw [hstop, hlexeme, hstart, closes_iff_body]
    constructor
    · rintro ⟨rest, rfl, hpassed⟩
      have hr : (b ++ "\"" ++ rest).toList = b.toList ++ '"' :: rest.toList := by simp
      obtain ⟨hb, ht⟩ := (hplace.string_iff hr).mp hpassed
      exact ⟨⟨hb, _, hr⟩, ht⟩
    · rintro ⟨⟨hb, rest, hr⟩, ht⟩
      refine ⟨String.ofList rest, ?_, ?_⟩
      · rw [← String.toList_inj, hr]
        simp
      · rw [String.toList_ofList]
        exact (hplace.string_iff hr).mpr ⟨hb, ht⟩
  · obtain ⟨hbody, -⟩ := closes_iff_body.mp hb
    refine ⟨String.ofList (unescape b.toList), fun text => ?_, ?_⟩
    · rw [hbody.decodes_iff, ← String.toList_inj, String.toList_ofList, eq_comm]
    · rw [← byteLength_toList, ← byteLength_toList b, String.toList_ofList]
      exact hbody.decodes.byteLength_le
  · have hopen : Unclosed r.toList := by
      refine unclosed_iff.mpr fun b hb => hnone (String.ofList b) ?_
      rwa [String.toList_ofList]
    have hsource : (before ++ "\"" ++ r).toList = before.toList ++ '"' :: r.toList := by simp
    rw [tokenize, hsource, hplace.scan_unclosed hopen, ← hsource, byteLength_toList, byteLength_toList, Nat.zero_add,
      Nat.zero_add]

/-- A literal with a backslash pair, an escaped quote, a letter of two bytes and an escaped newline, and one that ends in
an escaped quote, each behind a bracket and a symbol. -/
theorem tokenize_string_exact_escapes :
    (Passed ('"' :: "\\\\\\\"é\\n\" \"".toList) 0 "(f ".toList [⟨.opening .round, 0, 1⟩, ⟨.atom (.symbol "f"), 1, 2⟩] ∧
      Closes "\\\\\\\"é\\n".toList "\\\\\\\"é\\n\" \"".toList ∧
      Decodes "\\\\\\\"é\\n".toList "\\\\\"é\n".toList) ∧
    Passed ('"' :: "é\\\"".toList) 0 "(f ".toList [⟨.opening .round, 0, 1⟩, ⟨.atom (.symbol "f"), 1, 2⟩] ∧
      tokenize ("(f " ++ "\"" ++ "é\\\"") = .error ⟨.unterminatedString, 3, 8⟩ := by
  have hplace : ∀ r : List Char, Passed ('"' :: r) 0 "(f ".toList
      [⟨.opening .round, 0, 1⟩, ⟨.atom (.symbol "f"), 1, 2⟩] := by
    intro r
    have hbefore : "(f ".toList = '(' :: ([] ++ 'f' :: ([] ++ ' ' :: ([] ++ []))) := rfl
    rw [hbefore]
    exact .token rfl (.token rfl (.gap rfl (.done _)))
  refine ⟨⟨hplace _, ?_⟩, hplace _, ?_⟩
  · refine ((tokenize_string_exact (hplace _)).1 _ _).mp ⟨" \"", rfl, ?_⟩
    have hliteral : Passed " \"".toList (0 + byteLength "(f ".toList) ('"' :: "\\\\\\\"é\\n\"".toList)
        [⟨.atom (.string "\\\\\"é\n"), 3, 13⟩] :=
      Passed.singleton_iff.mpr (by cbv)
    exact (hplace _).append hliteral
  · refine (tokenize_string_exact (hplace "é\\\"".toList)).2.2 fun b hb => ?_
    have hopen : Unclosed "é\\\"".toList :=
      (unclosed_plain (by decide) (by decide)).mpr ((unclosed_pair _).mpr unclosed_nil)
    exact unclosed_iff.mp hopen _ hb

end MusicLisp
