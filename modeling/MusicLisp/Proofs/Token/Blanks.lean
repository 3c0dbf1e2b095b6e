import MusicLisp.Text.Width
import MusicLisp.Proofs.Token.Joining

/-!
# Blanks around a text

A text is trimmed of more blanks than the scanner knows. A blank that the scanner does not know is a stray character
to it, unless a comment takes it in. So blanks can be left out at both ends of a text that can be cut into tokens, and
no token is lost.

* `scanFrom_blank_front`: blanks in front of a text are left out by the scan, or one of them is stray.
* `scanFrom_blank_end_ok`, `scanFrom_blank_end_error`: the scan of `a` and then blanks is that of `a` and then that of
  the blanks that no comment takes in; an error in `a` keeps its cause. By induction on the scan of `a`.
* `tokenize_of_append`, `tokenize_append`: the tokens of a text with blanks at its end and without.
* `tokenize_trim`: **trimming leaves the tokens** as they are, but for where they stand.
-/

namespace MusicLisp

open Lexeme

/-! ### Blank characters -/

namespace Text

/-- Blanks stand below the visible characters that programs are made of, or above them. -/
theorem toNat_of_isBlank {c : Char} (h : isBlank c = true) : c.toNat ≤ 32 ∨ 127 < c.toNat := by
  simp only [isBlank, Bool.or_eq_true, Bool.and_eq_true, decide_eq_true_eq, beq_iff_eq] at h
  omega

theorem toNat_of_isSymbolChar {c : Char} (h : isSymbolChar c = true) : 32 < c.toNat ∧ c.toNat ≤ 127 := by
  simp only [isSymbolChar, isMark, Char.isAlphanum, Char.isAlpha, Char.isUpper, Char.isLower, Char.isDigit,
    Bool.or_eq_true, Bool.and_eq_true, decide_eq_true_eq, UInt32.le_iff_toNat_le, ge_iff_le] at h
  change ((((65 ≤ c.toNat ∧ c.toNat ≤ 90) ∨ (97 ≤ c.toNat ∧ c.toNat ≤ 122)) ∨ (48 ≤ c.toNat ∧ c.toNat ≤ 57)) ∨ _) ∨ _
    at h
  obtain (((h | h) | h) | h) | rfl := h
  · omega
  · omega
  · omega
  · rcases h with (((((((rfl | rfl) | rfl) | rfl) | rfl) | rfl) | rfl) | rfl) | rfl <;> decide
  · decide

/-- A blank is none of the characters that start a token or a comment. -/
theorem ne_of_isBlank {c d : Char} (h : isBlank c = true) (hd : 32 < d.toNat ∧ d.toNat ≤ 127) : c ≠ d := by
  rintro rfl
  have hc := toNat_of_isBlank h
  omega

theorem isSymbolChar_of_isBlank {c : Char} (h : isBlank c = true) : isSymbolChar c = false := by
  by_contra hsymbol
  rw [Bool.not_eq_false] at hsymbol
  exact ne_of_isBlank h (toNat_of_isSymbolChar hsymbol) rfl

end Text

theorem delimited_blanks {ws : List Char} (hws : ∀ c ∈ ws, Text.isBlank c = true) : Delimited ws := by
  intro c hc
  have hblank := hws c (List.mem_of_mem_head? hc)
  exact ⟨Text.isSymbolChar_of_isBlank hblank, Text.ne_of_isBlank hblank (by decide)⟩

namespace Piece

/-- **A blank that the scanner does not know** is stray. -/
theorem front_stray {c : Char} (h : Text.isBlank c = true) (hc : isBlank c = false) (cs : List Char) :
    front c cs = (.broken (.unexpectedCharacter c), 0) := by
  have hsymbol := Text.isSymbolChar_of_isBlank h
  simp only [isSymbolChar, Char.isAlphanum, Bool.or_eq_false_iff, decide_eq_false_iff_not] at hsymbol
  obtain ⟨⟨⟨halpha, hdigit⟩, hmark⟩, hminus⟩ := hsymbol
  have hne {d : Char} (hd : 32 < d.toNat ∧ d.toNat ≤ 127) : c ≠ d := Text.ne_of_isBlank h hd
  have hopening : Bracket.ofOpenChar? c = none := by
    unfold Bracket.ofOpenChar?
    rw [if_neg (hne (by decide)), if_neg (hne (by decide)), if_neg (hne (by decide))]
  have hclosing : Bracket.ofCloseChar? c = none := by
    unfold Bracket.ofCloseChar?
    rw [if_neg (hne (by decide)), if_neg (hne (by decide)), if_neg (hne (by decide))]
  unfold front
  simp only [hc, hdigit, hopening, hclosing, startsSymbol, halpha, hmark, hminus, hne (d := ';') (by decide),
    hne (d := ':') (by decide), hne (d := '"') (by decide), Bool.false_eq_true, Bool.or_false, decide_false,
    Bool.false_and, if_false]

end Piece

/-! ### Blanks in front -/

/-- **Blanks in front of a text** are left out by the scan, or one of them is stray. -/
theorem scanFrom_blank_front {ws : List Char} (hws : ∀ c ∈ ws, Text.isBlank c = true) (offset : Nat)
    (found : List Token) (cs : List Char) :
    scanFrom offset found (ws ++ cs) = scanFrom (offset + byteLength ws) found cs ∨
      ∃ c span, scanFrom offset found (ws ++ cs) = .error ⟨.unexpectedCharacter c, span⟩ := by
  induction ws generalizing offset with
  | nil => exact .inl rfl
  | cons c ws ih =>
    obtain ⟨hc, hws⟩ := List.forall_mem_cons.mp hws
    cases hblank : isBlank c with
    | true =>
      rw [List.cons_append, scanFrom_blank offset found hblank, byteLength_cons, ← Nat.add_assoc]
      exact ih hws _
    | false =>
      rw [List.cons_append, scanFrom, Piece.front_stray hc hblank]
      exact .inr ⟨c, _, rfl⟩

/-! ### Blanks at the end -/

namespace Piece

/-- Only a quote leaves a string open. -/
theorem front_unterminated {c : Char} {cs : List Char} {n : Nat} (h : front c cs = (.broken .unterminatedString, n)) :
    c = '"' ∧ stringBody 0 cs = (false, n) := by
  have hnumber : ∀ cs, number cs ≠ .broken .unterminatedString := by
    intro cs hcs
    unfold number at hcs
    split at hcs <;> cases hcs
  unfold front at h
  split at h
  · cases h
  split at h
  · cases h
  split at h
  · cases h
  split at h
  · cases h
  split at h
  · exact absurd (congrArg Prod.fst h) (hnumber _)
  split at h
  · cases h
  split at h
  · cases h
  split at h
  · next hquote =>
    refine ⟨hquote, ?_⟩
    split at h
    · cases h
    · next hbody =>
      cases h
      exact hbody
  · cases h

/-- An open string stays open in front of a text without quotes. -/
theorem front_open_append {c : Char} {cs ws : List Char} {n : Nat} (h : front c cs = (.broken .unterminatedString, n))
    (hquote : '"' ∉ ws) : ∃ m, front c (cs ++ ws) = (.broken .unterminatedString, m) := by
  obtain ⟨rfl, hopen⟩ := front_unterminated h
  cases hbody : stringBody 0 (cs ++ ws) with
  | mk closed m =>
    cases closed with
    | false => exact ⟨m, front_open hbody⟩
    | true =>
      -- the closing quote would have to stand in the text that was open
      obtain ⟨b, rest, hsplit, hb, -⟩ := body_of_stringBody hbody
      obtain ⟨r, rfl, hws⟩ | ⟨r, rfl, hrest⟩ := List.append_eq_append_iff.mp hsplit
      · exact absurd (hws ▸ List.mem_append_right r List.mem_cons_self) hquote
      · cases r with
        | nil =>
          rw [List.nil_append] at hrest
          exact absurd (hrest ▸ List.mem_cons_self) hquote
        | cons d r =>
          obtain ⟨rfl, -⟩ := List.cons.inj hrest
          rw [hb.stringBody_append] at hopen
          cases hopen

/-- A comment that does not end goes on into a further text. -/
theorem commentTail_append {line : List Char} (hline : '\n' ∉ line) (ws : List Char) :
    commentTail (line ++ ws) = line.length + commentTail ws := by
  have hrun : run (· ≠ '\n') (line ++ ws) = line.length + run (· ≠ '\n') ws := by
    unfold run
    have hpos : ∀ c ∈ line, decide (c ≠ '\n') = true := fun c hc => decide_eq_true fun heq => hline (heq ▸ hc)
    rw [List.takeWhile_append_of_pos hpos, List.length_append]
  unfold commentTail
  dsimp only
  rw [hrun, List.drop_length_add_append]
  split
  · rfl
  · rw [Nat.add_assoc]

end Piece

/-- **A gap is left out** in front of a further text as well; a comment at the end may go on into it. -/
theorem scanFrom_gap_extend {c : Char} {cs : List Char} {n : Nat} (h : Piece.front c cs = (.gap, n)) (offset : Nat)
    (found : List Token) (ws : List Char) :
    scanFrom offset found (c :: cs ++ ws) =
        scanFrom (offset + byteLength (c :: cs.take n)) found (cs.drop n ++ ws) ∨
      cs.drop n = [] ∧ ∃ gap left, ws = gap ++ left ∧ scanFrom offset found (c :: cs ++ ws) =
        scanFrom (offset + byteLength (c :: cs.take n) + byteLength gap) found left := by
  obtain ⟨hc, rfl⟩ | ⟨rfl, rfl⟩ := front_gap h
  · have hsplit : c :: cs ++ ws = (c :: cs.take (run isBlank cs)) ++ (cs.drop (run isBlank cs) ++ ws) := by
      rw [List.cons_append, List.cons_append, ← List.append_assoc, List.take_append_drop]
    rw [hsplit]
    exact .inl (scanFrom_blanks offset found (List.forall_mem_cons.mpr ⟨hc, forall_mem_take_run isBlank cs⟩) _)
  · obtain ⟨line, _, rfl, hline, ⟨rfl, hn⟩ | ⟨r, rfl, hn⟩⟩ := commentTail_cases cs
    · have hfront : Piece.front ';' (line ++ ws) = (.gap, line.length + commentTail ws) :=
        congrArg (Prod.mk Piece.gap) (Piece.commentTail_append hline ws)
      rw [hn, List.append_nil, List.take_length, List.drop_length]
      refine .inr ⟨rfl, ws.take (commentTail ws), ws.drop (commentTail ws), (List.take_append_drop _ _).symm, ?_⟩
      rw [List.cons_append, scanFrom_gap hfront, List.take_length_add_append, List.drop_length_add_append,
        ← List.cons_append, byteLength_append, ← Nat.add_assoc]
    · rw [hn, List.cons_append, List.append_assoc, List.cons_append, scanFrom_gap (Piece.front_comment hline _),
        List.take_length_add_append, List.drop_length_add_append, List.take_length_add_append,
        List.drop_length_add_append]
      exact .inl rfl

section

variable {offset : Nat} {found : List Token} {a : List Char}

/-- **A text that can be cut into tokens** is left behind with its tokens found, and the blanks after it are scanned
that no comment takes in. -/
theorem scanFrom_blank_end_ok {tokens : List Token} (h : scanFrom offset found a = .ok tokens) : ∃ found',
    tokens = (⟨.endOfInput, .point (offset + byteLength a)⟩ :: found').reverse ∧
      ∀ ws, (∀ c ∈ ws, Text.isBlank c = true) → ∃ gap left, ws = gap ++ left ∧
        scanFrom offset found (a ++ ws) = scanFrom (offset + byteLength a + byteLength gap) found' left := by
  fun_induction scanFrom offset found a with
  | case1 offset found =>
    cases h
    exact ⟨found, rfl, fun ws _ => ⟨[], ws, rfl, rfl⟩⟩
  | case2 offset found c cs n stop hfront ih =>
    obtain ⟨found', htokens, hend⟩ := ih h
    rw [← byteLength_take_add_drop c cs n, ← Nat.add_assoc]
    refine ⟨found', htokens, fun ws hws => ?_⟩
    obtain hscan | ⟨hdrop, gap, left, hsplit, hscan⟩ := scanFrom_gap_extend hfront offset found ws
    · obtain ⟨gap, left, hsplit, hleft⟩ := hend ws hws
      exact ⟨gap, left, hsplit, hscan.trans hleft⟩
    · rw [hdrop, scanFrom] at h
      injection h with h
      obtain ⟨-, rfl⟩ := List.cons.inj (List.reverse_inj.mp (h.trans htokens))
      exact ⟨gap, left, hsplit, by rw [hdrop]; exact hscan⟩
  | case3 offset found c cs n stop kind hfront ih =>
    obtain ⟨found', htokens, hend⟩ := ih h
    have hfront' := Piece.front_of_eq hfront
    rw [← byteLength_take_add_drop c cs n, ← Nat.add_assoc]
    refine ⟨found', htokens, fun ws hws => ?_⟩
    obtain ⟨gap, left, hleft, hscan⟩ := hend ws hws
    refine ⟨gap, left, hleft, ?_⟩
    rw [List.cons_append, scanFrom_lexeme (hfront'.append (delimited_blanks hws)),
      List.take_append_of_le_length hfront'.le_length, List.drop_append_of_le_length hfront'.le_length, hscan]
  | case4 => cases h

/-- **A text that cannot** fails for the same cause with blanks after it. -/
theorem scanFrom_blank_end_error {ws : List Char} (hws : ∀ c ∈ ws, Text.isBlank c = true) {e : ScanError}
    (h : scanFrom offset found a = .error e) : ∃ span, scanFrom offset found (a ++ ws) = .error ⟨e.cause, span⟩ := by
  fun_induction scanFrom offset found a with
  | case1 => cases h
  | case2 offset found c cs n stop hfront ih =>
    obtain hscan | ⟨hdrop, -⟩ := scanFrom_gap_extend hfront offset found ws
    · rw [hscan]
      exact ih h
    · rw [hdrop, scanFrom] at h
      cases h
  | case3 offset found c cs n stop kind hfront ih =>
    have hfront' := Piece.front_of_eq hfront
    rw [List.cons_append, scanFrom_lexeme (hfront'.append (delimited_blanks hws)),
      List.take_append_of_le_length hfront'.le_length, List.drop_append_of_le_length hfront'.le_length]
    exact ih h
  | case4 offset found c cs n stop cause hfront =>
    cases h
    rw [List.cons_append, scanFrom]
    by_cases hopen : cause = .unterminatedString
    · subst hopen
      have hquote : '"' ∉ ws := fun hmem => Text.ne_of_isBlank (hws _ hmem) (by decide) rfl
      obtain ⟨m, hm⟩ := Piece.front_open_append hfront hquote
      rw [hm]
      exact ⟨_, rfl⟩
    · obtain ⟨hfront', -⟩ := Piece.front_broken_append hfront hopen (delimited_blanks hws)
      rw [hfront']
      exact ⟨_, rfl⟩

end

/-! ### Trimmed texts -/

theorem Text.isBlank_of_known {c : Char} (h : Lexeme.isBlank c = true) : isBlank c = true := by
  simp only [Lexeme.isBlank, Bool.or_eq_true, decide_eq_true_eq] at h
  rcases h with (((rfl | rfl) | rfl) | rfl) | rfl <;> decide

/-- A text is what is left of it when it is trimmed, and blanks around that. -/
theorem Text.exists_trim (cs : List Char) : ∃ front back, cs = front ++ (trim cs ++ back) ∧
    (∀ c ∈ front, isBlank c = true) ∧ ∀ c ∈ back, isBlank c = true := by
  refine ⟨cs.takeWhile isBlank, ((cs.dropWhile isBlank).reverse.takeWhile isBlank).reverse, ?_,
    fun c hc => List.mem_takeWhile_imp hc, fun c hc => List.mem_takeWhile_imp (List.mem_reverse.mp hc)⟩
  unfold trim trimEnd
  rw [← List.reverse_append, List.takeWhile_append_dropWhile, List.reverse_reverse, List.takeWhile_append_dropWhile]

section

variable {a ws : String}

/-- The tokens of a text with blanks at its end are those of the text without, but for the mark. -/
theorem tokenize_of_append (hws : ∀ c ∈ ws.toList, Text.isBlank c = true) {tokens : List Token}
    (h : tokenize (a ++ ws) = .ok tokens) : ∃ ts, tokens = ts ++ [⟨.endOfInput, .point (a ++ ws).utf8ByteSize⟩] ∧
      tokenize a = .ok (ts ++ [⟨.endOfInput, .point a.utf8ByteSize⟩]) := by
  rw [tokenize, String.toList_append] at h
  cases ha : scanFrom 0 [] a.toList with
  | error e =>
    obtain ⟨span, herror⟩ := scanFrom_blank_end_error hws ha
    rw [h] at herror
    cases herror
  | ok tokens' =>
    obtain ⟨found, rfl, hend⟩ := scanFrom_blank_end_ok ha
    obtain ⟨gap, left, hsplit, hscan⟩ := hend _ hws
    have hleft := scanFrom_blank_front (fun c hc => hws c (hsplit ▸ List.mem_append_right gap hc))
      (0 + byteLength a.toList + byteLength gap) found []
    rw [List.append_nil, ← hscan, h, scanFrom] at hleft
    obtain htokens | ⟨c, span, herror⟩ := hleft
    · have hlength : 0 + byteLength a.toList + byteLength gap + byteLength left = (a ++ ws).utf8ByteSize := by
        rw [Nat.add_assoc, ← byteLength_append, ← hsplit, Nat.zero_add, byteLength_toList, byteLength_toList,
          String.utf8ByteSize_append]
      rw [hlength, List.reverse_cons] at htokens
      refine ⟨found.reverse, Except.ok.inj htokens, ?_⟩
      rw [tokenize, ha, List.reverse_cons, Nat.zero_add, byteLength_toList]
    · cases herror

/-- Blanks that the scanner knows change nothing at the end of a text. -/
theorem tokenize_append (hws : ∀ c ∈ ws.toList, isBlank c = true) {ts : List Token}
    (h : tokenize a = .ok (ts ++ [⟨.endOfInput, .point a.utf8ByteSize⟩])) :
    tokenize (a ++ ws) = .ok (ts ++ [⟨.endOfInput, .point (a ++ ws).utf8ByteSize⟩]) := by
  obtain ⟨found, -, hend⟩ := scanFrom_blank_end_ok h
  obtain ⟨gap, left, hsplit, hscan⟩ := hend ws.toList fun c hc => Text.isBlank_of_known (hws c hc)
  have hleft := scanFrom_blanks (0 + byteLength a.toList + byteLength gap) found
    (fun c hc => hws c (hsplit ▸ List.mem_append_right gap hc)) []
  rw [List.append_nil, ← hscan, scanFrom] at hleft
  obtain ⟨tokens, hok⟩ : ∃ tokens, tokenize (a ++ ws) = .ok tokens := by
    rw [tokenize, String.toList_append]
    exact ⟨_, hleft⟩
  obtain ⟨ts', htokens, ha⟩ := tokenize_of_append (fun c hc => Text.isBlank_of_known (hws c hc)) hok
  obtain rfl := List.append_cancel_right (Except.ok.inj (h.symm.trans ha))
  rw [hok, htokens]

/-- The cause for which a text cannot be cut into tokens stays with blanks at its end. -/
theorem tokenize_append_error (hws : ∀ c ∈ ws.toList, Text.isBlank c = true) {e : ScanError}
    (h : tokenize a = .error e) : ∃ span, tokenize (a ++ ws) = .error ⟨e.cause, span⟩ := by
  rw [tokenize, String.toList_append]
  exact scanFrom_blank_end_error hws h

/-- The tokens of a text with blanks in front are those of the text without, moved. -/
theorem tokenize_of_front (hws : ∀ c ∈ ws.toList, Text.isBlank c = true) {tokens : List Token}
    (h : tokenize (ws ++ a) = .ok tokens) :
    ∃ us, tokens = us.map (Token.shift ws.utf8ByteSize) ∧ tokenize a = .ok us := by
  rw [tokenize, String.toList_append] at h
  have hfront := scanFrom_blank_front hws 0 [] a.toList
  have hshift := scanFrom_shift (byteLength ws.toList) 0 [] a.toList
  rw [h] at hfront
  obtain hscan | ⟨c, span, herror⟩ := hfront
  · rw [List.map_nil, ← hscan] at hshift
    cases ha : scanFrom 0 [] a.toList with
    | error e =>
      rw [ha] at hshift
      cases hshift
    | ok us =>
      rw [ha] at hshift
      refine ⟨us, ?_, ha⟩
      rw [← byteLength_toList]
      exact Except.ok.inj hshift
  · cases herror

end

/-- **Trimming leaves the tokens** as they are, but for where they stand. -/
theorem tokenize_trim {source : String} {tokens : List Token} (h : tokenize source = .ok tokens) :
    ∃ us, tokenize (String.ofList (Text.trim source.toList)) = .ok us ∧ us.map Token.kind = tokens.map Token.kind := by
  obtain ⟨front, back, hsplit, hfront, hback⟩ := Text.exists_trim source.toList
  have hsource : source = String.ofList front ++ (String.ofList (Text.trim source.toList) ++ String.ofList back) := by
    rw [← String.ofList_append, ← String.ofList_append, ← hsplit, String.ofList_toList]
  rw [← String.toList_ofList (l := front)] at hfront
  rw [← String.toList_ofList (l := back)] at hback
  rw [hsource] at h
  obtain ⟨us, rfl, hus⟩ := tokenize_of_front hfront h
  obtain ⟨ts, rfl, hts⟩ := tokenize_of_append hback hus
  refine ⟨_, hts, ?_⟩
  simp only [List.map_map, List.map_append]
  rfl

end MusicLisp
