import MusicLisp.Proofs.Token.Partition

/-!
# Scanning across a line break

A line break ends whatever lexeme or comment stands before it, unless a string is open. So a text that can be cut
into tokens goes on after a line break as if the text after it were scanned by itself, only further to the right.

* `Piece.front_append`: a piece that is no gap and no open string is the same in front of a delimited rest.
* `scanFrom_join_ok`, `scanFrom_join_error`: the scan of `a`, a line break and `b` is the scan of `a` and then that
  of `b`; an error in `a` stays, unless it is an open string. By induction on the scan of `a`.
* `scanFrom_found`, `scanFrom_shift`: a scan that starts elsewhere finds the same tokens, moved.
* `tokenize_join`, `tokenize_join_ok`: **the tokens of two texts with a line break between.**
-/

namespace MusicLisp

open Lexeme

/-! ### Pieces in front of a delimited rest -/

namespace Lexeme

theorem run_append_of_stops {p : Char → Bool} {rest : List Char} (h : Stops p rest) (cs : List Char) :
    run p (cs ++ rest) = run p cs := by
  obtain ⟨r, rest', rfl, hr, hstop⟩ := exists_run p cs
  rw [run_append hr hstop, List.append_assoc]
  refine run_append hr ?_
  cases rest' with
  | nil => exact h
  | cons d rest' => exact hstop

theorem numberTail_append {rest : List Char} (h : Delimited rest) (cs : List Char) :
    numberTail (cs ++ rest) = numberTail cs := by
  have hpoint : ∀ r, rest ≠ '.' :: r := by
    rintro r rfl
    exact (h '.' rfl).2 rfl
  unfold numberTail
  dsimp only
  rw [run_append_of_stops h.stops_digit, List.drop_append_of_le_length (run_le_length _ cs)]
  cases cs.drop (run Char.isDigit cs) with
  | nil =>
    rw [List.nil_append]
    split
    · next r => exact absurd rfl (hpoint r)
    · rfl
  | cons d r =>
    by_cases hd : d = '.'
    · subst hd
      exact congrArg _ (run_append_of_stops h.stops_digit r)
    · rw [List.cons_append]
      split
      · next heq => cases heq; exact absurd rfl hd
      · split
        · next heq => cases heq; exact absurd rfl hd
        · rfl

end Lexeme

namespace Piece

variable {c : Char} {cs rest : List Char}

/-- **A lexeme is the same** in front of a rest that does not go on with it. -/
theorem Front.append {kind : TokenKind} {n : Nat} (h : Front c cs kind n) (hrest : Delimited rest) :
    front c (cs ++ rest) = (.lexeme kind, n) := by
  have hsymbol := run_append_of_stops hrest.stops_symbol cs
  have htake : (cs ++ rest).take (run isSymbolChar cs) = cs.take (run isSymbolChar cs) :=
    List.take_append_of_le_length (run_le_length isSymbolChar cs)
  cases h with
  | opening b hc => rw [hc, front_opening]
  | closing b hc => rw [hc, front_closing]
  | number hc hx =>
    rw [front_of_startsNumber (hc.append rest), numberTail_append hrest,
      List.take_append_of_le_length (numberTail_le_length cs), Piece.number, hx]
  | symbol hc hd =>
    have hd' : ¬ StartsNumber c (cs ++ rest) := by
      rintro (hdigit | ⟨rfl, hdigit⟩)
      · exact hd (.inl hdigit)
      · cases cs with
        | nil =>
          cases rest with
          | nil => cases hdigit
          | cons d rest => exact absurd (hrest.stops_digit d rfl) (by rw [show d.isDigit = true from hdigit]; decide)
        | cons d cs => exact hd (.inr ⟨rfl, hdigit⟩)
    rw [front_of_startsSymbol hc hd', hsymbol, htake, Piece.symbol]
  | keyword hc => rw [hc, front_keyword, hsymbol, htake]
  | @string b after hc hb hcs =>
    have hbody := hb.stringBody_append 0 ('"' :: (after ++ rest))
    rw [Nat.zero_add] at hbody
    rw [hc, hcs, List.append_assoc, List.cons_append]
    refine (front_string hbody).trans ?_
    rw [List.take_left]

/-- **So is a broken piece**, but for an open string, which the rest may close. -/
theorem front_broken_append {cause : ScanCause} {n : Nat} (h : front c cs = (.broken cause, n))
    (hopen : cause ≠ .unterminatedString) (hrest : Delimited rest) :
    front c (cs ++ rest) = (.broken cause, n) ∧ n ≤ cs.length := by
  by_cases hd : StartsNumber c cs
  · rw [front_of_startsNumber hd] at h
    rw [front_of_startsNumber (hd.append rest), numberTail_append hrest,
      List.take_append_of_le_length (numberTail_le_length cs), h]
    exact ⟨rfl, (Prod.mk.inj h).2 ▸ numberTail_le_length cs⟩
  · rw [startsNumber_iff] at hd
    unfold front at h
    rw [if_neg hd] at h
    split at h
    · cases h
    next hblank =>
    split at h
    · cases h
    next hsemi =>
    split at h
    · cases h
    next hopening =>
    split at h
    · cases h
    next hclosing =>
    split at h
    · cases h
    next hsymbol =>
    split at h
    · cases h
    next hcolon =>
    split at h
    · split at h
      · cases h
      · cases h; exact absurd rfl hopen
    next hquote =>
    cases h
    refine ⟨?_, Nat.zero_le _⟩
    have hd' : ¬ (c.isDigit || (c = '-' && (cs ++ rest).head?.any Char.isDigit)) = true := by
      simp only [Bool.or_eq_true, Bool.and_eq_true, decide_eq_true_eq, not_or, not_and] at hd hsymbol ⊢
      exact ⟨hd.1, fun hminus => absurd hminus hsymbol.2⟩
    unfold front
    rw [if_neg hblank, if_neg hsemi]
    split
    · next b hb => exact absurd hb (hopening b)
    split
    · next b hb => exact absurd hb (hclosing b)
    rw [if_neg hd', if_neg hsymbol, if_neg hcolon, if_neg hquote]

/-- A comment goes on to the end of its line. -/
theorem front_comment {line : List Char} (hline : '\n' ∉ line) (r : List Char) :
    front ';' (line ++ '\n' :: r) = (.gap, line.length + 1) := by
  have hrun : run (· ≠ '\n') (line ++ '\n' :: r) = line.length := by
    refine run_append (fun c hc => ?_) (by rintro c ⟨⟩; rfl)
    exact decide_eq_true fun heq => hline (heq ▸ hc)
  change (Piece.gap, commentTail (line ++ '\n' :: r)) = _
  unfold commentTail
  dsimp only
  rw [hrun, List.drop_left]
  rfl

end Piece

theorem delimited_newline (rest : List Char) : Delimited ('\n' :: rest) := by
  rintro c ⟨⟩; decide

/-! ### Gaps before a line break -/

section

variable (offset : Nat) (found : List Token)

theorem front_blank {c : Char} (hc : isBlank c = true) (cs : List Char) :
    Piece.front c cs = (.gap, run isBlank cs) := by
  unfold Piece.front
  rw [if_pos hc]

/-- Blanks can be left out one by one. -/
theorem scanFrom_blank {c : Char} (hc : isBlank c = true) (cs : List Char) :
    scanFrom offset found (c :: cs) = scanFrom (offset + c.utf8Size) found cs := by
  rw [scanFrom_gap (front_blank hc cs), byteLength_cons, ← Nat.add_assoc]
  cases cs with
  | nil => rfl
  | cons d r =>
    by_cases hd : isBlank d = true
    · rw [scanFrom_gap (front_blank hd r), run_cons_of_pos hd, List.take_succ_cons, List.drop_succ_cons]
    · rw [run_cons_of_neg hd]
      rfl

theorem scanFrom_blanks {bs : List Char} (hbs : ∀ c ∈ bs, isBlank c = true) (cs : List Char) :
    scanFrom offset found (bs ++ cs) = scanFrom (offset + byteLength bs) found cs := by
  induction bs generalizing offset with
  | nil => rfl
  | cons c bs ih =>
    rw [List.cons_append, scanFrom_blank offset found (hbs c List.mem_cons_self),
      ih _ fun d hd => hbs d (List.mem_cons_of_mem _ hd), byteLength_cons, Nat.add_assoc]

/-- A gap is left out in front of a line break as well, and what comes after it is scanned. -/
theorem scanFrom_gap_append {c : Char} {cs : List Char} {n : Nat} (h : Piece.front c cs = (.gap, n))
    (b : List Char) : scanFrom offset found (c :: cs ++ '\n' :: b) =
      scanFrom (offset + byteLength (c :: cs.take n)) found (cs.drop n ++ '\n' :: b) := by
  obtain ⟨hc, rfl⟩ | ⟨rfl, rfl⟩ := front_gap h
  · have hsplit : c :: cs ++ '\n' :: b =
        (c :: cs.take (run isBlank cs)) ++ (cs.drop (run isBlank cs) ++ '\n' :: b) := by
      rw [List.cons_append, List.cons_append, ← List.append_assoc, List.take_append_drop]
    rw [hsplit]
    exact scanFrom_blanks offset found
      (List.forall_mem_cons.mpr ⟨hc, forall_mem_take_run isBlank cs⟩) _
  · obtain ⟨line, _, rfl, hline, ⟨rfl, hn⟩ | ⟨r, rfl, hn⟩⟩ := commentTail_cases cs
    · -- the comment runs to the end of the text, so the line break ends it
      rw [hn, List.take_left, List.drop_left, List.nil_append, List.append_nil, List.cons_append,
        scanFrom_gap (Piece.front_comment hline b), scanFrom_blank _ _ rfl, List.take_length_add_append,
        List.drop_length_add_append, ← List.cons_append, byteLength_append, ← Nat.add_assoc]
      rfl
    · rw [hn, List.cons_append, List.append_assoc, List.cons_append,
        scanFrom_gap (Piece.front_comment hline _), List.take_length_add_append, List.drop_length_add_append,
        List.take_length_add_append, List.drop_length_add_append]
      rfl

/-! ### Scans across a line break -/

/-- **A text that can be cut into tokens** is left behind at the line break, with its tokens found. -/
theorem scanFrom_join_ok {a : List Char} {tokens : List Token} (h : scanFrom offset found a = .ok tokens) :
    ∃ found', tokens = (⟨.endOfInput, .point (offset + byteLength a)⟩ :: found').reverse ∧
      ∀ b, scanFrom offset found (a ++ '\n' :: b) = scanFrom (offset + byteLength a + 1) found' b := by
  fun_induction scanFrom offset found a with
  | case1 offset found =>
    cases h
    exact ⟨found, rfl, fun b => scanFrom_blank offset found rfl b⟩
  | case2 offset found c cs n stop hfront ih =>
    obtain ⟨found', htokens, hjoin⟩ := ih h
    rw [← byteLength_take_add_drop c cs n, ← Nat.add_assoc]
    refine ⟨found', htokens, fun b => ?_⟩
    rw [scanFrom_gap_append offset found hfront b, hjoin b]
  | case3 offset found c cs n stop kind hfront ih =>
    obtain ⟨found', htokens, hjoin⟩ := ih h
    have hfront' := Piece.front_of_eq hfront
    rw [← byteLength_take_add_drop c cs n, ← Nat.add_assoc]
    refine ⟨found', htokens, fun b => ?_⟩
    rw [List.cons_append, scanFrom_lexeme (hfront'.append (delimited_newline b)),
      List.take_append_of_le_length hfront'.le_length, List.drop_append_of_le_length hfront'.le_length, hjoin b]
  | case4 => cases h

/-- **A text that cannot** fails in the same way whatever comes after a line break, unless a string is open. -/
theorem scanFrom_join_error {a : List Char} {e : ScanError} (h : scanFrom offset found a = .error e)
    (hopen : e.cause ≠ .unterminatedString) (b : List Char) :
    scanFrom offset found (a ++ '\n' :: b) = .error e := by
  fun_induction scanFrom offset found a with
  | case1 => cases h
  | case2 offset found c cs n stop hfront ih => rw [scanFrom_gap_append offset found hfront b, ih h]
  | case3 offset found c cs n stop kind hfront ih =>
    have hfront' := Piece.front_of_eq hfront
    rw [List.cons_append, scanFrom_lexeme (hfront'.append (delimited_newline b)),
      List.take_append_of_le_length hfront'.le_length, List.drop_append_of_le_length hfront'.le_length, ih h]
  | case4 offset found c cs n stop cause hfront =>
    cases h
    obtain ⟨hfront', hle⟩ := Piece.front_broken_append hfront hopen (delimited_newline b)
    rw [List.cons_append, scanFrom, hfront']
    dsimp only
    rw [List.take_append_of_le_length hle]

end

/-! ### Scans that start elsewhere -/

/-- The token moved `n` bytes to the right. -/
def Token.shift (n : Nat) (t : Token) : Token := { t with span := t.span.shift n }

/-- The error moved `n` bytes to the right. -/
def ScanError.shift (n : Nat) (e : ScanError) : ScanError := { e with span := e.span.shift n }

/-- The tokens found before do not matter for those found after. -/
theorem scanFrom_found (offset : Nat) (found before : List Token) (cs : List Char) :
    scanFrom offset (found ++ before) cs = (scanFrom offset found cs).map (before.reverse ++ ·) := by
  fun_induction scanFrom offset found cs with
  | case1 offset found =>
    rw [scanFrom, ← List.cons_append, List.reverse_append]
    rfl
  | case2 offset found c cs n stop hfront ih => rw [scanFrom_gap hfront, ih]
  | case3 offset found c cs n stop kind hfront ih => rw [scanFrom_lexeme hfront, ← List.cons_append, ih]
  | case4 offset found c cs n stop cause hfront =>
    rw [scanFrom, hfront]
    rfl

/-- What a scan comes to, moved `n` bytes to the right. -/
def shiftScan (n : Nat) : Except ScanError (List Token) → Except ScanError (List Token)
  | .ok tokens => .ok (tokens.map (Token.shift n))
  | .error e => .error (e.shift n)

/-- **A scan that starts further to the right** finds the same, further to the right. -/
theorem scanFrom_shift (n offset : Nat) (found : List Token) (cs : List Char) :
    scanFrom (offset + n) (found.map (Token.shift n)) cs = shiftScan n (scanFrom offset found cs) := by
  fun_induction scanFrom offset found cs with
  | case1 offset found =>
    rw [scanFrom]
    exact congrArg Except.ok
      (List.map_reverse (f := Token.shift n) (l := ⟨.endOfInput, .point offset⟩ :: found)).symm
  | case2 offset found c cs k stop hfront ih => rw [scanFrom_gap hfront, Nat.add_right_comm, ih]
  | case3 offset found c cs k stop kind hfront ih =>
    rw [scanFrom_lexeme hfront, Nat.add_right_comm, ← ih]
    rfl
  | case4 offset found c cs k stop cause hfront =>
    rw [scanFrom, hfront]
    dsimp only
    rw [Nat.add_right_comm]
    rfl

/-! ### Two texts -/

/-- **The tokens of two texts with a line break between**: those of the first without its mark, and those of the
second, moved to where it stands. What is wrong with the second text is wrong with both. -/
theorem tokenize_join {a : String} {tokens : List Token} (h : tokenize a = .ok tokens) :
    ∃ ts, tokens = ts ++ [⟨.endOfInput, .point a.utf8ByteSize⟩] ∧ ∀ b,
      tokenize (a ++ "\n" ++ b) = (shiftScan (a.utf8ByteSize + 1) (tokenize b)).map (ts ++ ·) := by
  obtain ⟨found, rfl, hjoin⟩ := scanFrom_join_ok 0 [] h
  have hlength : byteLength a.toList = a.utf8ByteSize := by
    rw [byteLength_eq_utf8ByteSize, String.ofList_toList]
  rw [Nat.zero_add, hlength]
  refine ⟨found.reverse, List.reverse_cons, fun b => ?_⟩
  have htext : (a ++ "\n" ++ b).toList = a.toList ++ '\n' :: b.toList := by
    simp only [String.toList_append, List.append_assoc]
    rfl
  have hscan := scanFrom_found (0 + (a.utf8ByteSize + 1)) [] found b.toList
  have hshift := scanFrom_shift (a.utf8ByteSize + 1) 0 [] b.toList
  rw [List.map_nil] at hshift
  rw [hshift, List.nil_append] at hscan
  rw [tokenize, htext, hjoin b.toList, hlength, Nat.add_assoc, hscan]
  rfl

/-- The mark of the second text, moved, is that of both. -/
theorem shift_mark (a b : String) : (Token.mk .endOfInput (.point b.utf8ByteSize)).shift (a.utf8ByteSize + 1) =
    ⟨.endOfInput, .point (a ++ "\n" ++ b).utf8ByteSize⟩ := by
  rw [String.utf8ByteSize_append, String.utf8ByteSize_append, Nat.add_comm _ b.utf8ByteSize]
  rfl

/-- The tokens of two texts that can both be cut into tokens, with the mark at the end of the second one only. -/
theorem tokenize_join_ok {a b : String} {ts us : List Token}
    (ha : tokenize a = .ok (ts ++ [⟨.endOfInput, .point a.utf8ByteSize⟩]))
    (hb : tokenize b = .ok (us ++ [⟨.endOfInput, .point b.utf8ByteSize⟩])) :
    tokenize (a ++ "\n" ++ b) = .ok (ts ++ us.map (Token.shift (a.utf8ByteSize + 1)) ++
      [⟨.endOfInput, .point (a ++ "\n" ++ b).utf8ByteSize⟩]) := by
  obtain ⟨ts', heq, hjoin⟩ := tokenize_join ha
  obtain rfl := List.append_cancel_right heq
  rw [hjoin b, hb, shiftScan, List.map_append, List.map_singleton, shift_mark, List.append_assoc]
  rfl

end MusicLisp
