import MusicLisp.Proofs.Token.Joining

/-!
# Scanning up to a place

What the scan has passed when it comes to a place in a text, as tokens with the gaps between them, and the text from
there on. A piece is settled by the first character after it, so what has been passed depends on one character of the
text from there on.

* `Piece.gap_grow`, `Piece.Front.grow`: a piece that ends before the text does is the same in a longer text.
* `Piece.front_gap_take`: a gap is the same in a text that is cut off behind it, as a lexeme is (`Piece.Front.take`).
* `Passed`: **the pieces up to a place**. `Passed.scan` takes the scan there, and `Passed.change` puts another text
  from there on, with the same first character. `Passed.append`, `Passed.of_append`: a text is passed stretch by
  stretch, and `Passed.singleton_iff` says when a stretch is one token.
* `exists_passed_of_error`, `Cut.passed`: a scan that fails comes to a broken piece, and one that succeeds comes to
  each of its tokens.
-/

namespace MusicLisp

open Lexeme

/-! ### Pieces that end before the text does -/

namespace Lexeme

theorem run_grow {p : Char → Bool} {cs : List Char} (h : run p cs < cs.length) (rest : List Char) :
    run p (cs ++ rest) = run p cs := by
  obtain ⟨r, rest', rfl, hr, hstop⟩ := exists_run p cs
  rw [run_append hr hstop] at h ⊢
  rw [List.append_assoc]
  refine run_append hr ?_
  cases rest' with
  | nil =>
    rw [List.append_nil] at h
    exact absurd h (Nat.lt_irrefl _)
  | cons d rest' => exact hstop

theorem numberTail_grow {cs : List Char} (h : numberTail cs < cs.length) (rest : List Char) :
    numberTail (cs ++ rest) = numberTail cs := by
  have hwhole := run_le_numberTail cs
  have hrun := run_grow (Nat.lt_of_le_of_lt hwhole h) rest
  have hdrop : (cs ++ rest).drop (run Char.isDigit (cs ++ rest)) = cs.drop (run Char.isDigit cs) ++ rest := by
    rw [hrun, List.drop_append_of_le_length (run_le_length _ cs)]
  have hlength : (cs.drop (run Char.isDigit cs)).length = cs.length - run Char.isDigit cs := List.length_drop
  cases hafter : cs.drop (run Char.isDigit cs) with
  | nil =>
    rw [hafter, List.length_nil] at hlength
    omega
  | cons d r =>
    rw [hafter, List.length_cons] at hlength
    rw [hafter, List.cons_append] at hdrop
    by_cases hd : d = '.'
    · subst hd
      rw [numberTail_of_point hafter] at h ⊢
      rw [numberTail_of_point hdrop, hrun, run_grow (by omega)]
    · have hpoint : ∀ r', cs.drop (run Char.isDigit cs) ≠ '.' :: r' := by
        rw [hafter]
        exact fun r' heq => hd (List.cons.inj heq).1
      have hpoint' : ∀ r', (cs ++ rest).drop (run Char.isDigit (cs ++ rest)) ≠ '.' :: r' := by
        rw [hdrop]
        exact fun r' heq => hd (List.cons.inj heq).1
      rw [numberTail_of_no_point hpoint, numberTail_of_no_point hpoint', hrun]

end Lexeme

namespace Piece

variable {c : Char} {cs : List Char} {n : Nat}

theorem gap_le_length (h : front c cs = (.gap, n)) : n ≤ cs.length := by
  obtain ⟨-, rfl⟩ | ⟨-, rfl⟩ := front_gap h
  · exact run_le_length _ cs
  · obtain ⟨line, _, rfl, -, ⟨rfl, hn⟩ | ⟨r, rfl, hn⟩⟩ := commentTail_cases cs
    · rw [hn, List.length_append]
      exact Nat.le_add_right _ _
    · rw [hn, List.length_append, List.length_cons]
      omega

theorem gap_grow (h : front c cs = (.gap, n)) (hn : n < cs.length) (rest : List Char) :
    front c (cs ++ rest) = (.gap, n) := by
  obtain ⟨hc, rfl⟩ | ⟨rfl, rfl⟩ := front_gap h
  · rw [front_blank hc, run_grow hn]
  · obtain ⟨line, _, rfl, hline, ⟨rfl, htail⟩ | ⟨r, rfl, htail⟩⟩ := commentTail_cases cs
    · rw [htail, List.append_nil] at hn
      exact absurd hn (Nat.lt_irrefl _)
    · rw [htail, List.append_assoc, List.cons_append, front_comment hline]

theorem Front.grow {kind : TokenKind} (h : Front c cs kind n) (hn : n < cs.length) (rest : List Char) :
    front c (cs ++ rest) = (.lexeme kind, n) := by
  cases h with
  | opening b hc => rw [hc, front_opening]
  | closing b hc => rw [hc, front_closing]
  | number hc hx =>
    rw [front_of_startsNumber (hc.append rest), numberTail_grow hn,
      List.take_append_of_le_length (numberTail_le_length cs), Piece.number, hx]
  | symbol hc hd =>
    have hd' : ¬ StartsNumber c (cs ++ rest) := by
      rintro (hdigit | ⟨rfl, hdigit⟩)
      · exact hd (.inl hdigit)
      · cases cs with
        | nil => exact absurd hn (Nat.not_lt_zero _)
        | cons d cs => exact hd (.inr ⟨rfl, hdigit⟩)
    rw [front_of_startsSymbol hc hd', run_grow hn, List.take_append_of_le_length hn.le, Piece.symbol]
  | keyword hc => rw [hc, front_keyword, run_grow hn, List.take_append_of_le_length hn.le]
  | @string b after hc hb hcs =>
    have hbody := hb.stringBody_append 0 ('"' :: (after ++ rest))
    rw [Nat.zero_add] at hbody
    rw [hc, hcs, List.append_assoc, List.cons_append]
    refine (front_string hbody).trans ?_
    rw [List.take_left]

end Piece

/-! ### Pieces in a text that is cut off -/

/-- **A gap is the same** in a text that is cut off behind it. -/
theorem Piece.front_gap_take {c : Char} {cs : List Char} {n m : Nat} (h : front c cs = (.gap, n)) (hm : n ≤ m) :
    front c (cs.take m) = (.gap, n) := by
  obtain ⟨hc, rfl⟩ | ⟨rfl, rfl⟩ := front_gap h
  · rw [front_blank hc, run_take hm]
  · obtain ⟨line, _, rfl, hline, ⟨rfl, hn⟩ | ⟨r, rfl, hn⟩⟩ := commentTail_cases cs
    · rw [hn] at hm
      rw [List.take_of_length_le (by rwa [List.append_nil]), h]
    · rw [hn] at hm ⊢
      obtain ⟨k, rfl⟩ := Nat.exists_eq_add_of_le hm
      rw [Nat.add_assoc, List.take_length_add_append, Nat.add_comm 1, List.take_succ_cons, front_comment hline]

/-! ### Pieces up to a place -/

theorem byteLength_cons_append (c : Char) (piece before : List Char) :
    byteLength (c :: (piece ++ before)) = byteLength (c :: piece) + byteLength before :=
  byteLength_append (c :: piece) before

theorem eq_nil_of_byteLength {cs : List Char} (h : byteLength cs = 0) : cs = [] := by
  cases cs with
  | nil => rfl
  | cons c r => exact absurd h (byteLength_pos c r).ne'

/-- **What the scan has passed** from byte `offset` on when it comes to the text `rest`: the tokens of its pieces. -/
inductive Passed (rest : List Char) : Nat → List Char → List Token → Prop
  | done (offset : Nat) : Passed rest offset [] []
  | gap {offset : Nat} {c : Char} {piece before : List Char} {ts : List Token}
    (hfront : Piece.front c (piece ++ (before ++ rest)) = (.gap, piece.length))
    (hrest : Passed rest (offset + byteLength (c :: piece)) before ts) : Passed rest offset (c :: (piece ++ before)) ts
  | token {offset : Nat} {c : Char} {piece before : List Char} {kind : TokenKind} {ts : List Token}
    (hfront : Piece.front c (piece ++ (before ++ rest)) = (.lexeme kind, piece.length))
    (hrest : Passed rest (offset + byteLength (c :: piece)) before ts) :
    Passed rest offset (c :: (piece ++ before)) (⟨kind, offset, offset + byteLength (c :: piece)⟩ :: ts)

namespace Passed

variable {rest before : List Char} {offset : Nat} {ts : List Token}

/-- **The scan comes to the place** with the tokens up to there. -/
theorem scan (h : Passed rest offset before ts) (found : List Token) :
    scanFrom offset found (before ++ rest) = scanFrom (offset + byteLength before) (ts.reverse ++ found) rest := by
  induction h generalizing found with
  | done offset => rfl
  | gap hfront _ ih =>
    rw [List.cons_append, List.append_assoc, scanFrom_gap hfront, List.take_left, List.drop_left, ih,
      byteLength_cons_append, Nat.add_assoc]
  | token hfront _ ih =>
    rw [List.cons_append, List.append_assoc, scanFrom_lexeme hfront, List.take_left, List.drop_left, ih,
      byteLength_cons_append, Nat.add_assoc, List.reverse_cons, List.append_assoc, List.singleton_append]

/-- No token starts before the byte that is started from. -/
theorem le_start (h : Passed rest offset before ts) : ∀ t ∈ ts, offset ≤ t.span.start := by
  induction h with
  | done => exact List.forall_mem_nil _
  | gap _ _ ih => exact fun t ht => (Nat.le_add_right _ _).trans (ih t ht)
  | token _ _ ih => exact List.forall_mem_cons.mpr ⟨le_rfl, fun t ht => (Nat.le_add_right _ _).trans (ih t ht)⟩

/-! ### One stretch after the other -/

section

variable {c : Char} {piece slice : List Char} {us : List Token}

/-- **What is passed in turns** is passed together. -/
theorem append (h : Passed (slice ++ rest) offset before ts)
    (hslice : Passed rest (offset + byteLength before) slice us) :
    Passed rest offset (before ++ slice) (ts ++ us) := by
  induction h with
  | done => exact hslice
  | gap hfront _ ih =>
    rw [byteLength_cons_append, ← Nat.add_assoc] at hslice
    rw [List.cons_append, List.append_assoc]
    exact .gap (by rwa [List.append_assoc]) (ih hslice)
  | token hfront _ ih =>
    rw [byteLength_cons_append, ← Nat.add_assoc] at hslice
    rw [List.cons_append, List.append_assoc, List.cons_append]
    exact .token (by rwa [List.append_assoc]) (ih hslice)

/-- What is passed goes on behind the piece at the front. -/
theorem of_front {p : Piece} (hfront : Piece.front c (piece ++ (before ++ rest)) = (p, piece.length))
    (h : Passed rest offset (c :: (piece ++ before)) us) :
    ∃ vs, Passed rest (offset + byteLength (c :: piece)) before vs ∧ (p = .gap ∧ us = vs ∨
      ∃ kind, p = .lexeme kind ∧ us = ⟨kind, offset, offset + byteLength (c :: piece)⟩ :: vs) := by
  -- the scanner takes the same number of characters in both readings of the text
  have hsame : ∀ {p' : Piece} {piece' before' : List Char}, piece ++ before = piece' ++ before' →
      Piece.front c (piece' ++ (before' ++ rest)) = (p', piece'.length) →
      p = p' ∧ piece = piece' ∧ before = before' := by
    intro p' piece' before' htext hfront'
    rw [← List.append_assoc, ← htext, List.append_assoc, hfront] at hfront'
    obtain ⟨hp, hlength⟩ := Prod.mk.inj hfront'
    exact ⟨hp, List.append_inj htext hlength⟩
  generalize hwhole : c :: (piece ++ before) = whole at h
  cases h with
  | done => cases hwhole
  | gap hfront' hrest =>
    obtain ⟨rfl, htext⟩ := List.cons.inj hwhole
    obtain ⟨rfl, rfl, rfl⟩ := hsame htext hfront'
    exact ⟨us, hrest, .inl ⟨rfl, rfl⟩⟩
  | @token _ _ _ _ kind vs hfront' hrest =>
    obtain ⟨rfl, htext⟩ := List.cons.inj hwhole
    obtain ⟨rfl, rfl, rfl⟩ := hsame htext hfront'
    exact ⟨vs, hrest, .inr ⟨kind, rfl, rfl⟩⟩

/-- **What is passed together** is passed in turns. -/
theorem of_append (h : Passed (slice ++ rest) offset before ts) (hall : Passed rest offset (before ++ slice) us) :
    ∃ vs, us = ts ++ vs ∧ Passed rest (offset + byteLength before) slice vs := by
  induction h generalizing us with
  | done => exact ⟨us, rfl, hall⟩
  | gap hfront _ ih =>
    rw [List.cons_append, List.append_assoc] at hall
    obtain ⟨us', hall', ⟨-, rfl⟩ | ⟨kind, hkind, -⟩⟩ := of_front (by rwa [List.append_assoc]) hall
    · obtain ⟨vs, hvs, hslice⟩ := ih hall'
      exact ⟨vs, hvs, by rwa [byteLength_cons_append, ← Nat.add_assoc]⟩
    · cases hkind
  | token hfront _ ih =>
    rw [List.cons_append, List.append_assoc] at hall
    obtain ⟨us', hall', ⟨hgap, -⟩ | ⟨kind, hkind, rfl⟩⟩ := of_front (by rwa [List.append_assoc]) hall
    · cases hgap
    · cases hkind
      obtain ⟨vs, rfl, hslice⟩ := ih hall'
      exact ⟨vs, rfl, by rwa [byteLength_cons_append, ← Nat.add_assoc]⟩

/-- **A stretch is passed as one token** if and only if the scanner takes all of it for a lexeme. -/
theorem singleton_iff {kind : TokenKind} :
    Passed rest offset (c :: piece) [⟨kind, offset, offset + byteLength (c :: piece)⟩] ↔
      Piece.front c (piece ++ rest) = (.lexeme kind, piece.length) := by
  constructor
  · intro h
    generalize hwhole : c :: piece = whole at h
    generalize hus : [(⟨kind, offset, offset + byteLength whole⟩ : Token)] = us at h
    cases h with
    | done => cases hwhole
    | @gap _ d piece' before vs _ hrest =>
      have hpos := byteLength_pos d piece'
      have hle := hrest.le_start _ (hus ▸ List.mem_singleton_self _)
      dsimp only at hle
      omega
    | @token _ _ _ before _ _ hfront _ =>
      obtain ⟨htoken, -⟩ := List.cons.inj hus
      simp only [Token.mk.injEq, Span.mk.injEq, byteLength_cons_append] at htoken
      obtain ⟨rfl, -, hstop⟩ := htoken
      obtain ⟨rfl, rfl⟩ := List.cons.inj hwhole
      have hbefore : before = [] := eq_nil_of_byteLength (by omega)
      subst hbefore
      rwa [List.append_nil]
  · intro h
    have htoken : Passed rest offset (c :: (piece ++ [])) [⟨kind, offset, offset + byteLength (c :: piece)⟩] :=
      .token h (.done _)
    rwa [List.append_nil] at htoken

end

/-- A piece in front of a character is the same in front of another text with this character first. -/
theorem front_change {c d : Char} {piece r : List Char} {p : Piece} (hp : ∀ cause, p ≠ .broken cause)
    (h : Piece.front c (piece ++ (before ++ d :: r)) = (p, piece.length)) (r' : List Char) :
    Piece.front c (piece ++ (before ++ d :: r')) = (p, piece.length) := by
  -- both texts go on from the one that is cut off behind the character
  have hcut : (piece ++ (before ++ d :: r)).take (piece ++ (before ++ [d])).length = piece ++ (before ++ [d]) := by
    have hsplit : piece ++ (before ++ d :: r) = piece ++ (before ++ [d]) ++ r := by simp
    rw [hsplit, List.take_left]
  have hlt : piece.length < (piece ++ (before ++ [d])).length := by
    simp only [List.length_append, List.length_singleton]
    omega
  have hgrown : piece ++ (before ++ d :: r') = piece ++ (before ++ [d]) ++ r' := by simp
  rw [hgrown]
  cases p with
  | gap =>
    have hshort := Piece.front_gap_take h hlt.le
    rw [hcut] at hshort
    exact Piece.gap_grow hshort hlt r'
  | lexeme kind =>
    have hshort := (Piece.front_of_eq h).take hlt.le
    rw [hcut] at hshort
    exact (Piece.front_of_eq hshort).grow hlt r'
  | broken cause => exact absurd rfl (hp cause)

/-- **Only the first character** of the text from the place on matters for what has been passed. -/
theorem change {d : Char} {r : List Char} (h : Passed (d :: r) offset before ts) (r' : List Char) :
    Passed (d :: r') offset before ts := by
  induction h with
  | done offset => exact .done offset
  | gap hfront _ ih => exact .gap (front_change (by rintro cause ⟨⟩) hfront r') ih
  | token hfront _ ih => exact .token (front_change (by rintro cause ⟨⟩) hfront r') ih

end Passed

section

variable {offset n : Nat} {c : Char} {cs before rest : List Char} {ts : List Token}

/-- A gap at the front has been passed, too. -/
theorem Passed.gap_front (hfront : Piece.front c cs = (.gap, n)) (hcs : cs.drop n = before ++ rest)
    (h : Passed rest (offset + byteLength (c :: cs.take n)) before ts) :
    c :: cs = c :: (cs.take n ++ before) ++ rest ∧ Passed rest offset (c :: (cs.take n ++ before)) ts := by
  have hsplit : cs = cs.take n ++ (before ++ rest) := by rw [← hcs, List.take_append_drop]
  refine ⟨by rw [List.cons_append, List.append_assoc, ← hsplit], .gap ?_ h⟩
  rw [← hsplit, List.length_take_of_le (Piece.gap_le_length hfront), hfront]

/-- So has a lexeme. -/
theorem Passed.token_front {kind : TokenKind} (hfront : Piece.front c cs = (.lexeme kind, n))
    (hcs : cs.drop n = before ++ rest) (h : Passed rest (offset + byteLength (c :: cs.take n)) before ts) :
    c :: cs = c :: (cs.take n ++ before) ++ rest ∧ Passed rest offset (c :: (cs.take n ++ before))
      (⟨kind, offset, offset + byteLength (c :: cs.take n)⟩ :: ts) := by
  have hsplit : cs = cs.take n ++ (before ++ rest) := by rw [← hcs, List.take_append_drop]
  refine ⟨by rw [List.cons_append, List.append_assoc, ← hsplit], .token ?_ h⟩
  rw [← hsplit, List.length_take_of_le (Piece.front_of_eq hfront).le_length, hfront]

end

/-- **A scan that fails** comes to a broken piece. -/
theorem exists_passed_of_error {offset : Nat} {found : List Token} {cs : List Char} {e : ScanError}
    (h : scanFrom offset found cs = .error e) : ∃ before c rest ts n, cs = before ++ c :: rest ∧
      Passed (c :: rest) offset before ts ∧ Piece.front c rest = (.broken e.cause, n) ∧
      e.span = ⟨offset + byteLength before, offset + byteLength before + byteLength (c :: rest.take n)⟩ := by
  fun_induction scanFrom offset found cs with
  | case1 => cases h
  | case2 offset found c cs n stop hfront ih =>
    obtain ⟨before, d, rest, ts, m, hcs, hpassed, hbroken, hspan⟩ := ih h
    obtain ⟨hsplit, hpassed'⟩ := hpassed.gap_front hfront hcs
    refine ⟨_, d, rest, ts, m, hsplit, hpassed', hbroken, ?_⟩
    rw [hspan, byteLength_cons_append, ← Nat.add_assoc]
  | case3 offset found c cs n stop kind hfront ih =>
    obtain ⟨before, d, rest, ts, m, hcs, hpassed, hbroken, hspan⟩ := ih h
    obtain ⟨hsplit, hpassed'⟩ := hpassed.token_front hfront hcs
    refine ⟨_, d, rest, _, m, hsplit, hpassed', hbroken, ?_⟩
    rw [hspan, byteLength_cons_append, ← Nat.add_assoc]
  | case4 offset found c cs n stop cause hfront =>
    cases h
    exact ⟨[], c, cs, [], n, rfl, .done offset, hfront, rfl⟩

/-- **A scan that succeeds** comes to each of its tokens. -/
theorem Cut.passed {offset : Nat} {cs : List Char} {q ts : List Token} {t : Token} (h : Cut offset cs (q ++ t :: ts)) :
    ∃ before rest, cs = before ++ rest ∧ t.span.start = offset + byteLength before ∧ Passed rest offset before q ∧
      Cut t.span.start rest (t :: ts) := by
  generalize hall : q ++ t :: ts = all at h
  induction h generalizing q with
  | mark offset =>
    obtain ⟨rfl, htoken⟩ | ⟨-, htoken⟩ := List.append_eq_singleton_iff.mp hall
    · cases htoken
      exact ⟨[], [], rfl, rfl, .done offset, .mark offset⟩
    · cases htoken
  | gap hfront _ ih =>
    obtain ⟨before, rest, hcs, hstart, hpassed, hcut⟩ := ih hall
    obtain ⟨hsplit, hpassed'⟩ := hpassed.gap_front hfront hcs
    exact ⟨_, rest, hsplit, by rw [hstart, byteLength_cons_append, ← Nat.add_assoc], hpassed', hcut⟩
  | token hfront hrest ih =>
    cases q with
    | nil =>
      obtain ⟨rfl, rfl⟩ := List.cons.inj hall
      exact ⟨[], _, rfl, rfl, .done _, .token hfront hrest⟩
    | cons u q =>
      obtain ⟨rfl, hrest'⟩ := List.cons.inj hall
      obtain ⟨before, rest, hcs, hstart, hpassed, hcut⟩ := ih hrest'
      obtain ⟨hsplit, hpassed'⟩ := hpassed.token_front hfront hcs
      exact ⟨_, rest, hsplit, by rw [hstart, byteLength_cons_append, ← Nat.add_assoc], hpassed', hcut⟩

end MusicLisp
