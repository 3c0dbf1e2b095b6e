import MusicLisp.Proofs.Token.Blanks
import MusicLisp.Proofs.Token.Passing
import MusicLisp.Proofs.Token.Quotes

/-!
# Where a source cannot be cut

A source that cannot be cut into tokens is blocked at one place, and the place is the first one: everything before it
is passed in longest stretches, and nothing can be passed from there on. This is said here without the scanner, by the
patterns of the classes and by which quotes close a string.

* `Stretch`, `Longest`, `Greedy`: what can be passed, the longest of it, and the places that are come to by passing the
  longest each time.
* `Blocked`: a place where nothing can be passed, with the error there. A character that starts nothing is blamed by
  itself; a quote without a closing quote is blamed with the text it takes.
* `longest_of_front`, `Longest.front`: what the scanner takes, if it is not broken, is the longest stretch.
* `front_broken`: what is broken is a stray character or an open string. A number is never broken, since its digits
  and its point can be read (`exists_read`).
* `tokenize_error_exact`: **the error of a source** is the one at the place where it is blocked.
-/

namespace MusicLisp

open Lexeme

/-! ### What can be passed -/

/-- **What can be passed** at a place: a run of blanks, a comment, a lexeme, or a string with its closing quote. -/
inductive Stretch : List Char → Prop
  | blanks {c : Char} {r : List Char} (hblank : ∀ d ∈ c :: r, isBlank d = true) : Stretch (c :: r)
  | comment {line : List Char} (hline : '\n' ∉ line) : Stretch (';' :: line)
  | commentLine {line : List Char} (hline : '\n' ∉ line) : Stretch (';' :: (line ++ ['\n']))
  | lexeme {cs : List Char} (k : TokenClass) (hk : k ≠ .string) (hcs : cs ∈ k.pattern) : Stretch cs
  | string {b : List Char} (hopen : Unclosed b) (heven : slashes b % 2 = 0) : Stretch ('"' :: (b ++ ['"']))

/-- **The longest that can be passed** in front of the text after it. -/
structure Longest (piece after : List Char) : Prop where
  stretch : Stretch piece
  longest : ∀ more rest, more ≠ [] → after = more ++ rest → ¬ Stretch (piece ++ more)

/-- **What is passed greedily** in front of the text `rest`: at each place the longest that can be passed. -/
inductive Greedy (rest : List Char) : List Char → Prop
  | start : Greedy rest []
  | pass {piece before : List Char} (hpiece : Longest piece (before ++ rest)) (hbefore : Greedy rest before) :
    Greedy rest (piece ++ before)

/-- **Nothing can be passed** from a byte on, where this text stands, and that is the error. -/
inductive Blocked (place : Nat) : List Char → ScanError → Prop
  | stray {c : Char} {after : List Char} (hstray : ∀ r, ¬ Stretch (c :: r)) :
    Blocked place (c :: after) ⟨.unexpectedCharacter c, place, place + c.utf8Size⟩
  | unclosed {after : List Char} (hopen : Unclosed after) : Blocked place ('"' :: after)
      ⟨.unterminatedString, place, place + byteLength ('"' :: after.take (after.length - slashes after % 2))⟩

/-- What is the longest in front of a text is so in front of a shorter one. -/
theorem Longest.shorten {piece after rest : List Char} (h : Longest piece (after ++ rest)) : Longest piece after where
  stretch := h.stretch
  longest more rest' hmore hafter := h.longest more (rest' ++ rest) hmore (by rw [hafter, List.append_assoc])

theorem Greedy.shorten {rest before : List Char} (h : Greedy rest before) : Greedy [] before := by
  induction h with
  | start => exact .start
  | pass hpiece _ ih =>
    refine .pass ?_ ih
    rw [List.append_nil]
    exact hpiece.shorten

/-! ### Numbers -/

/-- The digits of a number, with a point among them or behind them, can be read. -/
theorem Lexeme.exists_ofChars? {c : Char} {r : List Char} (hc : c.isDigit = true) (hr : NumberTail r) :
    ∃ d, Decimal.ofChars? (c :: r) = some d := by
  obtain ⟨ds, hds, rfl | ⟨ps, hps, rfl⟩⟩ := hr
  · have hdigits : Decimal.AreDigits (c :: r) := ⟨List.cons_ne_nil c r, List.forall_mem_cons.mpr ⟨hc, hds⟩⟩
    exact ⟨_, (Decimal.Unsigned.whole hdigits).ofChars?⟩
  · have hdigits : Decimal.AreDigits (c :: ds) := ⟨List.cons_ne_nil c ds, List.forall_mem_cons.mpr ⟨hc, hds⟩⟩
    exact ⟨_, Decimal.ofChars?_point hdigits hps⟩

/-- **A number can be read.** -/
theorem Lexeme.exists_read {c : Char} {cs : List Char} (h : StartsNumber c cs) :
    ∃ x, Binary64.read? (c :: cs.take (numberTail cs)) = some x := by
  have htail := numberTail_take cs
  obtain hc | ⟨rfl, -⟩ := id h
  · obtain ⟨d, hd⟩ := exists_ofChars? hc htail
    rw [Binary64.read?_digit hc, Binary64.magnitude?_digit hc, hd]
    exact ⟨_, rfl⟩
  · obtain hminus | ⟨-, hhead⟩ := h.take (Nat.le_refl (numberTail cs))
    · cases hminus
    · cases htake : cs.take (numberTail cs) with
      | nil =>
        rw [htake] at hhead
        cases hhead
      | cons d r =>
        rw [htake] at hhead htail
        obtain ⟨dec, hdec⟩ := exists_ofChars? hhead ((NumberTail.cons hhead).mp htail)
        rw [Binary64.read?, Binary64.magnitude?_digit hhead, hdec]
        exact ⟨_, rfl⟩

/-! ### What the scanner takes -/

namespace Piece

variable {c : Char} {cs : List Char} {n : Nat}

theorem front_number_ok (h : StartsNumber c cs) : ∃ kind, front c cs = (.lexeme kind, numberTail cs) := by
  obtain ⟨x, hx⟩ := exists_read h
  refine ⟨.atom (.number x), ?_⟩
  rw [front_of_startsNumber h, number, hx]

/-- **What is broken** is a character that is stray whatever comes after it, or an open string. -/
theorem front_broken {cause : ScanCause} (h : front c cs = (.broken cause, n)) :
    (cause = .unexpectedCharacter c ∧ n = 0 ∧ ∀ r, front c r = (.broken (.unexpectedCharacter c), 0)) ∨
      c = '"' ∧ cause = .unterminatedString ∧ stringBody 0 cs = (false, n) := by
  by_cases hd : StartsNumber c cs
  · obtain ⟨kind, hnumber⟩ := front_number_ok hd
    rw [hnumber] at h
    cases h
  rw [startsNumber_iff] at hd
  unfold front at h
  rw [if_neg hd] at h
  split at h
  · cases h
  next hblank =>
  split at h
  · cases h
  next hsemi =>
  split at h
  · cases h
  next hopening =>
  split at h
  · cases h
  next hclosing =>
  split at h
  · cases h
  next hsymbol =>
  split at h
  · cases h
  next hcolon =>
  split at h
  · next hquote =>
    split at h
    · cases h
    · next hbody =>
      cases h
      exact .inr ⟨hquote, rfl, hbody⟩
  next hquote =>
  cases h
  refine .inl ⟨rfl, rfl, fun r => ?_⟩
  have hd' : ¬ (c.isDigit || (c = '-' && r.head?.any Char.isDigit)) = true := by
    simp only [Bool.or_eq_true, Bool.and_eq_true, decide_eq_true_eq, not_or, not_and] at hd hsymbol ⊢
    exact ⟨hd.1, fun hminus => absurd hminus hsymbol.2⟩
  unfold front
  rw [if_neg hblank, if_neg hsemi]
  split
  · next b hb => exact absurd hb (hopening b)
  split
  · next b hb => exact absurd hb (hclosing b)
  rw [if_neg hd', if_neg hsymbol, if_neg hcolon, if_neg hquote]

/-- A match of a class other than strings is no broken piece, whatever comes after it. -/
theorem front_lexeme_append {k : TokenClass} {r : List Char} (h : c :: r ∈ k.pattern) (hk : k ≠ .string)
    (rest : List Char) : ∃ kind n, front c (r ++ rest) = (.lexeme kind, n) := by
  cases k with
  | opening b =>
    obtain ⟨rfl, rfl⟩ := List.cons.inj (Pattern.mem_this.mp h)
    exact ⟨_, _, front_opening b _⟩
  | closing b =>
    obtain ⟨rfl, rfl⟩ := List.cons.inj (Pattern.mem_this.mp h)
    exact ⟨_, _, front_closing b _⟩
  | number =>
    obtain ⟨_, _, he, hstart, -⟩ := mem_number.mp h
    obtain ⟨rfl, rfl⟩ := List.cons.inj he
    obtain ⟨kind, hfront⟩ := front_number_ok (hstart.append rest)
    exact ⟨kind, _, hfront⟩
  | symbol =>
    obtain ⟨_, _, he, hstart, -⟩ := mem_symbol.mp h
    obtain ⟨rfl, rfl⟩ := List.cons.inj he
    by_cases hd : StartsNumber c (r ++ rest)
    · obtain ⟨kind, hfront⟩ := front_number_ok hd
      exact ⟨kind, _, hfront⟩
    · exact ⟨_, _, front_of_startsSymbol (hstart.imp_right And.left) hd⟩
  | keyword =>
    obtain ⟨_, he, -⟩ := mem_keyword.mp h
    obtain ⟨rfl, rfl⟩ := List.cons.inj he
    exact ⟨_, _, front_keyword _⟩
  | string => exact absurd rfl hk

end Piece

/-- **What can be passed is passed**, at least up to its end, whatever comes after it. -/
theorem Stretch.front {c : Char} {r : List Char} (h : Stretch (c :: r)) (rest : List Char) :
    ∃ p n, Piece.front c (r ++ rest) = (p, n) ∧ (∀ cause, p ≠ .broken cause) ∧ r.length ≤ n := by
  generalize hcs : c :: r = cs at h
  cases h with
  | blanks hblank =>
    obtain ⟨rfl, rfl⟩ := List.cons.inj hcs
    obtain ⟨hc, hr⟩ := List.forall_mem_cons.mp hblank
    exact ⟨.gap, _, front_blank hc _, nofun, length_le_run hr rest⟩
  | comment hline =>
    obtain ⟨rfl, rfl⟩ := List.cons.inj hcs
    refine ⟨.gap, _, rfl, nofun, ?_⟩
    rw [Piece.commentTail_append hline]
    exact Nat.le_add_right _ _
  | commentLine hline =>
    obtain ⟨rfl, rfl⟩ := List.cons.inj hcs
    rw [List.append_assoc, List.singleton_append]
    exact ⟨.gap, _, Piece.front_comment hline rest, nofun, (List.length_append).le⟩
  | lexeme k hk hmem =>
    rw [← hcs] at hmem
    obtain ⟨kind, n, hfront⟩ := Piece.front_lexeme_append hmem hk rest
    refine ⟨_, n, hfront, nofun, ?_⟩
    have hle := Piece.length_le_front hmem rest
    rwa [hfront] at hle
  | @string b hopen heven =>
    obtain ⟨rfl, rfl⟩ := List.cons.inj hcs
    have hclosed : stringBody 0 (b ++ '"' :: rest) = (true, b.length) :=
      closed_iff.mpr ⟨b, rest, rfl, hopen, heven, rfl⟩
    rw [List.append_assoc, List.singleton_append]
    exact ⟨_, _, Piece.front_string hclosed, nofun, (List.length_append).le⟩

/-- What can be passed is not empty. -/
theorem Stretch.exists_cons {cs : List Char} (h : Stretch cs) : ∃ c r, cs = c :: r := by
  cases h with
  | blanks | comment | commentLine | string => exact ⟨_, _, rfl⟩
  | lexeme k hk hmem =>
    cases k with
    | opening b => exact ⟨_, _, Pattern.mem_this.mp hmem⟩
    | closing b => exact ⟨_, _, Pattern.mem_this.mp hmem⟩
    | number =>
      obtain ⟨c, r, rfl, -⟩ := mem_number.mp hmem
      exact ⟨c, r, rfl⟩
    | symbol =>
      obtain ⟨c, r, rfl, -⟩ := mem_symbol.mp hmem
      exact ⟨c, r, rfl⟩
    | keyword =>
      obtain ⟨r, rfl, -⟩ := mem_keyword.mp hmem
      exact ⟨_, r, rfl⟩
    | string => exact absurd rfl hk

section

variable {c : Char} {cs : List Char} {n : Nat}

theorem stretch_of_gap (h : Piece.front c cs = (.gap, n)) : Stretch (c :: cs.take n) := by
  obtain ⟨hc, rfl⟩ | ⟨rfl, rfl⟩ := front_gap h
  · exact .blanks (List.forall_mem_cons.mpr ⟨hc, forall_mem_take_run isBlank cs⟩)
  · obtain ⟨line, _, rfl, hline, ⟨rfl, hn⟩ | ⟨r, rfl, hn⟩⟩ := commentTail_cases cs
    · rw [hn, List.take_left]
      exact .comment hline
    · rw [hn, List.take_length_add_append]
      exact .commentLine hline

theorem stretch_of_lexeme {kind : TokenKind} (h : Piece.front c cs = (.lexeme kind, n)) :
    Stretch (c :: cs.take n) := by
  have hfront := Piece.front_of_eq h
  obtain ⟨k, hk, hmem⟩ := hfront.mem_pattern
  cases hfront with
  | @string b rest hc hb hcs =>
    obtain ⟨hopen, heven⟩ := hb.unclosed
    rw [hc, hcs, List.take_length_add_append]
    exact .string hopen heven
  | opening | closing | number | symbol | keyword =>
    cases hk
    exact .lexeme _ (by rintro ⟨⟩) hmem

/-- **What the scanner takes** is the longest that can be passed. -/
theorem longest_of_front {p : Piece} (h : Piece.front c cs = (p, n)) (hp : ∀ cause, p ≠ .broken cause) :
    n ≤ cs.length ∧ Longest (c :: cs.take n) (cs.drop n) := by
  obtain ⟨hlength, hstretch⟩ : n ≤ cs.length ∧ Stretch (c :: cs.take n) := by
    cases p with
    | gap => exact ⟨Piece.gap_le_length h, stretch_of_gap h⟩
    | lexeme kind => exact ⟨(Piece.front_of_eq h).le_length, stretch_of_lexeme h⟩
    | broken cause => exact absurd rfl (hp cause)
  refine ⟨hlength, hstretch, fun more rest hmore hafter hlonger => ?_⟩
  have hcs : cs.take n ++ more ++ rest = cs := by rw [List.append_assoc, ← hafter, List.take_append_drop]
  obtain ⟨p', n', hfront, -, hle⟩ := Stretch.front (r := cs.take n ++ more) hlonger rest
  rw [hcs, h] at hfront
  obtain ⟨rfl, rfl⟩ := Prod.mk.inj hfront
  have hpos := List.length_pos_of_ne_nil hmore
  rw [List.length_append, List.length_take_of_le hlength] at hle
  omega

end

/-- **The longest that can be passed** is what the scanner takes. -/
theorem Longest.front {piece after : List Char} (h : Longest piece after) : ∃ c r p, piece = c :: r ∧
    Piece.front c (r ++ after) = (p, r.length) ∧ ∀ cause, p ≠ .broken cause := by
  obtain ⟨c, r, rfl⟩ := h.stretch.exists_cons
  obtain ⟨p, n, hfront, hp, hle⟩ := h.stretch.front after
  obtain ⟨hn, hstretch, -⟩ := longest_of_front hfront hp
  refine ⟨c, r, p, rfl, ?_, hp⟩
  obtain rfl | hlt := Nat.eq_or_lt_of_le hle
  · exact hfront
  · -- what the scanner takes beyond the piece would make it longer
    obtain ⟨k, rfl⟩ := Nat.exists_eq_add_of_lt hlt
    rw [Nat.add_assoc, List.take_length_add_append] at hstretch
    rw [List.length_append] at hn
    have hmore : after.take (k + 1) ≠ [] := by
      refine List.ne_nil_of_length_pos ?_
      rw [List.length_take]
      omega
    exact absurd hstretch (h.longest _ _ hmore (List.take_append_drop (k + 1) after).symm)

/-! ### Passing greedily -/

section

variable {rest before : List Char}

theorem Greedy.passed (h : Greedy rest before) (offset : Nat) : ∃ ts, Passed rest offset before ts := by
  induction h generalizing offset with
  | start => exact ⟨[], .done offset⟩
  | pass hpiece _ ih =>
    obtain ⟨c, r, p, rfl, hfront, hp⟩ := hpiece.front
    obtain ⟨ts, hts⟩ := ih (offset + byteLength (c :: r))
    cases p with
    | gap => exact ⟨ts, .gap hfront hts⟩
    | lexeme kind => exact ⟨_, .token hfront hts⟩
    | broken cause => exact absurd rfl (hp cause)

theorem longest_of_piece {c : Char} {piece after : List Char} {p : Piece}
    (h : Piece.front c (piece ++ after) = (p, piece.length)) (hp : ∀ cause, p ≠ .broken cause) :
    Longest (c :: piece) after := by
  have hlongest := (longest_of_front h hp).2
  rwa [List.take_left, List.drop_left] at hlongest

theorem Passed.greedy {offset : Nat} {ts : List Token} (h : Passed rest offset before ts) : Greedy rest before := by
  induction h with
  | done => exact .start
  | gap hfront _ ih => exact .pass (longest_of_piece hfront nofun) ih
  | token hfront _ ih => exact .pass (longest_of_piece hfront nofun) ih

/-- **What is passed greedily** can be cut into tokens. -/
theorem Greedy.tokenize {rest : List Char} {before : String} (h : Greedy rest before.toList) :
    ∃ ts, MusicLisp.tokenize before = .ok ts := by
  obtain ⟨ts, hts⟩ := h.shorten.passed 0
  have hscan := hts.scan []
  rw [List.append_nil, scanFrom] at hscan
  exact ⟨_, hscan⟩

end

/-! ### What blocks -/

theorem blocked_of_front {c : Char} {cs : List Char} {cause : ScanCause} {n : Nat}
    (h : Piece.front c cs = (.broken cause, n)) (place : Nat) :
    Blocked place (c :: cs) ⟨cause, place, place + byteLength (c :: cs.take n)⟩ := by
  obtain ⟨rfl, rfl, hstray⟩ | ⟨rfl, rfl, hbody⟩ := Piece.front_broken h
  · rw [List.take_zero, byteLength_cons]
    refine .stray fun r hr => ?_
    obtain ⟨p, m, hfront, hp, -⟩ := hr.front []
    rw [hstray] at hfront
    exact hp _ (Prod.mk.inj hfront).1.symm
  · obtain ⟨hopen, rfl⟩ := open_iff.mp hbody
    exact .unclosed hopen

theorem Blocked.front {place : Nat} {cs : List Char} {e : ScanError} (h : Blocked place cs e) : ∃ c r n,
    cs = c :: r ∧ Piece.front c r = (.broken e.cause, n) ∧
      e.span = ⟨place, place + byteLength (c :: r.take n)⟩ := by
  cases h with
  | @stray c after hstray =>
    cases hfront : Piece.front c after with
    | mk p n =>
      by_cases hp : ∀ cause, p ≠ .broken cause
      · exact absurd (longest_of_front hfront hp).2.stretch (hstray _)
      · obtain ⟨cause, rfl⟩ : ∃ cause, p = .broken cause := by simpa using hp
        obtain ⟨rfl, rfl, -⟩ | ⟨rfl, -, -⟩ := Piece.front_broken hfront
        · exact ⟨c, after, 0, rfl, hfront, by rw [List.take_zero, byteLength_cons]; rfl⟩
        · exact absurd (.string unclosed_nil rfl) (hstray _)
  | @unclosed after hopen => exact ⟨'"', after, _, rfl, Piece.front_open (open_iff.mpr ⟨hopen, rfl⟩), rfl⟩

/-- **The error of a source is exact.** A source fails with an error if and only if passing greedily comes to a place
where nothing can be passed and this is the error there; what is passed greedily can be cut into tokens; and neither a
number nor a token without a name is ever to blame. -/
theorem tokenize_error_exact (source : String) :
    (∀ e, tokenize source = .error e ↔ ∃ before rest : String, source = before ++ rest ∧
      Greedy rest.toList before.toList ∧ Blocked before.utf8ByteSize rest.toList e) ∧
    (∀ before rest : String, source = before ++ rest → Greedy rest.toList before.toList →
      ∃ ts, tokenize before = .ok ts) ∧
    ∀ e, tokenize source = .error e → e.cause ≠ .invalidToken ∧ ∀ text, e.cause ≠ .invalidNumber text := by
  refine ⟨fun e => ⟨fun h => ?_, ?_⟩, fun before rest _ hgreedy => hgreedy.tokenize, fun e h => ?_⟩
  · obtain ⟨before, c, rest, ts, n, hsource, hpassed, hbroken, hspan⟩ := exists_passed_of_error h
    refine ⟨String.ofList before, String.ofList (c :: rest), ?_, ?_, ?_⟩
    · rw [← String.toList_inj, hsource, String.toList_append, String.toList_ofList, String.toList_ofList]
    · rw [String.toList_ofList, String.toList_ofList]
      exact hpassed.greedy
    · have hblocked := blocked_of_front hbroken (String.ofList before).utf8ByteSize
      rw [← byteLength_eq_utf8ByteSize] at hblocked ⊢
      rw [Nat.zero_add] at hspan
      rw [← hspan] at hblocked
      rwa [String.toList_ofList]
  · rintro ⟨before, rest, rfl, hgreedy, hblocked⟩
    obtain ⟨ts, hpassed⟩ := hgreedy.passed 0
    obtain ⟨c, r, n, hrest, hfront, hspan⟩ := hblocked.front
    have hscan := hpassed.scan []
    rw [tokenize, String.toList_append, hscan, hrest, scanFrom, hfront, Nat.zero_add, byteLength_toList]
    dsimp only
    rw [← hspan]
  · obtain ⟨before, c, rest, ts, n, -, -, hbroken, -⟩ := exists_passed_of_error h
    obtain ⟨hcause, -⟩ | ⟨-, hcause, -⟩ := Piece.front_broken hbroken
    · simp [hcause]
    · simp [hcause]

example : tokenize "(f \"a\\" = .error ⟨.unterminatedString, ⟨3, 5⟩⟩ := by cbv

end MusicLisp
