import Mathlib.Data.List.TakeWhile
import MusicLisp.Proofs.Number.Text
import MusicLisp.Proofs.Token.Strings

/-!
# Pieces of scanned and of written text

What the scanner takes for an atom, and what it makes of a written atom.

* `scanned_of_front`: the atoms that the front of a text turns out to be are as `Atom.Scanned` has them.
* `writes_text`: such an atom is written as one lexeme, whatever delimited text comes after it, and comes
  back as `Atom.reread` has it.
* `Atom.reread_eq_iff`: it comes back as itself if and only if it lasts (`Atom.Lasts`).
-/

namespace MusicLisp

open Lexeme

namespace Lexeme

/-! ### Character classes -/

theorem isMark_of_isDigit {c : Char} (h : c.isDigit = true) : isMark c = false := by
  by_contra hm
  simp only [isMark, Bool.not_eq_false, Bool.or_eq_true, decide_eq_true_eq] at hm
  rcases hm with (((((((rfl | rfl) | rfl) | rfl) | rfl) | rfl) | rfl) | rfl) | rfl <;>
    exact absurd h (by decide)

theorem isAlpha_of_isDigit {c : Char} (h : c.isDigit = true) : c.isAlpha = false := by
  have hle : c.toNat ≤ 57 := (Char.isDigit_iff_toNat.mp h).2
  by_contra ha
  simp only [Char.isAlpha, Char.isUpper, Char.isLower, Bool.not_eq_false, Bool.or_eq_true,
    Bool.and_eq_true, decide_eq_true_eq] at ha
  rcases ha with ⟨ha, -⟩ | ⟨ha, -⟩
  · have hge : 65 ≤ c.toNat := UInt32.le_iff_toNat_le.mp ha
    omega
  · have hge : 97 ≤ c.toNat := UInt32.le_iff_toNat_le.mp ha
    omega

theorem isDigit_of_startsSymbol {c : Char} (h : startsSymbol c = true) : c.isDigit = false := by
  by_contra hd
  rw [Bool.not_eq_false] at hd
  rw [startsSymbol, isAlpha_of_isDigit hd, isMark_of_isDigit hd] at h
  cases h

/-- The character is no blank, starts no comment and is no bracket. -/
def Inner (c : Char) : Prop :=
  isBlank c = false ∧ c ≠ ';' ∧ Bracket.ofOpenChar? c = none ∧ Bracket.ofCloseChar? c = none

/-- The characters between which lexemes stand. -/
def outer : List Char := [' ', '\t', '\n', '\r', '\x0c', ';', '(', ')', '[', ']', '\x7b', '\x7d']

theorem inner_of_class {p : Char → Bool} (hp : outer.any p = false) {c : Char} (h : p c = true) :
    Inner c := by
  have hne : c ∉ outer := fun hc => List.any_eq_false.mp hp c hc h
  refine ⟨?_, fun hc => hne (by rw [hc]; decide),
    Option.eq_none_iff_forall_ne_some.mpr fun b hb => hne ?_,
    Option.eq_none_iff_forall_ne_some.mpr fun b hb => hne ?_⟩
  · by_contra hb
    simp only [isBlank, Bool.not_eq_false, Bool.or_eq_true, decide_eq_true_eq] at hb
    rcases hb with (((rfl | rfl) | rfl) | rfl) | rfl <;> exact hne (by decide)
  · rw [Bracket.ofOpenChar?_eq_some_iff.mp hb]
    cases b <;> decide
  · rw [Bracket.ofCloseChar?_eq_some_iff.mp hb]
    cases b <;> decide

theorem inner_of_startsSymbol {c : Char} (h : startsSymbol c = true) : Inner c :=
  inner_of_class rfl h

theorem inner_of_isDigit {c : Char} (h : c.isDigit = true) : Inner c :=
  inner_of_class rfl h

theorem inner_minus : Inner '-' := ⟨rfl, by decide, rfl, rfl⟩

end Lexeme

namespace Piece

open Lexeme

section Branches

variable {c : Char} (h : Inner c)
include h

theorem front_number {cs : List Char}
    (hd : c.isDigit = true ∨ c = '-' ∧ cs.head?.any Char.isDigit = true) :
    front c cs = (number (c :: cs.take (numberTail cs)), numberTail cs) := by
  obtain ⟨hblank, hsemi, hopen, hclose⟩ := h
  have hcond : (c.isDigit || (c = '-' && cs.head?.any Char.isDigit)) = true := by
    simpa using hd
  unfold front
  rw [if_neg (by rw [hblank]; exact Bool.false_ne_true), if_neg hsemi, hopen, hclose]
  dsimp only
  rw [if_pos hcond]

theorem front_symbol {cs : List Char} (hs : startsSymbol c = true ∨ c = '-')
    (hd : (c.isDigit || (c = '-' && cs.head?.any Char.isDigit)) = false) :
    front c cs = (symbol (c :: cs.take (run isSymbolChar cs)), run isSymbolChar cs) := by
  obtain ⟨hblank, hsemi, hopen, hclose⟩ := h
  have hcond : (startsSymbol c || c = '-') = true := by simpa using hs
  unfold front
  rw [if_neg (by rw [hblank]; exact Bool.false_ne_true), if_neg hsemi, hopen, hclose]
  dsimp only
  rw [if_neg (by rw [hd]; exact Bool.false_ne_true), if_pos hcond]

end Branches

theorem front_keyword (cs : List Char) : front ':' cs =
    (.lexeme (.atom (.keyword (String.ofList (cs.take (run isSymbolChar cs))))), run isSymbolChar cs) :=
  rfl

theorem front_string {cs : List Char} {n : Nat} (h : stringBody 0 cs = (true, n)) :
    front '"' cs = (.lexeme (.atom (.string (String.ofList (unescape (cs.take n))))), n + 1) := by
  simp only [front, h]
  rfl

theorem front_opening (b : Bracket) (cs : List Char) :
    front b.openChar cs = (.lexeme (.opening b), 0) := by
  cases b <;> rfl

theorem front_closing (b : Bracket) (cs : List Char) :
    front b.closeChar cs = (.lexeme (.closing b), 0) := by
  cases b <;> rfl

theorem front_space (cs : List Char) : front ' ' cs = (.gap, run isBlank cs) := rfl

/-! ### Scanned atoms -/

/-- The characters make a symbol. -/
def IsSymbol (cs : List Char) : Prop :=
  ∃ c r, cs = c :: r ∧ (startsSymbol c = true ∨ c = '-' ∧ Stops Char.isDigit r) ∧
    ∀ d ∈ r, isSymbolChar d = true

theorem isSymbol_cons {c : Char} {r : List Char} : IsSymbol (c :: r) ↔
    (startsSymbol c = true ∨ c = '-' ∧ (r.head?.any Char.isDigit) = false) ∧ r.all isSymbolChar = true := by
  rw [List.all_eq_true]
  constructor
  · rintro ⟨c, r, ⟨⟩, hstart, hr⟩
    exact ⟨hstart.imp_right fun hminus => ⟨hminus.1, Stops.any_head? hminus.2⟩, hr⟩
  · rintro ⟨hstart, hr⟩
    refine ⟨c, r, rfl, hstart.imp_right fun hminus => ⟨hminus.1, fun d hd => ?_⟩, hr⟩
    have hany := hminus.2
    rw [Option.mem_def.mp hd] at hany
    exact hany

instance : DecidablePred IsSymbol
  | [] => isFalse (by rintro ⟨c, r, hcs, -⟩; cases hcs)
  | _ :: _ => decidable_of_iff _ isSymbol_cons.symm

end Piece

/-- **What a scanned atom is like.** -/
def Atom.Scanned : Atom → Prop
  | number _ => True
  | string s => Decoded s.toList
  | keyword name => ∀ c ∈ name.toList, isSymbolChar c = true
  | symbol name => Piece.IsSymbol name.toList

/-- What a scanned token is like, the mark at the end apart. -/
def TokenKind.Scanned : TokenKind → Prop
  | atom a => a.Scanned
  | endOfInput => False
  | _ => True

namespace Piece

theorem take_run (p : Char → Bool) (cs : List Char) : cs.take (run p cs) = cs.takeWhile p :=
  (List.prefix_iff_eq_take.mp (List.takeWhile_prefix p)).symm

theorem isSymbol_take {c : Char} {cs : List Char} (hs : (startsSymbol c || c = '-') = true)
    (hd : ¬ (c.isDigit || (c = '-' && cs.head?.any Char.isDigit)) = true) :
    IsSymbol (String.ofList (c :: cs.take (run isSymbolChar cs))).toList := by
  rw [String.toList_ofList, take_run]
  refine ⟨c, cs.takeWhile isSymbolChar, rfl, ?_, fun d hd => List.mem_takeWhile_imp hd⟩
  rcases Bool.or_eq_true_iff.mp hs with hs | hs
  · exact .inl hs
  · have hc : c = '-' := of_decide_eq_true hs
    refine .inr ⟨hc, ?_⟩
    intro d hdmem
    cases cs with
    | nil => cases hdmem
    | cons e r =>
      rw [List.takeWhile_cons] at hdmem
      split at hdmem
      · cases hdmem
        simpa [hc] using hd
      · cases hdmem

/-- What the front of a text turns out to be is scanned. -/
theorem scanned_of_front {c : Char} {cs : List Char} {kind : TokenKind} {n : Nat}
    (h : front c cs = (.lexeme kind, n)) : kind.Scanned := by
  unfold front at h
  split at h
  · cases h
  split at h
  · cases h
  split at h
  · cases h; trivial
  split at h
  · cases h; trivial
  split at h
  · have hnumber := congrArg Prod.fst h
    simp only [number] at hnumber
    split at hnumber
    · cases hnumber; trivial
    · cases hnumber
  next hdigit =>
  split at h
  · next hstart =>
    cases h
    exact isSymbol_take hstart hdigit
  split at h
  · cases h
    change ∀ d ∈ (String.ofList (cs.take (run isSymbolChar cs))).toList, _
    rw [String.toList_ofList, take_run]
    exact fun d hd => List.mem_takeWhile_imp hd
  split at h
  · split at h
    · next n' hbody =>
      cases h
      change Decoded (String.ofList _).toList
      rw [String.toList_ofList]
      exact (decoded_unescape 0 n' cs hbody).2
    · cases h
  · cases h

end Piece

/-! ### Written atoms -/

/-- No number, symbol or keyword goes on into the text. -/
def Delimited (rest : List Char) : Prop := ∀ c ∈ rest.head?, isSymbolChar c = false ∧ c ≠ '.'

theorem Delimited.stops_symbol {rest : List Char} (h : Delimited rest) : Stops isSymbolChar rest :=
  fun c hc => (h c hc).1

theorem Delimited.stops_digit {rest : List Char} (h : Delimited rest) : Stops Char.isDigit rest := by
  intro c hc
  have hsym := (h c hc).1
  simp only [isSymbolChar, Char.isAlphanum, Bool.or_eq_false_iff] at hsym
  exact hsym.1.1.2

namespace Lexeme

theorem run_append {p : Char → Bool} {cs rest : List Char} (hcs : ∀ c ∈ cs, p c = true)
    (hrest : Stops p rest) : run p (cs ++ rest) = cs.length := by
  rw [run, takeWhile_run hcs hrest]

theorem numberTail_digits {ds rest : List Char} (hd : ∀ c ∈ ds, c.isDigit = true)
    (hrest : Delimited rest) : numberTail (ds ++ rest) = ds.length := by
  unfold numberTail
  dsimp only
  rw [run_append hd hrest.stops_digit, List.drop_left]
  split
  · next hr => exact absurd rfl (hrest '.' (by rfl)).2
  · rfl

theorem numberTail_point {ds ps rest : List Char} (hd : ∀ c ∈ ds, c.isDigit = true)
    (hp : ∀ c ∈ ps, c.isDigit = true) (hrest : Delimited rest) :
    numberTail ((ds ++ '.' :: ps) ++ rest) = (ds ++ '.' :: ps).length := by
  have hpoint : Stops Char.isDigit ('.' :: (ps ++ rest)) := by rintro c ⟨⟩; rfl
  unfold numberTail
  dsimp only
  rw [List.append_assoc, List.cons_append, run_append hd hpoint, List.drop_left]
  change ds.length + 1 + run Char.isDigit (ps ++ rest) = _
  rw [run_append hp hrest.stops_digit, List.length_append, List.length_cons]
  omega

/-- All of an unsigned number is taken, and all of it but its first digit after that one. -/
theorem numberTail_unsigned {cs ds ps rest : List Char} (h : Decimal.Unsigned cs ds ps)
    (hrest : Delimited rest) : numberTail (cs ++ rest) = cs.length ∧
      numberTail (cs.tail ++ rest) = cs.tail.length := by
  cases h with
  | whole hd => exact ⟨numberTail_digits hd.2 hrest,
      numberTail_digits (fun c hc => hd.2 c (List.mem_of_mem_tail hc)) hrest⟩
  | point hd hp =>
    refine ⟨numberTail_point hd.2 hp.2 hrest, ?_⟩
    rw [List.tail_append_of_ne_nil hd.1]
    exact numberTail_point (fun c hc => hd.2 c (List.mem_of_mem_tail hc)) hp.2 hrest

end Lexeme

/-- **What an atom comes back as** when its text is scanned: a number that is not finite as a symbol of that
name, and a string as what its escapes are decoded to. -/
def Atom.reread : Atom → Atom
  | number x => if x.isFinite then number x else symbol (numberText x)
  | string s => string (String.ofList (unescape (s.toList.flatMap escapeChar)))
  | keyword name => keyword name
  | symbol name => symbol name

namespace Piece

/-- The text is one lexeme of the kind, whatever comes after it that does not go on with it. -/
def Writes (text : List Char) (kind : TokenKind) : Prop :=
  ∀ rest, Delimited rest → ∃ c r, text = c :: r ∧ front c (r ++ rest) = (.lexeme kind, r.length)

theorem writes_number {x : Float} (h : x.isFinite = true) :
    Writes (numberText x).toList (.atom (.number x)) := by
  intro rest hrest
  obtain ⟨negative, cs, ds, ps, hcs, htext, hread⟩ := read?_numberText h
  obtain ⟨htail, htail'⟩ := numberTail_unsigned hcs hrest
  obtain ⟨c, r, rfl, hc⟩ := hcs.exists_cons
  cases negative with
  | true =>
    rw [if_pos rfl] at htext
    refine ⟨'-', c :: r, htext, ?_⟩
    have hhead : (c :: r ++ rest).head?.any Char.isDigit = true := hc
    rw [front_number inner_minus (.inr ⟨rfl, hhead⟩), htail, List.take_left, number, ← htext, hread]
  | false =>
    rw [if_neg Bool.false_ne_true] at htext
    refine ⟨c, r, htext, ?_⟩
    rw [List.tail_cons] at htail'
    rw [front_number (inner_of_isDigit hc) (.inl hc), htail', List.take_left, number, ← htext, hread]

theorem writes_symbol {name : String} (h : IsSymbol name.toList) :
    Writes name.toList (.atom (.symbol name)) := by
  intro rest hrest
  obtain ⟨c, r, hname, hstart, hr⟩ := h
  refine ⟨c, r, hname, ?_⟩
  have hrun : run isSymbolChar (r ++ rest) = r.length := run_append hr hrest.stops_symbol
  rcases hstart with hstart | ⟨rfl, hstop⟩
  · have hminus : c ≠ '-' := by rintro rfl; cases hstart
    have hdigit : (c.isDigit || (c = '-' && (r ++ rest).head?.any Char.isDigit)) = false := by
      rw [isDigit_of_startsSymbol hstart, decide_eq_false hminus]; rfl
    rw [front_symbol (inner_of_startsSymbol hstart) (.inl hstart) hdigit, hrun, List.take_left, symbol,
      ← hname, String.ofList_toList]
  · have hdigit : ('-'.isDigit || ('-' = '-' && (r ++ rest).head?.any Char.isDigit)) = false :=
      (hstop.append hrest.stops_digit).any_head?
    rw [front_symbol inner_minus (.inr rfl) hdigit, hrun, List.take_left, symbol, ← hname,
      String.ofList_toList]

theorem writes_keyword {name : String} (h : ∀ c ∈ name.toList, isSymbolChar c = true) :
    Writes (":" ++ name).toList (.atom (.keyword name)) := by
  intro rest hrest
  refine ⟨':', name.toList, String.toList_append, ?_⟩
  rw [front_keyword, run_append h hrest.stops_symbol, List.take_left, String.ofList_toList]

theorem writes_string {s : String} (h : Decoded s.toList) :
    Writes (quoted s).toList (.atom (.string (String.ofList (unescape (s.toList.flatMap escapeChar))))) := by
  intro rest _
  refine ⟨'"', s.toList.flatMap escapeChar ++ ['"'], ?_, ?_⟩
  · simp only [quoted, String.toList_append, String.toList_ofList]
    rfl
  · rw [List.append_assoc]
    have hbody := stringBody_escape h 0 rest
    rw [Nat.zero_add] at hbody
    refine (front_string hbody).trans ?_
    rw [List.take_left, List.length_append]
    rfl

/-- The name that a double that is not finite is written with is a symbol. -/
theorem isSymbol_numberText {x : Float} (h : x.isFinite = false) : IsSymbol (numberText x).toList := by
  rcases numberText_of_not_isFinite h with h | h | h <;> rw [h]
  · exact ⟨'N', ['a', 'N'], rfl, .inl rfl, List.all_eq_true.mp rfl⟩
  · exact ⟨'i', ['n', 'f'], rfl, .inl rfl, List.all_eq_true.mp rfl⟩
  · exact ⟨'-', ['i', 'n', 'f'], rfl, .inr ⟨rfl, by rintro c ⟨⟩; rfl⟩, List.all_eq_true.mp rfl⟩

/-- **A scanned atom is written as one lexeme**, and comes back as `Atom.reread` has it. -/
theorem writes_text {a : Atom} (ha : a.Scanned) : Writes a.text.toList (.atom a.reread) := by
  cases a with
  | number x =>
    by_cases hx : x.isFinite = true
    · rw [Atom.reread, if_pos hx]
      exact writes_number hx
    · rw [Atom.reread, if_neg hx]
      exact writes_symbol (isSymbol_numberText (Bool.eq_false_iff.mpr hx))
  | string s => exact writes_string ha
  | keyword name => exact writes_keyword ha
  | symbol name => exact writes_symbol ha

end Piece

/-- The atom comes back from its text: it is no number that is not finite, and no string with a newline
behind an odd number of backslashes. -/
def Atom.Lasts : Atom → Prop
  | number x => x.isFinite = true
  | string s => ¬ OddNewline s.toList
  | _ => True

theorem Atom.reread_eq_iff {a : Atom} (ha : a.Scanned) : a.reread = a ↔ a.Lasts := by
  cases a with
  | number x =>
    by_cases hx : x.isFinite = true
    · rw [reread, if_pos hx]
      exact iff_of_true rfl hx
    · rw [reread, if_neg hx]
      exact iff_of_false Atom.noConfusion hx
  | string s =>
    rw [reread, Lasts, ← unescape_escape_iff ha, string.injEq, ← String.toList_inj,
      String.toList_ofList]
  | keyword name => exact iff_of_true rfl trivial
  | symbol name => exact iff_of_true rfl trivial

end MusicLisp
