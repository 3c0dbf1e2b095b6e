import Mathlib.Computability.Language
import MusicLisp.Proofs.Token.Pieces

/-!
# Classes of tokens

Each class of tokens has a pattern, a language over the characters.

* `TokenClass.pattern`: the pattern of each class.
* `mem_string`, `mem_number`, `mem_keyword`, `mem_symbol`: what a match looks like from its first character on.
-/

namespace MusicLisp

open Computability Lexeme

/-- The classes of tokens. -/
inductive TokenClass where
  | opening (bracket : Bracket)
  | closing (bracket : Bracket)
  | number
  | string
  | keyword
  | symbol
deriving DecidableEq, Repr

/-- The class of a token, which the mark at the end does not have. -/
def TokenKind.class? : TokenKind → Option TokenClass
  | opening b => some (.opening b)
  | closing b => some (.closing b)
  | atom (.number _) => some .number
  | atom (.string _) => some .string
  | atom (.keyword _) => some .keyword
  | atom (.symbol _) => some .symbol
  | endOfInput => none

/-! ### Patterns -/

namespace Pattern

/-- One character with a property. -/
def one (p : Char → Bool) : Language Char := {cs | ∃ c, p c = true ∧ cs = [c]}

/-- This character. -/
def this (c : Char) : Language Char := {[c]}

/-- A text of the language, or nothing. -/
def maybe (l : Language Char) : Language Char := 1 + l

theorem mem_this {c : Char} {cs : List Char} : cs ∈ this c ↔ cs = [c] := Iff.rfl

theorem mem_maybe {l : Language Char} {cs : List Char} : cs ∈ maybe l ↔ cs = [] ∨ cs ∈ l := Iff.rfl

theorem mem_one_mul {p : Char → Bool} {l : Language Char} {cs : List Char} :
    cs ∈ one p * l ↔ ∃ c r, cs = c :: r ∧ p c = true ∧ r ∈ l := by
  rw [Language.mem_mul]
  constructor
  · rintro ⟨_, ⟨c, hc, rfl⟩, r, hr, rfl⟩
    exact ⟨c, r, rfl, hc, hr⟩
  · rintro ⟨c, r, rfl, hc, hr⟩
    exact ⟨[c], ⟨c, hc, rfl⟩, r, hr, rfl⟩

theorem mem_this_mul {c : Char} {l : Language Char} {cs : List Char} :
    cs ∈ this c * l ↔ ∃ r, cs = c :: r ∧ r ∈ l := by
  rw [Language.mem_mul]
  constructor
  · rintro ⟨_, rfl, r, hr, rfl⟩
    exact ⟨r, rfl, hr⟩
  · rintro ⟨r, rfl, hr⟩
    exact ⟨[c], rfl, r, hr, rfl⟩

/-- A run of characters with a property, possibly empty. -/
theorem mem_star_one {p : Char → Bool} {cs : List Char} : cs ∈ (one p)∗ ↔ ∀ c ∈ cs, p c = true := by
  rw [Language.mem_kstar]
  constructor
  · rintro ⟨L, rfl, hL⟩ c hc
    obtain ⟨y, hy, hcy⟩ := List.mem_flatten.mp hc
    obtain ⟨d, hd, rfl⟩ := hL y hy
    rwa [List.mem_singleton.mp hcy]
  · intro h
    refine ⟨cs.map fun c => [c], ?_, fun y hy => ?_⟩
    · induction cs with
      | nil => rfl
      | cons c r ih =>
        rw [List.map_cons, List.flatten_cons, ← ih fun d hd => h d (List.mem_cons_of_mem _ hd)]
        rfl
    · obtain ⟨c, hc, rfl⟩ := List.mem_map.mp hy
      exact ⟨c, h c hc, rfl⟩

end Pattern

open Pattern in
/-- **The pattern of a class.** A string may lack its closing quote. -/
def TokenClass.pattern : TokenClass → Language Char
  | opening b => this b.openChar
  | closing b => this b.closeChar
  | number =>
    maybe (this '-') * (one Char.isDigit * (one Char.isDigit)∗) *
      maybe (this '.' * (one Char.isDigit)∗)
  | string =>
    this '"' * (one (fun c => c ≠ '"' && c ≠ '\\') + this '\\' * one fun _ => true)∗ *
      maybe (this '"')
  | keyword => this ':' * (one isSymbolChar)∗
  | symbol =>
    one startsSymbol * (one isSymbolChar)∗ +
      this '-' * maybe (one (fun c => startsSymbol c || c = '-') * (one isSymbolChar)∗)

namespace Lexeme

open Pattern

/-! ### Matches from their first character on -/

theorem isSymbolChar_iff (c : Char) :
    isSymbolChar c = true ↔ c.isDigit = true ∨ startsSymbol c = true ∨ c = '-' := by
  simp only [isSymbolChar, startsSymbol, Char.isAlphanum, Bool.or_eq_true, decide_eq_true_eq]
  grind

theorem mem_keyword {cs : List Char} :
    cs ∈ TokenClass.keyword.pattern ↔ ∃ r, cs = ':' :: r ∧ ∀ d ∈ r, isSymbolChar d = true := by
  rw [TokenClass.pattern, mem_this_mul]
  simp only [mem_star_one]

theorem mem_symbol {cs : List Char} : cs ∈ TokenClass.symbol.pattern ↔ Piece.IsSymbol cs := by
  rw [TokenClass.pattern, Piece.IsSymbol, Language.mem_add, mem_one_mul, mem_this_mul]
  simp only [mem_maybe, mem_one_mul, mem_star_one]
  constructor
  · rintro (⟨c, r, rfl, hc, hr⟩ | ⟨r, rfl, rfl | ⟨d, r, rfl, hd, hr⟩⟩)
    · exact ⟨c, r, rfl, .inl hc, hr⟩
    · exact ⟨'-', [], rfl, .inr ⟨rfl, by rintro c ⟨⟩⟩, by rintro c ⟨⟩⟩
    · have hd' : startsSymbol d = true ∨ d = '-' := by simpa using hd
      refine ⟨'-', d :: r, rfl, .inr ⟨rfl, ?_⟩, ?_⟩
      · rintro c ⟨⟩
        rcases hd' with hd' | rfl
        · exact isDigit_of_startsSymbol hd'
        · rfl
      · rintro e (_ | ⟨_, he⟩)
        · exact (isSymbolChar_iff d).mpr (.inr hd')
        · exact hr e he
  · rintro ⟨c, r, rfl, hc | ⟨rfl, hstop⟩, hr⟩
    · exact .inl ⟨c, r, rfl, hc, hr⟩
    · refine .inr ⟨r, rfl, ?_⟩
      cases r with
      | nil => exact .inl rfl
      | cons d r =>
        have hdigit : d.isDigit = false := hstop d rfl
        have hd := (isSymbolChar_iff d).mp (hr d List.mem_cons_self)
        rw [hdigit] at hd
        refine .inr ⟨d, r, rfl, ?_, fun e he => hr e (List.mem_cons_of_mem _ he)⟩
        simpa using hd

/-- What a number goes on with after its first digit, or after its minus: digits, and possibly a point with
more digits. -/
def NumberTail (r : List Char) : Prop :=
  ∃ ds, (∀ c ∈ ds, c.isDigit = true) ∧ (r = ds ∨ ∃ ps, (∀ c ∈ ps, c.isDigit = true) ∧ r = ds ++ '.' :: ps)

/-- A number starts with a digit, or with a minus and a digit. -/
def StartsNumber (c : Char) (r : List Char) : Prop :=
  c.isDigit = true ∨ c = '-' ∧ r.head?.any Char.isDigit = true

theorem mem_numberTail {cs : List Char} :
    cs ∈ (one Char.isDigit)∗ * maybe (this '.' * (one Char.isDigit)∗) ↔ NumberTail cs := by
  rw [Language.mem_mul]
  simp only [mem_maybe, mem_this_mul, mem_star_one]
  constructor
  · rintro ⟨ds, hds, _, rfl | ⟨ps, rfl, hps⟩, rfl⟩
    · exact ⟨ds, hds, .inl (List.append_nil ds)⟩
    · exact ⟨ds, hds, .inr ⟨ps, hps, rfl⟩⟩
  · rintro ⟨ds, hds, rfl | ⟨ps, hps, rfl⟩⟩
    · exact ⟨_, hds, [], .inl rfl, List.append_nil _⟩
    · exact ⟨ds, hds, '.' :: ps, .inr ⟨ps, rfl, hps⟩, rfl⟩

theorem NumberTail.cons {d : Char} {r : List Char} (hd : d.isDigit = true) :
    NumberTail (d :: r) ↔ NumberTail r := by
  constructor
  · rintro ⟨_ | ⟨e, ds⟩, hds, he | ⟨ps, hps, he⟩⟩
    · cases he
    · rw [(List.cons.inj he).1] at hd
      cases hd
    · obtain ⟨rfl, rfl⟩ := List.cons.inj he
      exact ⟨_, fun c hc => hds c (List.mem_cons_of_mem _ hc), .inl rfl⟩
    · obtain ⟨rfl, rfl⟩ := List.cons.inj he
      exact ⟨ds, fun c hc => hds c (List.mem_cons_of_mem _ hc), .inr ⟨ps, hps, rfl⟩⟩
  · rintro ⟨ds, hds, rfl | ⟨ps, hps, rfl⟩⟩
    · exact ⟨d :: r, List.forall_mem_cons.mpr ⟨hd, hds⟩, .inl rfl⟩
    · exact ⟨d :: ds, List.forall_mem_cons.mpr ⟨hd, hds⟩, .inr ⟨ps, hps, rfl⟩⟩

theorem mem_number {cs : List Char} : cs ∈ TokenClass.number.pattern ↔
    ∃ c r, cs = c :: r ∧ StartsNumber c r ∧ NumberTail r := by
  rw [TokenClass.pattern, mul_assoc, mul_assoc, maybe, add_mul, one_mul, Language.mem_add, mem_this_mul]
  simp only [mem_one_mul, mem_numberTail]
  constructor
  · rintro (⟨c, r, rfl, hc, hr⟩ | ⟨_, rfl, d, r, rfl, hd, hr⟩)
    · exact ⟨c, r, rfl, .inl hc, hr⟩
    · exact ⟨'-', d :: r, rfl, .inr ⟨rfl, hd⟩, (NumberTail.cons hd).mpr hr⟩
  · rintro ⟨c, r, rfl, hc | ⟨rfl, hd⟩, hr⟩
    · exact .inl ⟨c, r, rfl, hc, hr⟩
    · cases r with
      | nil => cases hd
      | cons d r => exact .inr ⟨d :: r, rfl, d, r, rfl, hd, (NumberTail.cons hd).mp hr⟩

/-- **What can stand between quotes:** characters other than a quote and a backslash, and pairs of a backslash
and any character. -/
inductive Body : List Char → Prop
  | nil : Body []
  | plain {c : Char} {r : List Char} (hq : c ≠ '"') (hs : c ≠ '\\') (hr : Body r) : Body (c :: r)
  | pair {c : Char} {r : List Char} (hr : Body r) : Body ('\\' :: c :: r)

theorem mem_body {cs : List Char} :
    cs ∈ (one (fun c => c ≠ '"' && c ≠ '\\') + this '\\' * one fun _ => true)∗ ↔ Body cs := by
  constructor
  · intro h
    rw [Language.mem_kstar] at h
    obtain ⟨L, rfl, hL⟩ := h
    induction L with
    | nil => exact .nil
    | cons y L ih =>
      have hrest := ih fun z hz => hL z (List.mem_cons_of_mem _ hz)
      rcases hL y List.mem_cons_self with ⟨c, hc, rfl⟩ | hy
      · rw [Bool.and_eq_true, decide_eq_true_iff, decide_eq_true_iff] at hc
        exact .plain hc.1 hc.2 hrest
      · obtain ⟨_, rfl, c, -, rfl⟩ := mem_this_mul.mp hy
        exact .pair hrest
  · intro h
    rw [← Language.one_add_self_mul_kstar_eq_kstar, Language.mem_add]
    induction h with
    | nil => exact .inl rfl
    | @plain c r hq hs _ ih =>
      rw [← Language.mem_add, Language.one_add_self_mul_kstar_eq_kstar] at ih
      refine .inr (Language.mem_mul.mpr ⟨[c], .inl ⟨c, ?_, rfl⟩, r, ih, rfl⟩)
      simp [hq, hs]
    | @pair c r _ ih =>
      rw [← Language.mem_add, Language.one_add_self_mul_kstar_eq_kstar] at ih
      exact .inr (Language.mem_mul.mpr
        ⟨['\\', c], .inr (mem_this_mul.mpr ⟨[c], rfl, c, rfl, rfl⟩), r, ih, rfl⟩)

theorem mem_string {cs : List Char} : cs ∈ TokenClass.string.pattern ↔
    ∃ b, Body b ∧ (cs = '"' :: b ∨ cs = '"' :: (b ++ ['"'])) := by
  rw [TokenClass.pattern, mul_assoc, mem_this_mul]
  simp only [Language.mem_mul, mem_body, mem_maybe, mem_this]
  constructor
  · rintro ⟨_, rfl, b, hb, _, rfl | rfl, rfl⟩
    · exact ⟨b, hb, .inl (congrArg _ (List.append_nil b))⟩
    · exact ⟨b, hb, .inr rfl⟩
  · rintro ⟨b, hb, rfl | rfl⟩
    · exact ⟨b, rfl, b, hb, [], .inl rfl, List.append_nil b⟩
    · exact ⟨_, rfl, b, hb, ['"'], .inr rfl, rfl⟩

end Lexeme

end MusicLisp
