import MusicLisp.Token.Piece
import MusicLisp.Proofs.Token.Pieces

/-!
# Scanning piece by piece

* `Cut`: a scan as a derivation, one piece at a time; `scanFrom_ok_iff` and `tokenize_ok_iff` say that it is the scan.
* `Cut.scanned`: every token of a scan is as `TokenKind.Scanned` has it, and the mark comes last.
* `Scans`: a text in front of a rest is scanned to tokens of given kinds. Such texts are put one after the
  other (`Scans.append`); what a lexeme needs for it is that the rest does not go on with it.
-/

namespace MusicLisp

open Lexeme

/-! ### Scanning step by step -/

theorem scanFrom_gap {c : Char} {cs : List Char} {n : Nat} (h : Piece.front c cs = (.gap, n))
    (offset : Nat) (found : List Token) : scanFrom offset found (c :: cs) =
      scanFrom (offset + byteLength (c :: cs.take n)) found (cs.drop n) := by
  rw [scanFrom, h]

theorem scanFrom_lexeme {c : Char} {cs : List Char} {kind : TokenKind} {n : Nat}
    (h : Piece.front c cs = (.lexeme kind, n)) (offset : Nat) (found : List Token) :
    scanFrom offset found (c :: cs) =
      scanFrom (offset + byteLength (c :: cs.take n))
        (⟨kind, offset, offset + byteLength (c :: cs.take n)⟩ :: found) (cs.drop n) := by
  rw [scanFrom, h]

/-! ### Scans as derivations -/

/-- **The text, which starts at byte `offset`, is cut into the tokens**, piece by piece. -/
inductive Cut : Nat → List Char → List Token → Prop
  | mark (offset : Nat) : Cut offset [] [⟨.endOfInput, .point offset⟩]
  | gap {offset n : Nat} {c : Char} {cs : List Char} {ts : List Token} (hfront : Piece.front c cs = (.gap, n))
    (hrest : Cut (offset + byteLength (c :: cs.take n)) (cs.drop n) ts) : Cut offset (c :: cs) ts
  | token {offset n : Nat} {c : Char} {cs : List Char} {kind : TokenKind} {ts : List Token}
    (hfront : Piece.front c cs = (.lexeme kind, n))
    (hrest : Cut (offset + byteLength (c :: cs.take n)) (cs.drop n) ts) :
    Cut offset (c :: cs) (⟨kind, offset, offset + byteLength (c :: cs.take n)⟩ :: ts)

/-- The scan of a text is how it is cut, tokens found before left aside. -/
theorem scanFrom_ok_iff {offset : Nat} {found : List Token} {cs : List Char} {tokens : List Token} :
    scanFrom offset found cs = .ok tokens ↔ ∃ ts, tokens = found.reverse ++ ts ∧ Cut offset cs ts := by
  constructor
  · intro h
    fun_induction scanFrom offset found cs with
    | case1 offset found =>
      cases h
      exact ⟨_, List.reverse_cons, .mark offset⟩
    | case2 offset found c cs n stop hfront ih =>
      obtain ⟨ts, rfl, hcut⟩ := ih h
      exact ⟨ts, rfl, .gap hfront hcut⟩
    | case3 offset found c cs n stop kind hfront ih =>
      obtain ⟨ts, rfl, hcut⟩ := ih h
      exact ⟨_, by rw [List.reverse_cons, List.append_assoc, List.singleton_append], .token hfront hcut⟩
    | case4 => cases h
  · rintro ⟨ts, rfl, hcut⟩
    induction hcut generalizing found with
    | mark offset => rw [scanFrom, List.reverse_cons]
    | gap hfront _ ih => rw [scanFrom_gap hfront, ih]
    | token hfront _ ih => rw [scanFrom_lexeme hfront, ih, List.reverse_cons, List.append_assoc, List.singleton_append]

/-- **The tokens of a source** are how it is cut. -/
theorem tokenize_ok_iff {source : String} {tokens : List Token} :
    tokenize source = .ok tokens ↔ Cut 0 source.toList tokens := by
  refine scanFrom_ok_iff.trans ⟨?_, fun h => ⟨tokens, rfl, h⟩⟩
  rintro ⟨ts, rfl, h⟩
  exact h

/-- Every token that a text is cut into is scanned, and the mark comes last. -/
theorem Cut.scanned {offset : Nat} {cs : List Char} {tokens : List Token} (h : Cut offset cs tokens) :
    ∃ ts e, tokens = ts ++ [e] ∧ e.kind = .endOfInput ∧ ∀ t ∈ ts, t.kind.Scanned := by
  induction h with
  | mark offset => exact ⟨[], _, rfl, rfl, List.forall_mem_nil _⟩
  | gap _ _ ih => exact ih
  | token hfront _ ih =>
    obtain ⟨ts, e, rfl, he, hts⟩ := ih
    exact ⟨_ :: ts, e, rfl, he, List.forall_mem_cons.mpr ⟨Piece.scanned_of_front hfront, hts⟩⟩

/-! ### Texts in front of a rest -/

/-- The text, in front of the rest, is scanned to tokens of the kinds. -/
def Scans (text rest : List Char) (kinds : List TokenKind) : Prop :=
  ∀ (offset : Nat) (found : List Token), ∃ (offset' : Nat) (ts : List Token),
    ts.map Token.kind = kinds ∧
      scanFrom offset found (text ++ rest) = scanFrom offset' (ts.reverse ++ found) rest

theorem Scans.append {a b rest : List Char} {kinds kinds' : List TokenKind}
    (ha : Scans a (b ++ rest) kinds) (hb : Scans b rest kinds') :
    Scans (a ++ b) rest (kinds ++ kinds') := by
  intro offset found
  obtain ⟨offset', ts, hts, hscan⟩ := ha offset found
  obtain ⟨offset'', us, hus, hscan'⟩ := hb offset' (ts.reverse ++ found)
  refine ⟨offset'', ts ++ us, by rw [List.map_append, hts, hus], ?_⟩
  rw [List.append_assoc, hscan, hscan', List.reverse_append, List.append_assoc]

theorem scans_lexeme {c : Char} {r rest : List Char} {kind : TokenKind}
    (h : Piece.front c (r ++ rest) = (.lexeme kind, r.length)) : Scans (c :: r) rest [kind] := by
  intro offset found
  have hscan := scanFrom_lexeme h offset found
  rw [List.drop_left] at hscan
  exact ⟨_, [⟨kind, offset, offset + byteLength (c :: (r ++ rest).take r.length)⟩], rfl, hscan⟩

theorem scans_opening (b : Bracket) (rest : List Char) : Scans [b.openChar] rest [.opening b] :=
  scans_lexeme (Piece.front_opening b rest)

theorem scans_closing (b : Bracket) (rest : List Char) : Scans [b.closeChar] rest [.closing b] :=
  scans_lexeme (Piece.front_closing b rest)

theorem scans_space {rest : List Char} (h : Stops isBlank rest) : Scans [' '] rest [] := by
  have hrun : run isBlank ([] ++ rest) = 0 := run_append (by rintro c ⟨⟩) h
  rw [List.nil_append] at hrun
  intro offset found
  have hscan := scanFrom_gap (Piece.front_space rest) offset found
  rw [hrun, List.drop_zero] at hscan
  exact ⟨_, [], rfl, hscan⟩

/-! ### Delimited rests -/

theorem delimited_nil : Delimited [] := by rintro c ⟨⟩

theorem delimited_space (rest : List Char) : Delimited (' ' :: rest) := by
  rintro c ⟨⟩; decide

theorem delimited_closing (b : Bracket) (rest : List Char) : Delimited (b.closeChar :: rest) := by
  rintro c ⟨⟩; cases b <;> decide

end MusicLisp
