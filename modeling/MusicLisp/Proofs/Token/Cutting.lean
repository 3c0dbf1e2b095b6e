import MusicLisp.Proofs.Token.Passing
import MusicLisp.Proofs.Token.Places

/-!
# Cutting a source at its tokens

What a piece at the front of a text is does not depend on what comes after it, so a source can be cut off behind any of
its tokens, and what is left of it is cut into the same tokens. Nor do tokens depend on what comes before them, but for
where they stand.

* `Cut.behind`: a text cut off behind a token. By induction on the derivation. In front of a token a text is cut in two
  where the scan comes to it (`Cut.passed`).
* `tokenize_slice`: **the stretch of a source from one of its tokens to another** is cut into the tokens that stand
  there, moved to the left.
-/

namespace MusicLisp

open Lexeme

/-! ### Texts that are cut off -/

namespace Cut

variable {offset : Nat} {cs : List Char} {q ts : List Token} {t : Token}

/-- A text is cut off behind a stretch that comes after its first piece, and this piece stays whole. -/
theorem take_piece {offset n stop : Nat} {c : Char} {cs : List Char} {P : List Char → Prop}
    (h : ∃ slice after, cs.drop n = slice ++ after ∧
      stop = offset + byteLength (c :: cs.take n) + byteLength slice ∧ P slice) :
    ∃ m, n ≤ m ∧ (cs.take m).take n = cs.take n ∧ stop = offset + byteLength (c :: cs.take m) ∧
      P ((cs.take m).drop n) := by
  obtain ⟨slice, after, hcs, hstop, hslice⟩ := h
  have htake : (cs.take (n + slice.length)).take n = cs.take n := by
    rw [List.take_take, Nat.min_eq_left (Nat.le_add_right n _)]
  have hdrop : (cs.take (n + slice.length)).drop n = slice := by
    rw [List.drop_take, Nat.add_sub_cancel_left, hcs, List.take_left]
  have hsplit := byteLength_take_add_drop c (cs.take (n + slice.length)) n
  rw [htake, hdrop] at hsplit
  exact ⟨n + slice.length, Nat.le_add_right n _, htake, by rw [hstop, ← hsplit, Nat.add_assoc], by rwa [hdrop]⟩

/-- A text cut off somewhere behind its first token starts with this token. -/
theorem token_take {offset n stop : Nat} {c : Char} {cs : List Char} {kind : TokenKind}
    (hfront : Piece.front c cs = (.lexeme kind, n))
    (h : ∃ slice after, cs.drop n = slice ++ after ∧
      stop = offset + byteLength (c :: cs.take n) + byteLength slice ∧
      Cut (offset + byteLength (c :: cs.take n)) slice ts) :
    ∃ slice after, c :: cs = slice ++ after ∧ stop = offset + byteLength slice ∧
      Cut offset slice (⟨kind, offset, offset + byteLength (c :: cs.take n)⟩ :: ts) := by
  obtain ⟨m, hm, htake, hstop, hcut⟩ := take_piece h
  refine ⟨c :: cs.take m, cs.drop m, by rw [List.cons_append, List.take_append_drop], hstop, ?_⟩
  rw [← htake] at hcut ⊢
  exact .token ((Piece.front_of_eq hfront).take hm) hcut

/-- **A text cut off behind a token** is cut into the tokens up to there. -/
theorem behind (h : Cut offset cs (q ++ t :: ts)) (ht : t.kind ≠ .endOfInput) : ∃ slice after, cs = slice ++ after ∧
    t.span.stop = offset + byteLength slice ∧ Cut offset slice (q ++ [t, ⟨.endOfInput, .point t.span.stop⟩]) := by
  generalize hall : q ++ t :: ts = all at h
  induction h generalizing q with
  | mark offset =>
    obtain ⟨-, htoken⟩ | ⟨-, htoken⟩ := List.append_eq_singleton_iff.mp hall
    · cases htoken
      exact absurd rfl ht
    · cases htoken
  | @gap offset n c cs ts' hfront _ ih =>
    obtain ⟨m, hm, htake, hstop, hcut⟩ := take_piece (ih hall)
    refine ⟨c :: cs.take m, cs.drop m, by rw [List.cons_append, List.take_append_drop], hstop, ?_⟩
    rw [← htake] at hcut
    exact .gap (Piece.front_gap_take hfront hm) hcut
  | token hfront _ ih =>
    cases q with
    | nil =>
      obtain ⟨rfl, -⟩ := List.cons.inj hall
      exact token_take hfront ⟨[], _, rfl, rfl, .mark _⟩
    | cons u q =>
      obtain ⟨rfl, hrest⟩ := List.cons.inj hall
      exact token_take hfront (ih hrest)

end Cut

/-! ### Sources -/

/-- What a scan that starts further to the right comes to is what one from the start comes to, moved. -/
theorem exists_tokenize_of_cut {offset : Nat} {cs : List Char} {p : List Token} {mark : Token}
    (h : Cut offset cs (p ++ [mark])) : ∃ q, tokenize (String.ofList cs) =
      .ok (q ++ [⟨.endOfInput, .point (String.ofList cs).utf8ByteSize⟩]) ∧ p = q.map (Token.shift offset) := by
  have hscan : scanFrom offset [] cs = .ok (p ++ [mark]) := scanFrom_ok_iff.mpr ⟨_, rfl, h⟩
  have hshift := scanFrom_shift offset 0 [] cs
  rw [List.map_nil, Nat.zero_add, hscan, ← String.toList_ofList (l := cs)] at hshift
  cases htokens : tokenize (String.ofList cs) with
  | error e =>
    rw [tokenize] at htokens
    rw [htokens] at hshift
    cases hshift
  | ok tokens =>
    obtain ⟨q, rfl, -⟩ := tokenize_places htokens
    rw [tokenize] at htokens
    rw [htokens, shiftScan, List.map_append] at hshift
    exact ⟨q, rfl, (List.append_inj' (Except.ok.inj hshift) rfl).1⟩

/-- **The stretch of a source from one of its tokens to another** is cut into the tokens that stand there. -/
theorem tokenize_slice {source : String} {ts p : List Token} {first last : Token}
    (h : tokenize source = .ok (ts ++ [⟨.endOfInput, .point source.utf8ByteSize⟩])) (hp : p <:+: ts)
    (hfirst : p.head? = some first) (hlast : p.getLast? = some last) :
    ∃ slice q, Span.Covers source slice ⟨first.span.start, last.span.stop⟩ ∧
      tokenize slice = .ok (q ++ [⟨.endOfInput, .point slice.utf8ByteSize⟩]) ∧
      p = q.map (Token.shift first.span.start) := by
  obtain ⟨a, b, rfl⟩ := hp
  obtain ⟨p₁, rfl⟩ := List.head?_eq_some_iff.mp hfirst
  obtain ⟨p₂, hp₂⟩ := List.getLast?_eq_some_iff.mp hlast
  have hne : last.kind ≠ .endOfInput := by
    obtain ⟨ts, heq, hts, -⟩ := tokenize_places h
    refine hts last (List.append_cancel_right heq ▸ ?_)
    rw [hp₂]
    simp
  have hcut := tokenize_ok_iff.mp h
  rw [List.append_assoc, List.append_assoc, List.cons_append] at hcut
  obtain ⟨front, rest, hsource, hstart, -, hrest⟩ := hcut.passed
  rw [← List.cons_append, hp₂, List.append_assoc, List.singleton_append] at hrest
  obtain ⟨slice, after, rfl, hstop, hslice⟩ := hrest.behind hne
  rw [List.append_cons, ← hp₂] at hslice
  obtain ⟨q, htokenize, hq⟩ := exists_tokenize_of_cut hslice
  refine ⟨_, q, ⟨String.ofList front, String.ofList after, ?_, ?_⟩, htokenize, hq⟩
  · rw [← String.toList_inj, hsource]
    simp only [String.toList_append, String.toList_ofList, List.append_assoc]
  · rw [hstop, hstart, Nat.zero_add, ← byteLength_append, byteLength_eq_utf8ByteSize, byteLength_eq_utf8ByteSize,
      String.ofList_append]

end MusicLisp
