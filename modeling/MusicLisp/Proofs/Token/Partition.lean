import Mathlib.Data.String.Basic
import MusicLisp.Proofs.Token.Longest
import MusicLisp.Proofs.Token.Scanning

/-!
# A source and its tokens

The tokens of a source and the gaps between them make up all of it, and each token is the longest match at its
place.

* `Gap`: what may stand between tokens, blanks and comments.
* `Munched`: a slice of the source, in front of the text after it, is a lexeme: alone it is scanned to the same
  token, it matches one class only, and no longer match starts where it starts.
* `Partition`: gaps and lexemes in turns, each token with the bytes it covers, and the mark after the last gap.
* `Cut.partition`: the scanner partitions a text. The induction is on the scan; a piece of a gap goes to
  the front of the gap after it (`Partition.gap_append`).
* `tokenize_partition`: the same for a whole source, with what it says about each span.
-/

namespace MusicLisp

open Lexeme

/-! ### Bytes -/

theorem byteLength_eq_utf8ByteSize (cs : List Char) : byteLength cs = (String.ofList cs).utf8ByteSize := by
  have hfold : ∀ n, cs.foldl (fun n c => n + c.utf8Size) n = n + String.utf8Len cs := by
    induction cs with
    | nil => exact fun _ => rfl
    | cons c r ih =>
      intro n
      rw [List.foldl_cons, ih, String.utf8Len_cons]
      omega
  rw [byteLength, hfold, Nat.zero_add, String.utf8ByteSize_ofList]

theorem byteLength_toList (s : String) : byteLength s.toList = s.utf8ByteSize := by
  rw [byteLength_eq_utf8ByteSize, String.ofList_toList]

theorem byteLength_append (a b : List Char) : byteLength (a ++ b) = byteLength a + byteLength b := by
  simp only [byteLength_eq_utf8ByteSize, String.ofList_append, String.utf8ByteSize_append]

theorem byteLength_cons (c : Char) (r : List Char) : byteLength (c :: r) = c.utf8Size + byteLength r := by
  rw [← List.singleton_append, byteLength_append]
  exact congrArg (· + byteLength r) (Nat.zero_add _)

theorem byteLength_pos (c : Char) (r : List Char) : 0 < byteLength (c :: r) := by
  have hc := c.utf8Size_pos
  rw [byteLength_cons]
  omega

/-- A text is its front and what comes after it. -/
theorem byteLength_take_add_drop (c : Char) (cs : List Char) (n : Nat) :
    byteLength (c :: cs.take n) + byteLength (cs.drop n) = byteLength (c :: cs) := by
  rw [← byteLength_append, List.cons_append, List.take_append_drop]

/-! ### Gaps -/

/-- **What may stand between tokens** in front of the text `rest`: blanks, and comments from a semicolon through
the end of the line. A comment without an end of the line runs to the end of the source. -/
inductive Gap (rest : List Char) : List Char → Prop
  | nil : Gap rest []
  | blank {c : Char} {g : List Char} (hc : c ∈ [' ', '\t', '\r', '\n', '\x0c']) (hg : Gap rest g) :
    Gap rest (c :: g)
  | comment {line g : List Char} (hline : '\n' ∉ line) (hg : Gap rest g) :
    Gap rest (';' :: (line ++ '\n' :: g))
  | lastComment {line : List Char} (hline : '\n' ∉ line) (hrest : rest = []) : Gap rest (';' :: line)

theorem Gap.blanks_append {rest bs g : List Char} (hbs : ∀ c ∈ bs, isBlank c = true) (hg : Gap rest g) :
    Gap rest (bs ++ g) := by
  induction bs with
  | nil => exact hg
  | cons c bs ih =>
    have hc : isBlank c = true := hbs c List.mem_cons_self
    refine .blank ?_ (ih fun d hd => hbs d (List.mem_cons_of_mem _ hd))
    simp only [isBlank, Bool.or_eq_true, decide_eq_true_eq] at hc
    grind

theorem exists_run (p : Char → Bool) (cs : List Char) :
    ∃ r rest, cs = r ++ rest ∧ (∀ c ∈ r, p c = true) ∧ Stops p rest := by
  refine ⟨_, _, (List.takeWhile_append_dropWhile (p := p)).symm, fun c hc => List.mem_takeWhile_imp hc, ?_⟩
  intro c hc
  have hhead := List.head?_dropWhile_not p cs
  rw [Option.mem_def.mp hc] at hhead
  exact hhead

/-- The end of the line stands behind a comment, unless the source ends. -/
theorem commentTail_cases (cs : List Char) : ∃ line rest, cs = line ++ rest ∧ '\n' ∉ line ∧
    (rest = [] ∧ commentTail cs = line.length ∨
      ∃ r, rest = '\n' :: r ∧ commentTail cs = line.length + 1) := by
  obtain ⟨line, rest, rfl, hline, hstop⟩ := exists_run (· ≠ '\n') cs
  refine ⟨line, rest, rfl, fun h => by simpa using hline _ h, ?_⟩
  unfold commentTail
  dsimp only
  rw [run_append hline hstop, List.drop_left]
  cases rest with
  | nil => exact .inl ⟨rfl, rfl⟩
  | cons d r =>
    have hd : d = '\n' := by simpa using hstop d rfl
    exact .inr ⟨r, by rw [hd], rfl⟩

/-- A gap is blanks or a comment. -/
theorem front_gap {c : Char} {cs : List Char} {n : Nat} (h : Piece.front c cs = (.gap, n)) :
    isBlank c = true ∧ n = run isBlank cs ∨ c = ';' ∧ n = commentTail cs := by
  unfold Piece.front at h
  split at h
  · next hc => cases h; exact .inl ⟨hc, rfl⟩
  split at h
  · next hc => cases h; exact .inr ⟨hc, rfl⟩
  split at h
  · cases h
  split at h
  · cases h
  split at h
  · have hnumber := congrArg Prod.fst h
    simp only [Piece.number] at hnumber
    split at hnumber <;> cases hnumber
  split at h
  · cases h
  split at h
  · cases h
  split at h
  · split at h <;> cases h
  · cases h

/-- A piece of a gap goes to the front of the gap after it. -/
theorem Gap.front_append {c : Char} {cs : List Char} {n : Nat} (h : Piece.front c cs = (.gap, n))
    {rest g : List Char} (hrest : cs.drop n = g ++ rest) (hg : Gap rest g) :
    Gap rest (c :: cs.take n ++ g) := by
  obtain ⟨hc, rfl⟩ | ⟨rfl, rfl⟩ := front_gap h
  · exact Gap.blanks_append (List.forall_mem_cons.mpr ⟨hc, forall_mem_take_run isBlank cs⟩) hg
  · obtain ⟨line, _, rfl, hline, ⟨rfl, hn⟩ | ⟨r, rfl, hn⟩⟩ := commentTail_cases cs
    · rw [hn, List.drop_left] at hrest
      obtain ⟨rfl, rfl⟩ := List.append_eq_nil_iff.mp hrest.symm
      rw [hn, List.take_left, List.append_nil]
      exact .lastComment hline rfl
    · rw [hn, List.take_length_add_append, List.cons_append, List.append_assoc]
      exact .comment hline hg

/-! ### Lexemes at their place -/

/-- **The slice is a lexeme of the kind** in front of the text after it. -/
structure Munched (kind : TokenKind) (slice after : String) : Prop where
  alone : tokenize slice =
    .ok [⟨kind, 0, slice.utf8ByteSize⟩, ⟨.endOfInput, .point slice.utf8ByteSize⟩]
  unique : ∃! k : TokenClass, slice.toList ∈ k.pattern
  class_eq : ∀ k : TokenClass, slice.toList ∈ k.pattern → kind.class? = some k
  longest : ∀ more rest : String, more ≠ "" → after = more ++ rest →
    ∀ k : TokenClass, (slice ++ more).toList ∉ k.pattern

theorem munched_of_front {c : Char} {cs : List Char} {kind : TokenKind} {n : Nat}
    (h : Piece.front c cs = (.lexeme kind, n)) :
    Munched kind (String.ofList (c :: cs.take n)) (String.ofList (cs.drop n)) := by
  have hfront := Piece.front_of_eq h
  obtain ⟨k, hk, hmem⟩ := hfront.mem_pattern
  constructor
  · rw [tokenize, String.toList_ofList, scanFrom_lexeme (hfront.take (Nat.le_refl n)), Nat.zero_add, List.take_take,
      Nat.min_self, List.drop_take_self, byteLength_eq_utf8ByteSize, scanFrom]
    rfl
  · rw [String.toList_ofList]
    exact ⟨k, hmem, fun k' hk' => Piece.class_unique hmem hk'⟩
  · intro k' hk'
    rw [String.toList_ofList] at hk'
    rw [hk, Piece.class_unique hmem hk']
  · intro more rest hmore hafter k' hk'
    have hcs : cs = cs.take n ++ more.toList ++ rest.toList := by
      have htoList := congrArg String.toList hafter
      rw [String.toList_ofList, String.toList_append] at htoList
      rw [List.append_assoc, ← htoList, List.take_append_drop]
    rw [String.toList_append, String.toList_ofList] at hk'
    -- the longer match is within what the scanner would have taken
    have hle : (cs.take n ++ more.toList).length ≤
        (Piece.front c (cs.take n ++ more.toList ++ rest.toList)).2 :=
      Piece.length_le_front hk' rest.toList
    rw [← hcs, h, List.length_append, List.length_take_of_le hfront.le_length] at hle
    exact hmore (String.toList_eq_nil_iff.mp (List.eq_nil_of_length_eq_zero (by omega)))

/-! ### Partitions -/

/-- **The text, which starts at byte `offset`, falls into gaps and lexemes** in turns; each lexeme is a token
that covers its bytes, and after the last gap comes the mark. -/
inductive Partition : Nat → List Char → List Token → Prop
  | mark (offset : Nat) {gap : List Char} (hgap : Gap [] gap) :
    Partition offset gap [⟨.endOfInput, .point (offset + byteLength gap)⟩]
  | token (offset : Nat) {gap slice rest : List Char} {kind : TokenKind} {ts : List Token}
    (hgap : Gap (slice ++ rest) gap) (hslice : slice ≠ [])
    (hmunched : Munched kind (String.ofList slice) (String.ofList rest))
    (hrest : Partition (offset + byteLength (gap ++ slice)) rest ts) :
    Partition offset (gap ++ (slice ++ rest))
      (⟨kind, offset + byteLength gap, offset + byteLength (gap ++ slice)⟩ :: ts)

theorem Partition.gap_append {c : Char} {cs : List Char} {n offset : Nat} {ts : List Token}
    (h : Piece.front c cs = (.gap, n))
    (hp : Partition (offset + byteLength (c :: cs.take n)) (cs.drop n) ts) :
    Partition offset (c :: cs) ts := by
  have hsplit : c :: cs = c :: cs.take n ++ cs.drop n := by
    rw [List.cons_append, List.take_append_drop]
  rw [hsplit]
  generalize hrest : cs.drop n = rest at hp
  cases hp with
  | mark _ hgap =>
    have hmark := Partition.mark offset
      (hgap.front_append h (by rw [hrest, List.append_nil]))
    rwa [byteLength_append, ← Nat.add_assoc] at hmark
  | @token _ gap slice rest kind ts hgap hslice hmunched hp =>
    have hoffset : offset + byteLength (c :: cs.take n) + byteLength (gap ++ slice) =
        offset + byteLength (c :: cs.take n ++ gap ++ slice) := by
      rw [List.append_assoc, byteLength_append (c :: cs.take n), Nat.add_assoc]
    rw [hoffset] at hp ⊢
    rw [Nat.add_assoc, ← byteLength_append, ← List.append_assoc]
    exact .token _ (hgap.front_append h hrest) hslice hmunched hp

/-- **A text that is cut into tokens is partitioned.** -/
theorem Cut.partition {offset : Nat} {cs : List Char} {ts : List Token} (h : Cut offset cs ts) :
    Partition offset cs ts := by
  induction h with
  | mark offset => exact .mark offset .nil
  | gap hfront _ ih => exact .gap_append hfront ih
  | @token offset n c cs kind ts hfront _ ih =>
    have htoken := Partition.token offset .nil (List.cons_ne_nil c (cs.take n)) (munched_of_front hfront) ih
    rwa [List.nil_append, List.cons_append, List.take_append_drop] at htoken

theorem Munched.ne_endOfInput {kind : TokenKind} {slice after : String} (h : Munched kind slice after) :
    kind ≠ .endOfInput := by
  rintro rfl
  obtain ⟨k, hk, -⟩ := h.unique
  cases h.class_eq k hk

/-- **What a partition says about each of its tokens.** -/
theorem Partition.tokens {offset : Nat} {cs : List Char} {ts : List Token} (h : Partition offset cs ts) :
    ∃ tokens, ts = tokens ++ [⟨.endOfInput, .point (offset + byteLength cs)⟩] ∧
      (∀ t ∈ tokens, offset ≤ t.span.start) ∧
      tokens.Pairwise (fun t u => t.span.stop ≤ u.span.start) ∧
      ∀ t ∈ tokens, t.span.start < t.span.stop ∧ ∃ before slice after,
        cs = before ++ (slice ++ after) ∧
          t.span = ⟨offset + byteLength before, offset + byteLength (before ++ slice)⟩ ∧
          Munched t.kind (String.ofList slice) (String.ofList after) := by
  induction h with
  | mark _ hgap => exact ⟨[], rfl, by rintro t ⟨⟩, .nil, by rintro t ⟨⟩⟩
  | @token offset gap slice rest kind ts hgap hslice hmunched hp ih =>
    obtain ⟨tokens, rfl, hstart, hsorted, hall⟩ := ih
    have hpos : 0 < byteLength slice := by
      obtain ⟨c, r, rfl⟩ := List.exists_cons_of_ne_nil hslice
      exact byteLength_pos c r
    have hlength := byteLength_append gap slice
    refine ⟨⟨kind, offset + byteLength gap, offset + byteLength (gap ++ slice)⟩ :: tokens, ?_, ?_,
      List.pairwise_cons.mpr ⟨hstart, hsorted⟩, ?_⟩
    · rw [← List.append_assoc gap, byteLength_append (gap ++ slice), ← Nat.add_assoc, List.cons_append]
    · refine List.forall_mem_cons.mpr ⟨Nat.le_add_right _ _, fun t ht => ?_⟩
      exact (Nat.le_add_right _ _).trans (hstart t ht)
    · refine List.forall_mem_cons.mpr ⟨⟨?_, gap, slice, rest, rfl, rfl, hmunched⟩, fun t ht => ?_⟩
      · show offset + byteLength gap < offset + byteLength (gap ++ slice)
        omega
      · obtain ⟨hlt, before, slice', after, rfl, hspan, hmunched'⟩ := hall t ht
        refine ⟨hlt, gap ++ slice ++ before, slice', after, ?_, ?_, hmunched'⟩
        · simp only [List.append_assoc]
        · simp only [hspan, byteLength_append, Nat.add_assoc]

/-- **Scanning partitions the source.** Gaps and lexemes in turns make up all of it. There is one mark, at its
end; the other tokens cover bytes one after the other, each the bytes of a slice cut out of the source between
characters, and the slice is the longest match at its place, of one class only, and the same token alone. -/
theorem tokenize_partition {source : String} {ts : List Token} (h : tokenize source = .ok ts) :
    Partition 0 source.toList ts ∧
    ∃ tokens, ts = tokens ++ [⟨.endOfInput, .point source.utf8ByteSize⟩] ∧
      tokens.Pairwise (fun t u => t.span.stop ≤ u.span.start) ∧
      ∀ t ∈ tokens, t.kind ≠ .endOfInput ∧ t.span.start < t.span.stop ∧
        ∃ before slice after : String, source = before ++ slice ++ after ∧
          t.span = ⟨before.utf8ByteSize, (before ++ slice).utf8ByteSize⟩ ∧
          Munched t.kind slice after := by
  have hp := (tokenize_ok_iff.mp h).partition
  refine ⟨hp, ?_⟩
  obtain ⟨tokens, rfl, -, hsorted, hall⟩ := hp.tokens
  refine ⟨tokens, ?_, hsorted, fun t ht => ?_⟩
  · rw [Nat.zero_add, byteLength_eq_utf8ByteSize, String.ofList_toList]
  · obtain ⟨hlt, before, slice, after, hsource, hspan, hmunched⟩ := hall t ht
    refine ⟨hmunched.ne_endOfInput, hlt, String.ofList before, String.ofList slice, String.ofList after,
      ?_, ?_, hmunched⟩
    · rw [← String.toList_inj, hsource]
      simp only [String.toList_append, String.toList_ofList, List.append_assoc]
    · rw [hspan, Nat.zero_add, Nat.zero_add, byteLength_eq_utf8ByteSize, byteLength_eq_utf8ByteSize,
        String.ofList_append]

/-- Tokens without a gap between them, a comment with a letter of two bytes, and an escaped quote. -/
theorem tokenize_partition_adjacent : ∃ ts, tokenize "a:b ;é\n--5\"ü\\\"\"" = .ok ts ∧
    ts.map Token.span = [⟨0, 1⟩, ⟨1, 3⟩, ⟨8, 11⟩, ⟨11, 17⟩, ⟨17, 17⟩] ∧
    Partition 0 "a:b ;é\n--5\"ü\\\"\"".toList ts := by
  have htokens : tokenize "a:b ;é\n--5\"ü\\\"\"" = .ok
      [⟨.atom (.symbol "a"), 0, 1⟩, ⟨.atom (.keyword "b"), 1, 3⟩, ⟨.atom (.symbol "--5"), 8, 11⟩,
        ⟨.atom (.string "ü\""), 11, 17⟩, ⟨.endOfInput, 17, 17⟩] := by
    cbv
  exact ⟨_, htokens, rfl, (tokenize_partition htokens).1⟩

end MusicLisp
