import MusicLisp.Proofs.Token.Partition

/-!
# Where tokens and scan errors stand

Every token but the mark covers some bytes of its source, a symbol just the bytes of its name; and what cannot be cut
into tokens stands in the source too.

* `Span.Inside`: a span that is not empty and within a number of bytes.
* `Span.Covers`: a span that covers a slice of a source, cut out between characters.
* `Cut.front_of_alone`: a text that is one token is that token at its front; so the slice of a symbol is its name
  (`Munched.slice_eq`).
* `tokenize_places`, `tokenize_error_inside`: where the tokens of a source stand, and its scan error.
* `InOrder`, `tokenize_inOrder`: the tokens of a source stand one after the other.
* `tokenize_brackets`: a bracket covers its character.
-/

namespace MusicLisp

/-! ### Spans in a source -/

/-- **The span is not empty** and within so many bytes. -/
structure Span.Inside (bytes : Nat) (span : Span) : Prop where
  nonempty : span.start < span.stop
  bound : span.stop ≤ bytes

theorem Span.Inside.merge {bytes : Nat} {a b : Span} (ha : a.Inside bytes) (hb : b.stop ≤ bytes) :
    (a.merge b).Inside bytes where
  nonempty := Nat.lt_of_le_of_lt (Nat.min_le_left _ _) (Nat.lt_of_lt_of_le ha.nonempty (Nat.le_max_left _ _))
  bound := Nat.max_le.mpr ⟨ha.bound, hb⟩

@[simp] theorem Span.merge_self (a : Span) : a.merge a = a := by
  unfold merge
  rw [Nat.min_self, Nat.max_self]

/-- **The span covers the slice** of the source. -/
def Span.Covers (source slice : String) (span : Span) : Prop :=
  ∃ before after : String, source = before ++ slice ++ after ∧
    span = ⟨before.utf8ByteSize, (before ++ slice).utf8ByteSize⟩

theorem Span.Covers.bound {source slice : String} {span : Span} (h : span.Covers source slice) :
    span.stop ≤ source.utf8ByteSize := by
  obtain ⟨before, after, rfl, rfl⟩ := h
  exact String.utf8ByteSize_append (s := before ++ slice) ▸ Nat.le_add_right _ _

theorem Span.Covers.stop_eq {source slice : String} {span : Span} (h : span.Covers source slice) :
    span.stop = span.start + slice.utf8ByteSize := by
  obtain ⟨before, after, -, rfl⟩ := h
  exact String.utf8ByteSize_append

/-! ### Tokens -/

/-- **A text that is one token** is that token at its front, with nothing behind it. -/
theorem Cut.front_of_alone {offset : Nat} {cs : List Char} {t mark : Token} (h : Cut offset cs [t, mark])
    (hstart : t.span.start = offset) (hstop : t.span.stop = offset + byteLength cs) :
    ∃ c r, cs = c :: r ∧ Piece.front c r = (.lexeme t.kind, r.length) := by
  cases h with
  | @gap _ n c r _ _ hrest =>
    -- the token would stand after the gap
    obtain ⟨tokens, heq, hle, -⟩ := hrest.partition.tokens
    obtain ⟨rfl, -⟩ := List.append_inj' (show [t] ++ [mark] = tokens ++ [_] from heq) rfl
    have hle := hle t List.mem_cons_self
    have hpos := byteLength_pos c (r.take n)
    omega
  | @token _ n c r kind _ hfront _ =>
    have hsplit := byteLength_take_add_drop c r n
    have hdrop : r.drop n = [] := by
      cases hrest : r.drop n with
      | nil => rfl
      | cons d rest =>
        have hpos := byteLength_pos d rest
        rw [hrest] at hsplit
        dsimp only at hstop
        omega
    have hn : n = r.length :=
      Nat.le_antisymm (Piece.front_of_eq hfront).le_length (List.drop_eq_nil_iff.mp hdrop)
    exact ⟨c, r, rfl, hn ▸ hfront⟩

/-- **The slice of a symbol is its name.** -/
theorem Munched.slice_eq {name slice after : String} (h : Munched (.atom (.symbol name)) slice after) :
    slice = name := by
  have hsize : slice.utf8ByteSize = 0 + byteLength slice.toList := by
    rw [Nat.zero_add, byteLength_eq_utf8ByteSize, String.ofList_toList]
  obtain ⟨c, r, hslice, hfront⟩ := (tokenize_ok_iff.mp h.alone).front_of_alone rfl hsize
  generalize hn : r.length = n at hfront
  cases Piece.front_of_eq hfront with
  | symbol => rw [← hn, List.take_length, ← hslice, String.ofList_toList]

/-- **Where a token stands**: it covers some bytes of the source, and a symbol covers its name. -/
structure Token.Placed (source : String) (t : Token) : Prop where
  inside : t.span.Inside source.utf8ByteSize
  named : ∀ name, t.kind = .atom (.symbol name) → t.span.Covers source name

/-- **The tokens of a source** are placed, and after them comes the mark at its end. -/
theorem tokenize_places {source : String} {tokens : List Token} (h : tokenize source = .ok tokens) :
    ∃ ts, tokens = ts ++ [⟨.endOfInput, .point source.utf8ByteSize⟩] ∧
      (∀ t ∈ ts, t.kind ≠ .endOfInput) ∧ ∀ t ∈ ts, t.Placed source := by
  obtain ⟨-, ts, rfl, -, hts⟩ := tokenize_partition h
  refine ⟨ts, rfl, fun t ht => (hts t ht).1, fun t ht => ?_⟩
  obtain ⟨-, hlt, before, slice, after, hsource, hspan, hmunched⟩ := hts t ht
  have hcovers : t.span.Covers source slice := ⟨before, after, hsource, hspan⟩
  refine ⟨⟨hlt, hcovers.bound⟩, fun name hname => ?_⟩
  rw [hname] at hmunched
  rwa [← hmunched.slice_eq]

/-- **The tokens stand one after the other**, and none of them is empty. -/
structure InOrder (ts : List Token) : Prop where
  sorted : ts.Pairwise fun t u => t.span.stop ≤ u.span.start
  nonempty : ∀ t ∈ ts, t.span.start < t.span.stop

namespace InOrder

variable {ts us : List Token}

theorem mono (h : InOrder ts) (hus : us <:+: ts) : InOrder us where
  sorted := h.sorted.sublist hus.sublist
  nonempty t ht := h.nonempty t (hus.subset ht)

/-- What reaches from the first token to the last starts with the one and stops with the other. -/
theorem merge_ends (h : InOrder ts) {first last : Token} (hfirst : ts.head? = some first)
    (hlast : ts.getLast? = some last) : first.span.merge last.span = ⟨first.span.start, last.span.stop⟩ := by
  obtain ⟨rest, rfl⟩ := List.head?_eq_some_iff.mp hfirst
  obtain rfl | hmem := List.mem_cons.mp (List.mem_of_getLast? hlast)
  · exact Span.merge_self _
  · have hsorted : first.span.stop ≤ last.span.start := List.rel_of_pairwise_cons h.sorted hmem
    have hfirst := h.nonempty first List.mem_cons_self
    have hlast := h.nonempty last (List.mem_cons_of_mem _ hmem)
    unfold Span.merge
    rw [Nat.min_eq_left (by omega), Nat.max_eq_right (by omega)]

end InOrder

theorem tokenize_inOrder {source : String} {ts : List Token}
    (h : tokenize source = .ok (ts ++ [⟨.endOfInput, .point source.utf8ByteSize⟩])) : InOrder ts := by
  obtain ⟨-, ts', heq, hsorted, hts⟩ := tokenize_partition h
  obtain rfl := List.append_cancel_right heq
  exact ⟨hsorted, fun t ht => (hts t ht).2.1⟩

/-- A lexeme matches the pattern of its class. -/
theorem Munched.mem_pattern {kind : TokenKind} {k : TokenClass} {slice after : String} (h : Munched kind slice after)
    (hk : kind.class? = some k) : slice.toList ∈ k.pattern := by
  obtain ⟨k', hk', -⟩ := h.unique
  obtain rfl := Option.some.inj ((h.class_eq k' hk').symm.trans hk)
  exact hk'

theorem eq_toString_of_mem_this {c : Char} {slice : String} (h : slice.toList ∈ Pattern.this c) :
    slice = c.toString := by
  rw [← String.toList_inj, Pattern.mem_this.mp h]
  exact (String.toList_ofList (l := [c])).symm

/-- **A bracket covers its character.** -/
theorem tokenize_brackets {source : String} {ts : List Token}
    (h : tokenize source = .ok (ts ++ [⟨.endOfInput, .point source.utf8ByteSize⟩])) {t : Token} (ht : t ∈ ts)
    (b : Bracket) : (t.kind = .opening b → t.span.Covers source b.openChar.toString) ∧
      (t.kind = .closing b → t.span.Covers source b.closeChar.toString) := by
  obtain ⟨-, ts', heq, -, hts⟩ := tokenize_partition h
  obtain rfl := List.append_cancel_right heq
  obtain ⟨-, -, before, slice, after, hsource, hspan, hmunched⟩ := hts t ht
  constructor <;> intro hkind <;> rw [hkind] at hmunched <;>
    exact eq_toString_of_mem_this (hmunched.mem_pattern rfl) ▸ ⟨before, after, hsource, hspan⟩

/-! ### Scan errors -/

theorem scanFrom_error_inside {offset : Nat} {found : List Token} {cs : List Char} {e : ScanError}
    (h : scanFrom offset found cs = .error e) : e.span.Inside (offset + byteLength cs) := by
  fun_induction scanFrom offset found cs with
  | case1 => cases h
  | case2 offset found c cs n stop hfront ih =>
    rw [← byteLength_take_add_drop c cs n, ← Nat.add_assoc]
    exact ih h
  | case3 offset found c cs n stop kind hfront ih =>
    rw [← byteLength_take_add_drop c cs n, ← Nat.add_assoc]
    exact ih h
  | case4 offset found c cs n stop cause hfront =>
    cases h
    have hpos := byteLength_pos c (cs.take n)
    have hsplit := byteLength_take_add_drop c cs n
    exact ⟨Nat.lt_add_of_pos_right hpos, by dsimp only; omega⟩

/-- **What cannot be cut into tokens** stands in the source. -/
theorem tokenize_error_inside {source : String} {e : ScanError} (h : tokenize source = .error e) :
    e.span.Inside source.utf8ByteSize := by
  have hinside := scanFrom_error_inside h
  rwa [Nat.zero_add, byteLength_eq_utf8ByteSize, String.ofList_toList] at hinside

end MusicLisp
