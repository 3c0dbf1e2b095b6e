import MusicLisp.Proofs.Prompt.Shading
import MusicLisp.Proofs.Token.Blanks

/-!
# Shades and tokens

A line that can be cut into tokens is shaded as it is cut, up to the first end of a line behind a comment: the prompt
takes all that comes after for the same comment.

* `shaded_lexeme`: a lexeme has one shade, that of its kind.
* `Token.Over`, `InComment`, `EndsComment`: where tokens and comments stand, by the characters of a text.
* `Leads`: a piece in front of a text. It moves the roles of the characters behind it and changes none.
* `Cut.shows`: **the shades of a text and its tokens**, by induction on how it is cut.
* `highlight_roles`: the prompt colors strings, keywords and comments as the scanner finds them.
-/

namespace MusicLisp

open Lexeme

/-! ### The shades of pieces -/

namespace Mode

/-- A text that keeps the mode has one shade. -/
theorem shaded_of_forall {mode : Mode} {shade : Option Color} {r : List Char}
    (hr : ∀ d ∈ r, mode.pass d = (mode, shade)) (rest : List Char) :
    mode.shaded (r ++ rest) = r.map (Cell.mk · shade) ++ mode.shaded rest := by
  induction r with
  | nil => rfl
  | cons d r ih =>
    obtain ⟨hd, hr⟩ := List.forall_mem_cons.mp hr
    rw [List.cons_append, shaded, hd, ih hr, List.map_cons, List.cons_append]

theorem shaded_comment (cs : List Char) : comment.shaded cs = cs.map (Cell.mk · (some .gray)) := by
  have hpass : ∀ d ∈ cs, comment.pass d = (comment, some .gray) := fun _ _ => rfl
  have hgray := shaded_of_forall hpass []
  rwa [List.append_nil, shaded, List.append_nil] at hgray

/-- The character starts no string, no keyword and no comment. -/
def Quiet (c : Char) : Prop := c ≠ '"' ∧ c ≠ ':' ∧ c ≠ ';'

instance (c : Char) : Decidable (Quiet c) := inferInstanceAs (Decidable (_ ∧ _ ∧ _))

theorem enter_of_quiet {c : Char} (h : Quiet c) : enter c = (.plain, none) := by
  unfold enter
  rw [if_neg h.1, if_neg h.2.1, if_neg h.2.2]

theorem quiet_of_class {p : Char → Bool} (hp : ['"', ':', ';'].any p = false) {c : Char} (h : p c = true) : Quiet c := by
  have hne : ∀ d ∈ ['"', ':', ';'], c ≠ d := by
    rintro d hd rfl
    exact List.any_eq_false.mp hp c hd h
  exact ⟨hne _ (by decide), hne _ (by decide), hne _ (by decide)⟩

theorem shaded_quiet {r : List Char} (hr : ∀ d ∈ r, Quiet d) (rest : List Char) :
    plain.shaded (r ++ rest) = r.map (Cell.mk · none) ++ plain.shaded rest := by
  have hpass : ∀ d ∈ r, plain.pass d = (plain, none) := fun d hd => enter_of_quiet (hr d hd)
  exact shaded_of_forall hpass rest

/-- A keyword ends with its symbol characters. -/
theorem shaded_keyword {r rest : List Char} (hr : ∀ d ∈ r, isSymbolChar d = true) (hrest : Stops isSymbolChar rest) :
    keyword.shaded (r ++ rest) = r.map (Cell.mk · (some .yellow)) ++ plain.shaded rest := by
  have hpass : ∀ d ∈ r, keyword.pass d = (keyword, some .yellow) := fun d hd => if_pos (hr d hd)
  rw [shaded_of_forall hpass]
  congr 1
  cases rest with
  | nil => rfl
  | cons d rest =>
    have hd : keyword.pass d = plain.pass d := if_neg (by rw [hrest d rfl]; exact Bool.false_ne_true)
    rw [shaded, shaded, hd]

/-- A string ends with the quote after its body. -/
theorem shaded_string {b : List Char} (hb : Body b) (rest : List Char) :
    (string false).shaded (b ++ '"' :: rest) =
      (b ++ ['"']).map (Cell.mk · (some .green)) ++ plain.shaded rest := by
  induction hb with
  | nil => rfl
  | @plain c r hq hs _ ih =>
    have hpass : (string false).pass c = (string false, some .green) := by
      unfold pass
      dsimp only
      rw [if_neg hs, if_neg hq]
    rw [List.cons_append, shaded, hpass, ih]
    rfl
  | @pair c r _ ih =>
    rw [List.cons_append, List.cons_append, shaded, shaded]
    exact congrArg (fun cells => Cell.mk '\\' (some .green) :: Cell.mk c (some .green) :: cells) ih

end Mode

/-- The shade of a token of the kind. -/
def TokenKind.shade : TokenKind → Option Color
  | .atom (.string _) => some .green
  | .atom (.keyword _) => some .yellow
  | _ => none

namespace TokenKind

theorem shade_eq_green {kind : TokenKind} : kind.shade = some .green ↔ ∃ text, kind = .atom (.string text) := by
  unfold shade
  split <;> simp_all

theorem shade_eq_yellow {kind : TokenKind} : kind.shade = some .yellow ↔ ∃ name, kind = .atom (.keyword name) := by
  unfold shade
  split <;> simp_all

theorem shade_ne_gray (kind : TokenKind) : kind.shade ≠ some .gray := by
  unfold shade
  split <;> rintro ⟨⟩

end TokenKind

theorem quiet_of_isSymbolChar {c : Char} (h : isSymbolChar c = true) : Mode.Quiet c :=
  Mode.quiet_of_class rfl h

theorem quiet_of_isDigit {c : Char} (h : c.isDigit = true) : Mode.Quiet c :=
  Mode.quiet_of_class rfl h

/-- The rest of a number is digits and a point. -/
theorem Lexeme.NumberTail.forall_mem {P : Char → Prop} (hdigit : ∀ {d : Char}, d.isDigit = true → P d) (hpoint : P '.')
    {r : List Char} (h : NumberTail r) : ∀ d ∈ r, P d := by
  obtain ⟨ds, hds, rfl | ⟨ps, hps, rfl⟩⟩ := h
  · exact fun d hd => hdigit (hds d hd)
  · exact List.forall_mem_append.mpr
      ⟨fun d hd => hdigit (hds d hd), List.forall_mem_cons.mpr ⟨hpoint, fun d hd => hdigit (hps d hd)⟩⟩

/-- **A lexeme has one shade**, that of its kind. -/
theorem Piece.Front.shaded {c : Char} {cs : List Char} {kind : TokenKind} {n : Nat} (h : Front c cs kind n) :
    Mode.plain.shaded (c :: cs) = (c :: cs.take n).map (Cell.mk · kind.shade) ++ Mode.plain.shaded (cs.drop n) := by
  have hsplit : c :: cs = c :: cs.take n ++ cs.drop n := by rw [List.cons_append, List.take_append_drop]
  cases h with
  | opening b hc =>
    subst hc
    exact Mode.shaded_quiet (r := [b.openChar]) (List.forall_mem_singleton.mpr (by cases b <;> decide)) cs
  | closing b hc =>
    subst hc
    exact Mode.shaded_quiet (r := [b.closeChar]) (List.forall_mem_singleton.mpr (by cases b <;> decide)) cs
  | number hc =>
    have hquiet : Mode.Quiet c := by
      obtain hdigit | ⟨rfl, -⟩ := hc
      · exact quiet_of_isDigit hdigit
      · decide
    have htail := (numberTail_take cs).forall_mem quiet_of_isDigit (by decide : Mode.Quiet '.')
    rw [hsplit, Mode.shaded_quiet (List.forall_mem_cons.mpr ⟨hquiet, htail⟩)]
    rfl
  | symbol hc =>
    have hquiet : Mode.Quiet c := by
      obtain hstart | rfl := hc
      · exact Mode.quiet_of_class rfl hstart
      · decide
    have htail : ∀ d ∈ cs.take (run isSymbolChar cs), Mode.Quiet d := fun d hd =>
      quiet_of_isSymbolChar (forall_mem_take_run isSymbolChar cs d hd)
    rw [hsplit, Mode.shaded_quiet (List.forall_mem_cons.mpr ⟨hquiet, htail⟩)]
    rfl
  | keyword hc =>
    subst hc
    obtain ⟨r, rest, rfl, hr, hrest⟩ := exists_run isSymbolChar cs
    rw [run_append hr hrest, List.take_left, List.drop_left]
    exact congrArg (List.cons (Cell.mk ':' (some .yellow))) (Mode.shaded_keyword hr hrest)
  | @string b rest hc hb hcs =>
    subst hc hcs
    rw [List.take_length_add_append, List.drop_length_add_append]
    exact congrArg (List.cons (Cell.mk '"' (some .green))) (Mode.shaded_string hb rest)

/-! ### The roles of characters -/

/-- The byte at which the character at `i` stands, in a text that starts at byte `offset`. -/
def placeAt (offset : Nat) (cs : List Char) (i : Nat) : Nat := offset + byteLength (cs.take i)

theorem placeAt_append_right (offset : Nat) (p cs : List Char) (i : Nat) :
    placeAt offset (p ++ cs) (p.length + i) = placeAt (offset + byteLength p) cs i := by
  unfold placeAt
  rw [List.take_length_add_append, byteLength_append, Nat.add_assoc]

theorem placeAt_append_left {p : List Char} {i : Nat} (h : i < p.length) (offset : Nat) (cs : List Char) :
    placeAt offset (p ++ cs) i = placeAt offset p i := by
  unfold placeAt
  rw [List.take_append_of_le_length (Nat.le_of_lt h)]

theorem placeAt_lt {p : List Char} {i : Nat} (h : i < p.length) (offset : Nat) :
    placeAt offset p i < offset + byteLength p := by
  have hsplit := byteLength_append (p.take i) (p.drop i)
  rw [List.take_append_drop, List.drop_eq_getElem_cons h] at hsplit
  have hpos := byteLength_pos p[i] (p.drop (i + 1))
  unfold placeAt
  omega

theorem le_placeAt (offset : Nat) (cs : List Char) (i : Nat) : offset ≤ placeAt offset cs i :=
  Nat.le_add_right _ _

/-- **The token covers the byte.** -/
def Token.Over (t : Token) (place : Nat) : Prop := t.span.start ≤ place ∧ place < t.span.stop

section

variable (offset : Nat) (cs : List Char) (ts : List Token) (i : Nat)

/-- **The character at `i` is in a comment**: before it, or there, stands a semicolon outside all tokens, and no line
ends in between. -/
def InComment : Prop :=
  ∃ j ≤ i, cs[j]? = some ';' ∧ (∀ t ∈ ts, ¬ t.Over (placeAt offset cs j)) ∧
    ∀ k, j ≤ k → k < i → cs[k]? ≠ some '\n'

/-- The character at `i` is the end of a line behind a comment. -/
def EndsComment : Prop := cs[i]? = some '\n' ∧ InComment offset cs ts i

/-- **The first end of a line behind a comment**, or the end of the text. -/
structure FirstEnd (n : Nat) : Prop where
  le : n ≤ cs.length
  ends : n < cs.length → EndsComment offset cs ts n
  first : ∀ i < n, ¬ EndsComment offset cs ts i

/-- **A color tells the role** of the character at `i`. -/
structure Tells (color : Option Color) : Prop where
  green : color = some .green ↔ ∃ t ∈ ts, (∃ text, t.kind = .atom (.string text)) ∧ t.Over (placeAt offset cs i)
  yellow : color = some .yellow ↔ ∃ t ∈ ts, (∃ name, t.kind = .atom (.keyword name)) ∧ t.Over (placeAt offset cs i)
  gray : color = some .gray ↔ InComment offset cs ts i

end

/-! ### Pieces in front -/

/-- **A piece in front of a text**: the tokens of both are those of the text and what covers the piece, and every
semicolon of the piece is covered. -/
structure Leads (offset : Nat) (p : List Char) (ts ts' : List Token) : Prop where
  sub : ∀ t ∈ ts, t ∈ ts'
  behind : ∀ t ∈ ts', t ∈ ts ∨ t.span.stop ≤ offset + byteLength p
  semicolon : ∀ j, p[j]? = some ';' → ∃ t ∈ ts', t.Over (placeAt offset p j)

namespace Leads

variable {offset : Nat} {p cs : List Char} {ts ts' : List Token} (h : Leads offset p ts ts')
include h

theorem over_iff {place : Nat} (hplace : offset + byteLength p ≤ place) {Q : Token → Prop} :
    (∃ t ∈ ts', Q t ∧ t.Over place) ↔ ∃ t ∈ ts, Q t ∧ t.Over place := by
  constructor
  · rintro ⟨t, ht, hQ, hover⟩
    obtain ht | hstop := h.behind t ht
    · exact ⟨t, ht, hQ, hover⟩
    · exact absurd hover.2 (by omega)
  · rintro ⟨t, ht, hQ⟩
    exact ⟨t, h.sub t ht, hQ⟩

/-- No comment is in the piece. -/
theorem not_inComment {i : Nat} (hi : i < p.length) : ¬ InComment offset (p ++ cs) ts' i := by
  rintro ⟨j, hj, hsemicolon, hover, -⟩
  rw [List.getElem?_append_left (by omega)] at hsemicolon
  obtain ⟨t, ht, hcovers⟩ := h.semicolon j hsemicolon
  rw [placeAt_append_left (by omega)] at hover
  exact hover t ht hcovers

/-- **Comments move** with the text behind the piece. -/
theorem inComment_iff {i : Nat} :
    InComment offset (p ++ cs) ts' (p.length + i) ↔ InComment (offset + byteLength p) cs ts i := by
  have hover (j : Nat) : (∀ t ∈ ts', ¬ t.Over (placeAt offset (p ++ cs) (p.length + j))) ↔
      ∀ t ∈ ts, ¬ t.Over (placeAt (offset + byteLength p) cs j) := by
    rw [placeAt_append_right]
    have hiff := h.over_iff (le_placeAt _ cs j) (Q := fun _ => True)
    simp only [true_and] at hiff
    simpa using not_congr hiff
  constructor
  · rintro ⟨j, hj, hsemicolon, htokens, hline⟩
    have hpj : p.length ≤ j := by
      by_contra hlt
      have hin : InComment offset (p ++ cs) ts' j := ⟨j, Nat.le_refl _, hsemicolon, htokens, by omega⟩
      exact h.not_inComment (by omega) hin
    obtain ⟨j, rfl⟩ := Nat.exists_eq_add_of_le hpj
    rw [List.getElem?_append_right (by omega), Nat.add_sub_cancel_left] at hsemicolon
    refine ⟨j, by omega, hsemicolon, (hover j).mp htokens, fun k hk hki => ?_⟩
    have hbreak := hline (p.length + k) (by omega) (by omega)
    rwa [List.getElem?_append_right (by omega), Nat.add_sub_cancel_left] at hbreak
  · rintro ⟨j, hj, hsemicolon, htokens, hline⟩
    refine ⟨p.length + j, by omega, ?_, (hover j).mpr htokens, fun k hk hki => ?_⟩
    · rwa [List.getElem?_append_right (by omega), Nat.add_sub_cancel_left]
    · have hbreak := hline (k - p.length) (by omega) (by omega)
      rwa [List.getElem?_append_right (by omega)]

theorem endsComment_iff {i : Nat} :
    EndsComment offset (p ++ cs) ts' (p.length + i) ↔ EndsComment (offset + byteLength p) cs ts i := by
  unfold EndsComment
  rw [h.inComment_iff, List.getElem?_append_right (Nat.le_add_right _ _), Nat.add_sub_cancel_left]

theorem not_endsComment {i : Nat} (hi : i < p.length) : ¬ EndsComment offset (p ++ cs) ts' i :=
  fun hends => h.not_inComment hi hends.2

/-- The first end of a line behind a comment is behind the piece. -/
theorem firstEnd {n : Nat} (hn : FirstEnd (offset + byteLength p) cs ts n) :
    FirstEnd offset (p ++ cs) ts' (p.length + n) where
  le := by
    rw [List.length_append]
    exact Nat.add_le_add_left hn.le _
  ends hlt := by
    rw [List.length_append] at hlt
    exact h.endsComment_iff.mpr (hn.ends (by omega))
  first i hi := by
    obtain hip | ⟨i, rfl⟩ := Nat.lt_or_ge i p.length |>.imp_right Nat.exists_eq_add_of_le
    · exact h.not_endsComment hip
    · exact fun hends => hn.first i (by omega) (h.endsComment_iff.mp hends)

theorem tells {i : Nat} {color : Option Color} (ht : Tells (offset + byteLength p) cs ts i color) :
    Tells offset (p ++ cs) ts' (p.length + i) color := by
  constructor
  · rw [placeAt_append_right, h.over_iff (le_placeAt _ _ _)]
    exact ht.green
  · rw [placeAt_append_right, h.over_iff (le_placeAt _ _ _)]
    exact ht.yellow
  · rw [h.inComment_iff]
    exact ht.gray

end Leads

/-- Tokens of a text stand behind its start. -/
theorem Cut.le_start {offset : Nat} {cs : List Char} {ts : List Token} (h : Cut offset cs ts) :
    ∀ t ∈ ts, offset ≤ t.span.start := by
  obtain ⟨tokens, rfl, hstart, -⟩ := h.partition.tokens
  refine List.forall_mem_append.mpr ⟨hstart, List.forall_mem_singleton.mpr ?_⟩
  exact Nat.le_add_right _ _

/-- Tokens that stand behind a piece cover none of it. -/
theorem not_over {offset : Nat} {p cs : List Char} {ts : List Token} (hts : ∀ t ∈ ts, offset + byteLength p ≤ t.span.start)
    {i : Nat} (hi : i < p.length) : ∀ t ∈ ts, ¬ t.Over (placeAt offset (p ++ cs) i) := by
  intro t ht hover
  have hlt := placeAt_lt hi offset
  have hle := hts t ht
  have hstart := hover.1
  rw [placeAt_append_left hi] at hstart
  omega

/-- Blanks are a piece without tokens. -/
theorem leads_blanks {offset : Nat} {p : List Char} (hp : ∀ c ∈ p, isBlank c = true) (ts : List Token) :
    Leads offset p ts ts where
  sub _ ht := ht
  behind _ ht := .inl ht
  semicolon j hj := by
    have hblank := hp ';' (List.mem_of_getElem? hj)
    cases hblank

/-- A token covers its piece. -/
theorem over_of_span {offset : Nat} {p : List Char} {t : Token} (ht : t.span = ⟨offset, offset + byteLength p⟩) {i : Nat}
    (hi : i < p.length) : t.Over (placeAt offset p i) := by
  unfold Token.Over
  rw [ht]
  exact ⟨le_placeAt offset p i, placeAt_lt hi offset⟩

theorem leads_token {offset : Nat} {p : List Char} {t : Token} (ht : t.span = ⟨offset, offset + byteLength p⟩)
    (ts : List Token) : Leads offset p ts (t :: ts) where
  sub _ hmem := List.mem_cons_of_mem _ hmem
  behind u hu := by
    obtain rfl | hu := List.mem_cons.mp hu
    · exact .inr (by rw [ht])
    · exact .inl hu
  semicolon j hj := ⟨t, List.mem_cons_self, over_of_span ht (List.getElem?_eq_some_iff.mp hj).1⟩

/-- **What the shades of a text tell** of its tokens: the role of each character in front of the first end of a line
behind a comment, and no more from there on. -/
structure Shows (offset : Nat) (cs : List Char) (ts : List Token) (cells : List Cell) (n : Nat) : Prop where
  first : FirstEnd offset cs ts n
  tells : ∀ i cell, cells[i]? = some cell → i < n → Tells offset cs ts i cell.color
  gray : ∀ i cell, cells[i]? = some cell → n ≤ i → cell.color = some .gray

/-- A cell is of the piece, or of what comes behind it. -/
theorem getElem?_map_append {p : List Char} {shade : Option Color} {cells : List Cell} {i : Nat} {cell : Cell}
    (h : (p.map (Cell.mk · shade) ++ cells)[i]? = some cell) :
    i < p.length ∧ cell.color = shade ∨ ∃ j, i = p.length + j ∧ cells[j]? = some cell := by
  obtain hi | hi := Nat.lt_or_ge i p.length
  · rw [List.getElem?_append_left (by rwa [List.length_map]), List.getElem?_map] at h
    obtain ⟨d, -, rfl⟩ := Option.map_eq_some_iff.mp h
    exact .inl ⟨hi, rfl⟩
  · obtain ⟨j, rfl⟩ := Nat.exists_eq_add_of_le hi
    rw [List.getElem?_append_right (by rw [List.length_map]; exact hi), List.length_map, Nat.add_sub_cancel_left] at h
    exact .inr ⟨j, rfl, h⟩

/-- A piece of one shade goes in front. -/
theorem Shows.lead {offset : Nat} {p cs : List Char} {ts ts' : List Token} {cells : List Cell} {n : Nat}
    (h : Shows (offset + byteLength p) cs ts cells n) (hlead : Leads offset p ts ts') {shade : Option Color}
    (hshade : ∀ i < p.length, Tells offset (p ++ cs) ts' i shade) :
    Shows offset (p ++ cs) ts' (p.map (Cell.mk · shade) ++ cells) (p.length + n) where
  first := hlead.firstEnd h.first
  tells i cell hcell hi := by
    obtain ⟨hip, hcolor⟩ | ⟨j, rfl, hj⟩ := getElem?_map_append hcell
    · rw [hcolor]
      exact hshade i hip
    · exact hlead.tells (h.tells j cell hj (by omega))
  gray i cell hcell hi := by
    obtain ⟨hip, -⟩ | ⟨j, rfl, hj⟩ := getElem?_map_append hcell
    · omega
    · exact h.gray j cell hj (by omega)

/-- Blanks go in front. -/
theorem Shows.blanks {offset : Nat} {p cs : List Char} {ts : List Token} {cells : List Cell} {n : Nat}
    (h : Shows (offset + byteLength p) cs ts cells n) (hp : ∀ c ∈ p, isBlank c = true)
    (hts : ∀ t ∈ ts, offset + byteLength p ≤ t.span.start) :
    Shows offset (p ++ cs) ts (p.map (Cell.mk · none) ++ cells) (p.length + n) := by
  have hlead : Leads offset p ts ts := leads_blanks hp ts
  refine h.lead hlead fun i hi => ?_
  have hover : ∀ t ∈ ts, ¬ t.Over (placeAt offset (p ++ cs) i) := not_over hts hi
  constructor
  · exact iff_of_false (by rintro ⟨⟩) fun ⟨t, ht, _, h⟩ => hover t ht h
  · exact iff_of_false (by rintro ⟨⟩) fun ⟨t, ht, _, h⟩ => hover t ht h
  · exact iff_of_false (by rintro ⟨⟩) (hlead.not_inComment hi)

/-- A lexeme goes in front. -/
theorem Shows.token {offset : Nat} {p cs : List Char} {t : Token} {ts : List Token} {cells : List Cell} {n : Nat}
    (h : Shows (offset + byteLength p) cs ts cells n) (ht : t.span = ⟨offset, offset + byteLength p⟩)
    (hts : ∀ t ∈ ts, offset + byteLength p ≤ t.span.start) :
    Shows offset (p ++ cs) (t :: ts) (p.map (Cell.mk · t.kind.shade) ++ cells) (p.length + n) := by
  have hlead : Leads offset p ts (t :: ts) := leads_token ht ts
  refine h.lead hlead fun i hi => ?_
  have hover (Q : Token → Prop) : (∃ u ∈ t :: ts, Q u ∧ u.Over (placeAt offset (p ++ cs) i)) ↔ Q t := by
    constructor
    · rintro ⟨u, hu, hQ, hover⟩
      obtain rfl | hu := List.mem_cons.mp hu
      · exact hQ
      · exact absurd hover (not_over hts hi u hu)
    · exact fun hQ => ⟨t, List.mem_cons_self, hQ, placeAt_append_left hi offset cs ▸ over_of_span ht hi⟩
  constructor
  · rw [hover, TokenKind.shade_eq_green]
  · rw [hover, TokenKind.shade_eq_yellow]
  · exact iff_of_false (TokenKind.shade_ne_gray _) (hlead.not_inComment hi)

section

variable {offset : Nat} {line rest : List Char} {ts : List Token} (hline : '\n' ∉ line)
  (hts : ∀ t ∈ ts, offset + byteLength (';' :: line) ≤ t.span.start)
include hline

theorem ne_newline {i : Nat} (hi : i < line.length + 1) : (';' :: line ++ rest)[i]? ≠ some '\n' := by
  intro hbreak
  rw [List.getElem?_append_left hi] at hbreak
  obtain hmem | hmem := List.mem_cons.mp (List.mem_of_getElem? hbreak)
  · cases hmem
  · exact hline hmem

include hts

/-- A comment reaches through the end of its line. -/
theorem inComment_comment {i : Nat} (hi : i ≤ line.length + 1) : InComment offset (';' :: line ++ rest) ts i :=
  ⟨0, Nat.zero_le _, rfl, not_over hts (Nat.zero_lt_succ _), fun _ _ hk => ne_newline hline (by omega)⟩

/-- A comment is gray, and so is all that comes behind it. -/
theorem shows_comment (hrest : ∀ c, rest.head? = some c → c = '\n') :
    Shows offset (';' :: line ++ rest) ts ((';' :: line ++ rest).map (Cell.mk · (some .gray))) (line.length + 1) where
  first := by
    refine ⟨?_, fun hlt => ⟨?_, inComment_comment hline hts (Nat.le_refl _)⟩, fun i hi hends => ne_newline hline hi hends.1⟩
    · rw [List.length_append]
      exact Nat.le_add_right _ _
    · change (';' :: line ++ rest)[(';' :: line).length]? = _
      rw [List.getElem?_append_right (Nat.le_refl _), Nat.sub_self, ← List.head?_eq_getElem?]
      cases rest with
      | nil => exact absurd hlt (by rw [List.append_nil]; exact Nat.lt_irrefl _)
      | cons c rest => exact congrArg some (hrest c rfl)
  tells i cell hcell hi := by
    rw [List.getElem?_map] at hcell
    obtain ⟨d, -, rfl⟩ := Option.map_eq_some_iff.mp hcell
    have hover : ∀ t ∈ ts, ¬ t.Over (placeAt offset (';' :: line ++ rest) i) := not_over hts hi
    constructor
    · exact iff_of_false (by rintro ⟨⟩) fun ⟨t, ht, _, h⟩ => hover t ht h
    · exact iff_of_false (by rintro ⟨⟩) fun ⟨t, ht, _, h⟩ => hover t ht h
    · exact iff_of_true rfl (inComment_comment hline hts (by omega))
  gray i cell hcell _ := by
    rw [List.getElem?_map] at hcell
    obtain ⟨d, -, rfl⟩ := Option.map_eq_some_iff.mp hcell
    rfl

end

/-- **The shades of a text tell its tokens and its comments.** -/
theorem Cut.shows {offset : Nat} {cs : List Char} {ts : List Token} (h : Cut offset cs ts) :
    ∃ n, Shows offset cs ts (Mode.plain.shaded cs) n := by
  induction h with
  | mark offset =>
    exact ⟨0, ⟨Nat.le_refl _, fun h => absurd h (Nat.lt_irrefl _), by omega⟩, by rintro i cell ⟨⟩, by rintro i cell ⟨⟩⟩
  | @gap offset n c cs ts hfront hrest ih =>
    have hsplit : c :: cs = c :: cs.take n ++ cs.drop n := by rw [List.cons_append, List.take_append_drop]
    obtain ⟨hc, rfl⟩ | ⟨rfl, rfl⟩ := front_gap hfront
    · obtain ⟨m, hm⟩ := ih
      have hblank : ∀ d ∈ c :: cs.take (run isBlank cs), isBlank d = true :=
        List.forall_mem_cons.mpr ⟨hc, forall_mem_take_run isBlank cs⟩
      rw [hsplit, Mode.shaded_quiet fun d hd => Mode.quiet_of_class rfl (hblank d hd)]
      exact ⟨_, hm.blanks hblank hrest.le_start⟩
    · obtain ⟨line, rest, rfl, hline, hend⟩ := commentTail_cases cs
      have hgray : Mode.plain.shaded (';' :: (line ++ rest)) = (';' :: line ++ rest).map (Cell.mk · (some .gray)) :=
        congrArg (List.cons _) (Mode.shaded_comment _)
      have hle := hrest.le_start
      rw [hgray]
      obtain ⟨rfl, hn⟩ | ⟨r, rfl, hn⟩ := hend
      · rw [hn, List.take_left] at hle
        exact ⟨_, shows_comment hline hle (by rintro c ⟨⟩)⟩
      · rw [hn, List.take_length_add_append, ← List.cons_append, byteLength_append, ← Nat.add_assoc] at hle
        refine ⟨_, shows_comment hline (fun t ht => Nat.le_of_add_right_le (hle t ht)) ?_⟩
        rintro c ⟨⟩
        rfl
  | @token offset n c cs kind ts hfront hrest ih =>
    obtain ⟨m, hm⟩ := ih
    have hsplit : c :: cs = c :: cs.take n ++ cs.drop n := by rw [List.cons_append, List.take_append_drop]
    rw [(Piece.front_of_eq hfront).shaded, hsplit]
    exact ⟨_, hm.token rfl hrest.le_start⟩

/-! ### The prompt and the scanner -/

/-- A color for brackets tells no role, like no color. -/
theorem Tells.forBracket {offset : Nat} {cs : List Char} {ts : List Token} {i : Nat} (h : Tells offset cs ts i none)
    {color : Color} (hcolor : color.ForBracket) : Tells offset cs ts i (some color) where
  green := (iff_of_false (by cases hcolor <;> decide) (by decide)).trans h.green
  yellow := (iff_of_false (by cases hcolor <;> decide) (by decide)).trans h.yellow
  gray := (iff_of_false (by cases hcolor <;> decide) (by decide)).trans h.gray

/-- **The prompt colors a line as the scanner cuts it**, up to the first end of a line behind a comment: strings green,
keywords yellow, comments gray, and nothing else but brackets. From there on all is gray. -/
theorem highlight_roles {line : String} {ts : List Token} (h : tokenize line = .ok ts) (pos : Nat) :
    highlight line pos = String.ofList ((shown line pos).flatMap Cell.chars) ∧
      (shown line pos).map Cell.char = line.toList ∧
      ∃ n, FirstEnd 0 line.toList ts n ∧ ∀ i cell, (shown line pos)[i]? = some cell →
        (i < n → Tells 0 line.toList ts i cell.color ∧ ∀ color, cell.color = some color →
          color = .green ∨ color = .yellow ∨ color = .gray ∨
            color.ForBracket ∧ ∃ m, Mark.ofChar? i cell.char = some m) ∧
        (n ≤ i → cell.color = some .gray) := by
  obtain ⟨n, hfirst, htells, hgray⟩ := (tokenize_ok_iff.mp h).shows
  refine ⟨rfl, map_char_shown line pos, n, hfirst, fun i cell hcell => ?_⟩
  obtain hshade | ⟨hshade, hmark, color, hcolor, hbracket⟩ := shown_cases hcell
  · refine ⟨fun hi => ⟨htells i cell hshade hi, fun color hcolor => ?_⟩, hgray i cell hshade⟩
    obtain rfl | rfl | rfl := Mode.eq_of_shaded hshade hcolor
    · exact .inl rfl
    · exact .inr (.inl rfl)
    · exact .inr (.inr (.inl rfl))
  · refine ⟨fun hi => ⟨?_, fun color' hcolor' => ?_⟩, fun hi => ?_⟩
    · rw [hcolor]
      exact (htells i _ hshade hi).forBracket hbracket
    · obtain rfl := Option.some.inj (hcolor.symm.trans hcolor')
      exact .inr (.inr (.inr ⟨hbracket, hmark⟩))
    · -- behind the first end of a line there are no characters without a shade
      cases hgray i _ hshade hi

/-- A pair of brackets around a keyword and a string with a semicolon in it; the string behind the comment is gray. -/
theorem highlight_roles_behind : ∃ ts, tokenize "(:k \"a;\");b\n\"c\"" = .ok ts ∧
    (shown "(:k \"a;\");b\n\"c\"" 1).map Cell.color =
      [some .boldBlue, some .yellow, some .yellow, none, some .green, some .green, some .green, some .green,
        some .blue, some .gray, some .gray, some .gray, some .gray, some .gray, some .gray] ∧
    ∃ n, FirstEnd 0 "(:k \"a;\");b\n\"c\"".toList ts n ∧
      ∀ i cell, (shown "(:k \"a;\");b\n\"c\"" 1)[i]? = some cell → i < n →
        Tells 0 "(:k \"a;\");b\n\"c\"".toList ts i cell.color := by
  have htokens : tokenize "(:k \"a;\");b\n\"c\"" = .ok
      [⟨.opening .round, 0, 1⟩, ⟨.atom (.keyword "k"), 1, 3⟩, ⟨.atom (.string "a;"), 4, 8⟩, ⟨.closing .round, 8, 9⟩,
        ⟨.atom (.string "c"), 12, 15⟩, ⟨.endOfInput, 15, 15⟩] := by
    cbv
  obtain ⟨-, -, n, hfirst, hcells⟩ := highlight_roles htokens 1
  exact ⟨_, htokens, by decide +kernel, n, hfirst, fun i cell hcell hi => ((hcells i cell hcell).1 hi).1⟩

end MusicLisp
