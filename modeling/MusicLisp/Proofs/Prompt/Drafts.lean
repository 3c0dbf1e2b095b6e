import MusicLisp.Proofs.Prompt.Colors
import MusicLisp.Proofs.Prompt.Shading
import MusicLisp.Proofs.Token.Partition

/-!
# Highlighting in place

A line can be highlighted in one growing text. The offset at which an open bracket was written is kept on the stack,
and when the bracket gets its color it is overwritten there, in the middle of the text, with more bytes than it had.
That is right as long as what is overwritten comes after whatever is still open: a bracket is overwritten when it
leaves the stack, and the brackets still on the stack stand before it.

* `Draft`: the text so far, and the open brackets with their offsets. A step fails if it overwrites what is not one
  character of one byte.
* `Highlight.Standing`: in the cells, what is open is plain, and the stack goes down through the line.
* `Standing.step`, `line_draft`: **the cells go along with the draft**, one character after the other; so no step of
  the draft fails.
* `highlight_in_place`: what is highlighted is shown as the line, and every bracket that is open stands plain at its
  offset.
-/

namespace MusicLisp

/-! ### Overwriting one byte -/

/-- A text with other characters in the place of the byte at an offset, which has to be a character by itself. -/
def replaceByte? : Nat → List Char → List Char → Option (List Char)
  | _, _, [] => none
  | 0, new, c :: cs => if c.utf8Size = 1 then some (new ++ cs) else none
  | n + 1, new, c :: cs =>
    if c.utf8Size ≤ n + 1 then (replaceByte? (n + 1 - c.utf8Size) new cs).map (c :: ·) else none

theorem replaceByte?_append {c : Char} (hc : c.utf8Size = 1) (left new right : List Char) :
    replaceByte? (byteLength left) new (left ++ c :: right) = some (left ++ (new ++ right)) := by
  induction left with
  | nil => exact if_pos hc
  | cons d left ih =>
    have hlength := byteLength_cons d left
    have hpos := d.utf8Size_pos
    obtain ⟨n, hn⟩ : ∃ n, byteLength (d :: left) = n + 1 := Nat.exists_eq_add_of_le' (by omega)
    have hrest : n + 1 - d.utf8Size = byteLength left := by omega
    rw [hn, List.cons_append, replaceByte?, if_pos (by omega), hrest, ih]
    rfl

theorem Bracket.utf8Size_openChar (b : Bracket) : b.openChar.utf8Size = 1 := by cases b <;> rfl

/-! ### The scan in one text -/

/-- **How far a line has been highlighted in place**: the text, the number of characters gone through, and the open
brackets, each with its offset in the text and its index in the line. -/
structure Draft where
  mode : Mode
  text : List Char
  seen : Nat
  stack : List (Bracket × Nat × Nat)
deriving Repr, Inhabited

namespace Draft

/-- Before the first character. -/
def start : Draft := ⟨.plain, [], 0, []⟩

/-- Adds a character in a color at the end of the text. -/
def put (d : Draft) (c : Char) (color : Option Color) : Draft :=
  { d with text := d.text ++ Cell.chars ⟨c, color⟩, seen := d.seen + 1 }

/-- Overwrites the byte at an offset by a bracket in a color. -/
def recolor (d : Draft) (b : Bracket) (place : Nat) (color : Color) : Option Draft :=
  (replaceByte? place (Cell.chars ⟨b.openChar, some color⟩) d.text).map fun text => { d with text }

/-- A closing bracket. -/
def close (cursor : Option Nat) (d : Draft) (b : Bracket) (c : Char) : Option Draft :=
  match d.stack with
  | [] => some (d.put c (some .red))
  | (opened, place, index) :: rest =>
    let d := { d with stack := rest }
    if opened = b then
      if cursor = some index ∨ cursor = some d.seen then
        (d.put c (some .blue)).recolor opened place .boldBlue
      else some (d.put c none)
    else (d.put c (some .red)).recolor opened place .boldRed

/-- A character without a shade. -/
def bare (cursor : Option Nat) (d : Draft) (c : Char) : Option Draft :=
  match Bracket.ofOpenChar? c, Bracket.ofCloseChar? c with
  | some b, _ => some ({ d with stack := (b, byteLength d.text, d.seen) :: d.stack }.put c none)
  | none, some b => d.close cursor b c
  | none, none => some (d.put c none)

/-- The next character. -/
def step (cursor : Option Nat) (d : Draft) (c : Char) : Option Draft :=
  match d.mode.pass c with
  | (mode, some color) => some ({ d with mode }.put c (some color))
  | (mode, none) => { d with mode }.bare cursor c

/-- Goes through a line. -/
def line (cursor : Option Nat) (cs : List Char) : Option Draft := cs.foldlM (step cursor) start

end Draft

/-! ### Cells and drafts -/

namespace Highlight

/-- A character without a shade. -/
def bare (cursor : Option Nat) (h : Highlight) (c : Char) : Highlight :=
  match Bracket.ofOpenChar? c, Bracket.ofCloseChar? c with
  | some b, _ => { h with stack := (b, h.cells.size) :: h.stack }.put c none
  | none, some b => h.close cursor b c
  | none, none => h.put c none

theorem plain_eq (cursor : Option Nat) (h : Highlight) (c : Char) : h.plain cursor c =
    match Mode.enter c with
    | (mode, some color) => { h with mode }.put c (some color)
    | (mode, none) => { h with mode }.bare cursor c := by
  unfold plain Mode.enter
  split
  · rfl
  split
  · rfl
  split
  · rfl
  · rfl

/-- **A step** in terms of shades: a character with a shade is put, and one without may be a bracket. -/
theorem step_eq (cursor : Option Nat) (h : Highlight) (c : Char) : h.step cursor c =
    match h.mode.pass c with
    | (mode, some color) => { h with mode }.put c (some color)
    | (mode, none) => { h with mode }.bare cursor c := by
  obtain ⟨mode, cells, stack⟩ := h
  cases mode with
  | comment => rfl
  | string escaped =>
    cases escaped with
    | true => rfl
    | false =>
      unfold step Mode.pass
      dsimp only
      split
      · rfl
      split
      · rfl
      · rfl
  | keyword =>
    unfold step Mode.pass
    dsimp only
    split
    · rfl
    · exact plain_eq cursor _ c
  | plain => exact plain_eq cursor _ c

/-- The offset of a cell in the text of the cells. -/
def place (h : Highlight) (index : Nat) : Nat := byteLength ((h.cells.toList.take index).flatMap Cell.chars)

/-- **The draft that cells come to.** -/
def draft (h : Highlight) : Draft :=
  ⟨h.mode, h.chars, h.cells.size, h.stack.map fun entry => (entry.1, h.place entry.2, entry.2)⟩

/-- **What is open stands plain in the cells**, and the stack goes down through the line. -/
structure Standing (h : Highlight) : Prop where
  cell : ∀ entry ∈ h.stack, h.cells.toList[entry.2]? = some ⟨entry.1.openChar, none⟩
  down : h.stack.Pairwise fun entry below => below.2 < entry.2

/-- Places in front of what changes stay. -/
theorem place_congr {h h' : Highlight} {index : Nat} (htake : h'.cells.toList.take index = h.cells.toList.take index) :
    h'.place index = h.place index := by
  rw [place, place, htake]

theorem draft_stack_congr (h h' : Highlight) (stack : List (Bracket × Nat))
    (hplace : ∀ entry ∈ stack, h'.place entry.2 = h.place entry.2) :
    (stack.map fun entry => (entry.1, h'.place entry.2, entry.2)) =
      stack.map fun entry => (entry.1, h.place entry.2, entry.2) := by
  refine List.map_congr_left fun entry hentry => ?_
  rw [hplace entry hentry]

/-- The text of the cells around a plain one. -/
theorem chars_around {h : Highlight} {index : Nat} {c : Char} (hcell : h.cells.toList[index]? = some ⟨c, none⟩) :
    h.chars = (h.cells.toList.take index).flatMap Cell.chars ++
      c :: (h.cells.toList.drop (index + 1)).flatMap Cell.chars := by
  obtain ⟨hindex, hget⟩ := List.getElem?_eq_some_iff.mp hcell
  have hsplit : h.cells.toList = h.cells.toList.take index ++ ⟨c, none⟩ :: h.cells.toList.drop (index + 1) := by
    rw [← hget, ← List.drop_eq_getElem_cons hindex, List.take_append_drop]
  conv => lhs; rw [chars, hsplit]
  rw [List.flatMap_append, List.flatMap_cons]
  rfl

/-- The cells with one of them in another color. -/
theorem toList_recolor {h : Highlight} {index : Nat} {c : Char} {old : Option Color}
    (hcell : h.cells.toList[index]? = some ⟨c, old⟩) (color : Color) : (h.recolor index color).cells.toList =
      h.cells.toList.take index ++ ⟨c, some color⟩ :: h.cells.toList.drop (index + 1) := by
  obtain ⟨hindex, hget⟩ := List.getElem?_eq_some_iff.mp hcell
  have hmodify : (h.recolor index color).cells.toList =
      h.cells.toList.modify index fun cell => { cell with color := some color } := Array.toList_modify
  rw [hmodify, List.modify_eq_take_cons_drop hindex, hget]

section

variable {h : Highlight} (hs : h.Standing)
include hs

theorem Standing.lt_size {entry : Bracket × Nat} (hentry : entry ∈ h.stack) : entry.2 < h.cells.size :=
  (List.getElem?_eq_some_iff.mp (hs.cell entry hentry)).1

/-- **A character at the end** changes no place of what is open. -/
theorem Standing.put (c : Char) (color : Option Color) :
    (h.put c color).draft = h.draft.put c color ∧ (h.put c color).Standing := by
  have hcells : (h.put c color).cells.toList = h.cells.toList ++ [⟨c, color⟩] := Array.toList_push
  have hlength : h.cells.toList.length = h.cells.size := Array.length_toList
  refine ⟨?_, ⟨fun entry hentry => ?_, hs.down⟩⟩
  · have hchars : (h.put c color).chars = h.chars ++ Cell.chars ⟨c, color⟩ := by
      rw [chars, hcells, List.flatMap_append, List.flatMap_singleton]
      rfl
    have hstack := draft_stack_congr h (h.put c color) h.stack fun entry hentry => by
      have hlt := hs.lt_size hentry
      refine place_congr ?_
      rw [hcells, List.take_append_of_le_length (by omega)]
    rw [draft, hchars]
    unfold Draft.put draft
    refine congr (congr rfl ?_) hstack
    exact Array.size_push _
  · have hlt := hs.lt_size hentry
    rw [hcells, List.getElem?_append_left (by omega)]
    exact hs.cell entry hentry

/-- **An opening bracket** stands at the end of the text. -/
theorem Standing.opening (b : Bracket) :
    ({ h with stack := (b, h.cells.size) :: h.stack }.put b.openChar none).draft =
      { h.draft with stack := (b, byteLength h.draft.text, h.draft.seen) :: h.draft.stack }.put b.openChar none ∧
    ({ h with stack := (b, h.cells.size) :: h.stack }.put b.openChar none).Standing := by
  obtain ⟨hdraft, hput⟩ := hs.put b.openChar none
  have hlength : h.cells.toList.length = h.cells.size := Array.length_toList
  have hcells : (h.put b.openChar none).cells.toList = h.cells.toList ++ [⟨b.openChar, none⟩] := Array.toList_push
  have hplace : (h.put b.openChar none).place h.cells.size = byteLength h.draft.text := by
    rw [place, hcells, ← hlength, List.take_left]
    rfl
  refine ⟨?_, ⟨?_, ?_⟩⟩
  · have hstack := congrArg Draft.stack hdraft
    have hopened : ({ h with stack := (b, h.cells.size) :: h.stack }.put b.openChar none).draft =
        { (h.put b.openChar none).draft with
          stack := (b, (h.put b.openChar none).place h.cells.size, h.cells.size) ::
            (h.put b.openChar none).draft.stack } := rfl
    rw [hopened, hplace, hdraft]
    rfl
  · refine List.forall_mem_cons.mpr ⟨?_, hput.cell⟩
    have hcell : (h.put b.openChar none).cells.toList[h.cells.size]? = some ⟨b.openChar, none⟩ := by
      rw [hcells, ← hlength, List.getElem?_concat_length]
    exact hcell
  · exact List.pairwise_cons.mpr ⟨fun entry hentry => hs.lt_size hentry, hs.down⟩

/-- **A bracket above all that is open** is overwritten, and nothing else changes. -/
theorem Standing.recolor {b : Bracket} {index : Nat} (hcell : h.cells.toList[index]? = some ⟨b.openChar, none⟩)
    (habove : ∀ entry ∈ h.stack, entry.2 < index) (color : Color) :
    h.draft.recolor b (h.place index) color = some (h.recolor index color).draft ∧ (h.recolor index color).Standing := by
  have hindex : index < h.cells.toList.length := (List.getElem?_eq_some_iff.mp hcell).1
  have hcells := toList_recolor hcell color
  have htake : ∀ i ≤ index, (h.recolor index color).cells.toList.take i = h.cells.toList.take i := by
    intro i hi
    have hlength : (h.cells.toList.take index).length = index := List.length_take_of_le hindex.le
    rw [hcells, List.take_append_of_le_length (by omega), List.take_take, Nat.min_eq_left hi]
  refine ⟨?_, ⟨fun entry hentry => ?_, hs.down⟩⟩
  · have hstack := draft_stack_congr h (h.recolor index color) h.stack fun entry hentry =>
      place_congr (htake entry.2 (habove entry hentry).le)
    have hchars' : (h.recolor index color).chars = (h.cells.toList.take index).flatMap Cell.chars ++
        (Cell.chars ⟨b.openChar, some color⟩ ++ (h.cells.toList.drop (index + 1)).flatMap Cell.chars) := by
      rw [chars, hcells, List.flatMap_append, List.flatMap_cons]
    have hreplace : replaceByte? (h.place index) (Cell.chars ⟨b.openChar, some color⟩) h.chars =
        some (h.recolor index color).chars := by
      rw [chars_around hcell, hchars', place]
      exact replaceByte?_append b.utf8Size_openChar _ _ _
    have hsize : (h.recolor index color).cells.size = h.cells.size := Array.size_modify
    rw [Draft.recolor]
    refine (congrArg _ hreplace).trans ?_
    rw [Option.map_some]
    unfold draft
    rw [hsize]
    exact congrArg some (congrArg (Draft.mk _ _ _) hstack.symm)
  · have hlt := habove entry hentry
    rw [← hs.cell entry hentry, ← List.getElem?_take_of_lt (Nat.lt_succ_self entry.2), htake _ hlt,
      List.getElem?_take_of_lt (Nat.lt_succ_self entry.2)]

/-- What is left open when the innermost bracket is closed. -/
theorem Standing.rest {entry : Bracket × Nat} {rest : List (Bracket × Nat)} (hstack : h.stack = entry :: rest) :
    { h with stack := rest }.Standing ∧ (∀ below ∈ rest, below.2 < entry.2) ∧
      h.cells.toList[entry.2]? = some ⟨entry.1.openChar, none⟩ := by
  obtain ⟨hcell, hdown⟩ := hs
  rw [hstack] at hcell hdown
  obtain ⟨hbelow, hrest⟩ := List.pairwise_cons.mp hdown
  obtain ⟨hentry, hcells⟩ := List.forall_mem_cons.mp hcell
  exact ⟨⟨hcells, hrest⟩, hbelow, hentry⟩

/-- **The innermost bracket gets its color** after the closing one has been added. -/
theorem Standing.settle {entry : Bracket × Nat} {rest : List (Bracket × Nat)} (hstack : h.stack = entry :: rest)
    (c : Char) (color : Option Color) (opening : Color) :
    ({ h with stack := rest }.draft.put c color).recolor entry.1 (h.place entry.2) opening =
      some (({ h with stack := rest }.put c color).recolor entry.2 opening).draft ∧
    (({ h with stack := rest }.put c color).recolor entry.2 opening).Standing := by
  obtain ⟨hrest, hbelow, hcell⟩ := hs.rest hstack
  obtain ⟨hdraft, hput⟩ := hrest.put c color
  have hlt : entry.2 < h.cells.toList.length := (List.getElem?_eq_some_iff.mp hcell).1
  have hcells : ({ h with stack := rest }.put c color).cells.toList = h.cells.toList ++ [⟨c, color⟩] :=
    Array.toList_push
  have hcell' : ({ h with stack := rest }.put c color).cells.toList[entry.2]? = some ⟨entry.1.openChar, none⟩ := by
    rw [hcells, List.getElem?_append_left hlt, hcell]
  have hplace : ({ h with stack := rest }.put c color).place entry.2 = h.place entry.2 :=
    place_congr (by rw [hcells, List.take_append_of_le_length hlt.le])
  have hrecolor := hput.recolor hcell' hbelow opening
  rwa [hplace, hdraft] at hrecolor

/-- **A closing bracket** settles its own color and that of the bracket it closes. -/
theorem Standing.close (cursor : Option Nat) (b : Bracket) (c : Char) :
    h.draft.close cursor b c = some (h.close cursor b c).draft ∧ (h.close cursor b c).Standing := by
  unfold Draft.close Highlight.close
  cases hstack : h.stack with
  | nil =>
    have hempty : h.draft.stack = [] := congrArg (List.map _) hstack
    obtain ⟨hdraft, hput⟩ := hs.put c (some .red)
    rw [hempty]
    exact ⟨congrArg some hdraft.symm, hput⟩
  | cons entry rest =>
    obtain ⟨opened, index⟩ := entry
    have hpushed : h.draft.stack = (opened, h.place index, index) ::
        rest.map fun entry => (entry.1, h.place entry.2, entry.2) := congrArg (List.map _) hstack
    have hseen : h.draft.seen = h.cells.size := rfl
    have hrest := (hs.rest hstack).1
    rw [hpushed]
    dsimp only
    by_cases hfits : opened = b
    · rw [if_pos hfits, if_pos hfits]
      by_cases hlit : cursor = some index ∨ cursor = some h.cells.size
      · rw [if_pos hlit, hseen, if_pos hlit]
        exact hs.settle hstack c (some .blue) .boldBlue
      · rw [if_neg hlit, hseen, if_neg hlit]
        obtain ⟨hdraft, hput⟩ := hrest.put c none
        exact ⟨congrArg some hdraft.symm, hput⟩
    · rw [if_neg hfits, if_neg hfits]
      exact hs.settle hstack c (some .red) .boldRed

/-- **A character without a shade** is put, and it is settled if it is a bracket. -/
theorem Standing.bare (cursor : Option Nat) (c : Char) :
    h.draft.bare cursor c = some (h.bare cursor c).draft ∧ (h.bare cursor c).Standing := by
  unfold Draft.bare Highlight.bare
  cases hopen : Bracket.ofOpenChar? c with
  | some b =>
    obtain rfl := Bracket.ofOpenChar?_eq_some_iff.mp hopen
    obtain ⟨hdraft, hput⟩ := hs.opening b
    exact ⟨congrArg some hdraft.symm, hput⟩
  | none =>
    cases Bracket.ofCloseChar? c with
    | some b => exact hs.close cursor b c
    | none =>
      obtain ⟨hdraft, hput⟩ := hs.put c none
      exact ⟨congrArg some hdraft.symm, hput⟩

/-- **The cells go along with the draft.** -/
theorem Standing.step (cursor : Option Nat) (c : Char) :
    h.draft.step cursor c = some (h.step cursor c).draft ∧ (h.step cursor c).Standing := by
  have hmode : ∀ mode, { h with mode }.Standing := fun mode => ⟨hs.cell, hs.down⟩
  have hpass : h.draft.mode.pass c = h.mode.pass c := rfl
  unfold Draft.step
  rw [hpass, step_eq]
  obtain ⟨mode, shade⟩ := h.mode.pass c
  cases shade with
  | none => exact (hmode mode).bare cursor c
  | some color =>
    obtain ⟨hdraft, hput⟩ := (hmode mode).put c (some color)
    exact ⟨congrArg some hdraft.symm, hput⟩

end

theorem standing_start : start.Standing := ⟨List.forall_mem_nil _, .nil⟩

/-- **No step of a draft fails**, and it comes to what the cells come to. -/
theorem Standing.foldl {h : Highlight} (hs : h.Standing) (cursor : Option Nat) (cs : List Char) :
    cs.foldlM (Draft.step cursor) h.draft = some (cs.foldl (Highlight.step cursor) h).draft ∧
      (cs.foldl (Highlight.step cursor) h).Standing := by
  induction cs generalizing h with
  | nil => exact ⟨rfl, hs⟩
  | cons c cs ih =>
    obtain ⟨hdraft, hstep⟩ := hs.step cursor c
    obtain ⟨hrest, hstanding⟩ := ih hstep
    refine ⟨?_, hstanding⟩
    rw [List.foldlM_cons, hdraft]
    exact hrest

theorem line_draft (cursor : Option Nat) (cs : List Char) :
    Draft.line cursor cs = some (line cursor cs).draft ∧ (line cursor cs).Standing :=
  standing_start.foldl cursor cs

theorem map_char_line (cursor : Option Nat) (cs : List Char) : (line cursor cs).cells.toList.map Cell.char = cs := by
  rw [toList_cells_line, map_char_paint, Mode.map_char_shaded]

end Highlight

/-! ### What is open in a draft -/

/-- **An open bracket is in place** in the draft of a text: at its offset it stands as one character of one byte, which
is shown plain behind the characters of the text before it, and overwriting this byte, also when the text goes on,
changes nothing else. -/
def Draft.InPlace (cs : List Char) (d : Draft) (b : Bracket) (place index : Nat) : Prop :=
  cs[index]? = some b.openChar ∧ ∃ left right, d.text = left ++ b.openChar :: right ∧ byteLength left = place ∧
    withoutColors left = cs.take index ∧
    displayed plainStyle d.text =
      displayed plainStyle left ++ (b.openChar, plainStyle) :: displayed plainStyle right ∧
    ∀ new more, replaceByte? place new (d.text ++ more) = some (left ++ (new ++ (right ++ more)))

theorem Highlight.Standing.inPlace {h : Highlight} (hs : h.Standing) {cs : List Char}
    (hcs : h.cells.toList.map Cell.char <+: cs) (hesc : '\x1b' ∉ cs) :
    ∀ entry ∈ h.draft.stack, h.draft.InPlace cs entry.1 entry.2.1 entry.2.2 := by
  intro entry hentry
  obtain ⟨⟨b, index⟩, hopen, rfl⟩ := List.mem_map.mp hentry
  have hcell := hs.cell _ hopen
  dsimp only at hcell ⊢
  have hindex : index < h.cells.toList.length := (List.getElem?_eq_some_iff.mp hcell).1
  have hchar : ∀ cell ∈ h.cells.toList, cell.char ≠ '\x1b' := by
    intro cell hcell heq
    exact hesc (heq ▸ hcs.subset (List.mem_map_of_mem hcell))
  have hbefore : ∀ cell ∈ h.cells.toList.take index, cell.char ≠ '\x1b' :=
    fun cell hcell => hchar cell (List.mem_of_mem_take hcell)
  obtain ⟨rest, rfl⟩ := hcs
  have htext : h.draft.text = (h.cells.toList.take index).flatMap Cell.chars ++
      b.openChar :: (h.cells.toList.drop (index + 1)).flatMap Cell.chars := chars_around hcell
  refine ⟨?_, _, _, htext, rfl, ?_, ?_, fun new more => ?_⟩
  · rw [List.getElem?_append_left (by rwa [List.length_map]), List.getElem?_map, hcell]
    rfl
  · rw [withoutColors_flatMap hbefore, List.take_append_of_le_length (by rw [List.length_map]; exact hindex.le),
      List.map_take]
  · have hplain : displayed plainStyle (b.openChar :: (h.cells.toList.drop (index + 1)).flatMap Cell.chars) =
        (b.openChar, plainStyle) :: displayed plainStyle ((h.cells.toList.drop (index + 1)).flatMap Cell.chars) :=
      displayed_char (by cases b <;> decide) plainStyle _
    rw [htext, displayed_cells hbefore, displayed_flatMap hbefore, hplain]
  · rw [htext, List.append_assoc, List.cons_append]
    exact replaceByte?_append b.utf8Size_openChar _ new _

/-- **Highlighting in place is right.** A line without escape characters is shown as itself when it is highlighted,
wherever the cursor stands. The scan that overwrites brackets in one text comes to the same text without failing, and
at every point of it each open bracket is in place. -/
theorem highlight_in_place {line : String} (hline : '\x1b' ∉ line.toList) (pos : Nat) :
    withoutColors (highlight line pos).toList = line.toList ∧
    (∃ d, Draft.line (cursorAt pos) line.toList = some d ∧ (highlight line pos).toList = d.text) ∧
    ∀ before after, line.toList = before ++ after → ∃ d, Draft.line (cursorAt pos) before = some d ∧
      ∀ entry ∈ d.stack, d.InPlace line.toList entry.1 entry.2.1 entry.2.2 := by
  have htext : (highlight line pos).toList = (Highlight.line (cursorAt pos) line.toList).chars := String.toList_ofList
  refine ⟨?_, ⟨_, (Highlight.line_draft _ _).1, htext⟩, fun before after hsplit => ?_⟩
  · have hchars := Highlight.map_char_line (cursorAt pos) line.toList
    rw [htext, Highlight.chars, withoutColors_flatMap, hchars]
    intro cell hcell heq
    refine hline ?_
    rw [← hchars, ← heq]
    exact List.mem_map_of_mem hcell
  · obtain ⟨hdraft, hstanding⟩ := Highlight.line_draft (cursorAt pos) before
    refine ⟨_, hdraft, hstanding.inPlace ?_ hline⟩
    rw [Highlight.map_char_line, hsplit]
    exact List.prefix_append before after

/-- A bracket of the wrong kind colors the one before it, between two that stay open. -/
theorem highlight_in_place_wrong : '\x1b' ∉ "é([x) (".toList ∧
    withoutColors (highlight "é([x) (" 2).toList = "é([x) (".toList ∧
    ∃ d, Draft.line (cursorAt 2) "é([x) (".toList = some d ∧ d.stack = [(.round, 27, 6), (.round, 2, 1)] ∧
      ∀ entry ∈ d.stack, d.InPlace "é([x) (".toList entry.1 entry.2.1 entry.2.2 := by
  have hline : '\x1b' ∉ "é([x) (".toList := by decide
  obtain ⟨hshown, -, hopen⟩ := highlight_in_place hline 2
  obtain ⟨d, hd, hplace⟩ := hopen _ [] (List.append_nil _).symm
  have hstack : (Draft.line (cursorAt 2) "é([x) (".toList).map Draft.stack =
      some [(.round, 27, 6), (.round, 2, 1)] := by cbv
  rw [hd] at hstack
  exact ⟨hline, hshown, d, hd, Option.some.inj hstack, hplace⟩

end MusicLisp
