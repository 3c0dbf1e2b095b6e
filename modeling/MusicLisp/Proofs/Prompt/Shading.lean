import MusicLisp.Prompt.Highlight

/-!
# Shades and painted brackets

A line is colored in two layers. The characters of comments, strings and keywords are shaded, whatever brackets stand
around them. The brackets among the other characters are marks, and what is painted on them is settled by going
through the marks alone, with a stack of those still open.

* `Mode.shaded`: a text in its shades; the shade of a character depends on the mode before it only.
* `Mark`, `settle`: the marks of a text, and what they paint.
* `shown_eq`: **the cells of a line** are its characters in their shades, with the brackets painted.
* `shown_cases`: a cell has its shade, or it is a bracket without a shade in a color for brackets.
-/

namespace MusicLisp

/-! ### Shades -/

namespace Mode

/-- The mode after a character that goes on with nothing, and its shade. -/
def enter (c : Char) : Mode × Option Color :=
  if c = '"' then (.string false, some .green)
  else if c = ':' then (.keyword, some .yellow)
  else if c = ';' then (.comment, some .gray)
  else (.plain, none)

/-- The mode after a character, and its shade. -/
def pass : Mode → Char → Mode × Option Color
  | .comment, _ => (.comment, some .gray)
  | .string true, _ => (.string false, some .green)
  | .string false, c =>
    (if c = '\\' then .string true else if c = '"' then .plain else .string false, some .green)
  | .keyword, c => if Lexeme.isSymbolChar c then (.keyword, some .yellow) else enter c
  | .plain, c => enter c

/-- **A text in its shades.** -/
def shaded : Mode → List Char → List Cell
  | _, [] => []
  | mode, c :: cs => ⟨c, (mode.pass c).2⟩ :: (mode.pass c).1.shaded cs

/-- The shade of a character is that of a string, a keyword or a comment. -/
theorem eq_of_pass {mode : Mode} {c : Char} {color : Color} (h : (mode.pass c).2 = some color) :
    color = .green ∨ color = .yellow ∨ color = .gray := by
  unfold pass enter at h
  split at h <;> (repeat' split at h) <;> cases h <;> simp

theorem eq_of_shaded {mode : Mode} {cs : List Char} {i : Nat} {cell : Cell} (h : (mode.shaded cs)[i]? = some cell)
    {color : Color} (hcolor : cell.color = some color) : color = .green ∨ color = .yellow ∨ color = .gray := by
  induction cs generalizing mode i with
  | nil => cases h
  | cons c cs ih =>
    cases i with
    | zero =>
      obtain rfl := Option.some.inj h
      exact eq_of_pass hcolor
    | succ i => exact ih h

@[simp] theorem map_char_shaded (mode : Mode) (cs : List Char) : (mode.shaded cs).map Cell.char = cs := by
  induction cs generalizing mode with
  | nil => rfl
  | cons c cs ih => rw [shaded, List.map_cons, ih]

@[simp] theorem length_shaded (mode : Mode) (cs : List Char) : (mode.shaded cs).length = cs.length := by
  rw [← List.length_map Cell.char, map_char_shaded]

end Mode

/-! ### Marks -/

/-- **A bracket that counts**, at its place. -/
inductive Mark (ι : Type) where
  | opening (b : Bracket) (place : ι)
  | closing (b : Bracket) (place : ι)

namespace Mark

variable {ι κ : Type}

/-- Where a mark stands. -/
def place : Mark ι → ι
  | opening _ place => place
  | closing _ place => place

/-- A mark at another place. -/
def map (f : ι → κ) : Mark ι → Mark κ
  | opening b place => opening b (f place)
  | closing b place => closing b (f place)

/-- The mark that a character is. -/
def ofChar? (place : ι) (c : Char) : Option (Mark ι) :=
  match Bracket.ofOpenChar? c, Bracket.ofCloseChar? c with
  | some b, _ => some (opening b place)
  | none, some b => some (closing b place)
  | none, none => none

theorem place_of_ofChar? {place : ι} {c : Char} {m : Mark ι} (h : ofChar? place c = some m) : m.place = place := by
  unfold ofChar? at h
  split at h <;> cases h <;> rfl

end Mark

/-- The mark that a cell is: a bracket without a shade. -/
def Cell.mark? (place : Nat) (cell : Cell) : Option (Mark Nat) :=
  if cell.color = none then Mark.ofChar? place cell.char else none

theorem Cell.place_of_mark? {place : Nat} {cell : Cell} {m : Mark Nat} (h : cell.mark? place = some m) :
    m.place = place := by
  unfold mark? at h
  split at h
  · exact Mark.place_of_ofChar? h
  · cases h

/-- **The marks of cells**, the first of which has the given place. -/
def marks (place : Nat) : List Cell → List (Mark Nat)
  | [] => []
  | cell :: cells => (cell.mark? place).toList ++ marks (place + 1) cells

theorem marks_append (place : Nat) (a b : List Cell) : marks place (a ++ b) = marks place a ++ marks (place + a.length) b := by
  induction a generalizing place with
  | nil => rfl
  | cons cell a ih =>
    rw [List.cons_append, marks, ih, marks, List.append_assoc, List.length_cons, Nat.add_assoc, Nat.add_comm 1]

/-- A mark stands where there is a bracket without a shade. -/
theorem mem_marks {place : Nat} {cells : List Cell} {m : Mark Nat} (h : m ∈ marks place cells) :
    ∃ i cell, m.place = place + i ∧ cells[i]? = some cell ∧ cell.color = none ∧
      Mark.ofChar? m.place cell.char = some m := by
  induction cells generalizing place with
  | nil => cases h
  | cons cell cells ih =>
    obtain h | h := List.mem_append.mp h
    · have hmark := Option.mem_toList.mp h
      have hplace := Cell.place_of_mark? hmark
      unfold Cell.mark? at hmark
      split at hmark
      · next hcolor => exact ⟨0, cell, hplace, rfl, hcolor, by rw [hplace, hmark]⟩
      · cases hmark
    · obtain ⟨i, cell', hplace, hcell, hcolor⟩ := ih h
      exact ⟨i + 1, cell', by omega, hcell, hcolor⟩

/-! ### What is painted -/

/-- **The colors of brackets.** -/
inductive Color.ForBracket : Color → Prop
  | blue : ForBracket .blue
  | boldBlue : ForBracket .boldBlue
  | red : ForBracket .red
  | boldRed : ForBracket .boldRed

/-- The colors of a pair of brackets that fit: they are lit if the cursor is on one of them. -/
def lit (cursor : Option Nat) (pair : Nat × Nat) : List (Nat × Color) :=
  if cursor = some pair.1 ∨ cursor = some pair.2 then [(pair.2, .blue), (pair.1, .boldBlue)] else []

/-- What a mark does to the open brackets, and what it paints. -/
def Mark.settle (cursor : Option Nat) (stack : List (Bracket × Nat)) :
    Mark Nat → List (Bracket × Nat) × List (Nat × Color)
  | .opening b place => ((b, place) :: stack, [])
  | .closing b place =>
    match stack with
    | [] => ([], [(place, .red)])
    | (opened, start) :: rest =>
      (rest, if opened = b then lit cursor (start, place) else [(place, .red), (start, .boldRed)])

/-- **What marks leave open, and what they paint.** -/
def settle (cursor : Option Nat) (stack : List (Bracket × Nat)) :
    List (Mark Nat) → List (Bracket × Nat) × List (Nat × Color)
  | [] => (stack, [])
  | m :: ms =>
    let settled := settle cursor (m.settle cursor stack).1 ms
    (settled.1, (m.settle cursor stack).2 ++ settled.2)

theorem settle_append (cursor : Option Nat) (stack : List (Bracket × Nat)) (ms ns : List (Mark Nat)) :
    settle cursor stack (ms ++ ns) = ((settle cursor (settle cursor stack ms).1 ns).1,
      (settle cursor stack ms).2 ++ (settle cursor (settle cursor stack ms).1 ns).2) := by
  induction ms generalizing stack with
  | nil => rfl
  | cons m ms ih =>
    rw [List.cons_append, settle, ih, settle]
    dsimp only
    rw [List.append_assoc]

section

variable (cursor : Option Nat) {P : Nat → Prop} {stack : List (Bracket × Nat)}

theorem Mark.forall_settle (hstack : ∀ entry ∈ stack, P entry.2) {m : Mark Nat} (hm : P m.place) :
    (∀ entry ∈ (m.settle cursor stack).1, P entry.2) ∧
      ∀ p ∈ (m.settle cursor stack).2, P p.1 ∧ p.2.ForBracket := by
  cases m with
  | opening b place => exact ⟨List.forall_mem_cons.mpr ⟨hm, hstack⟩, List.forall_mem_nil _⟩
  | closing b place =>
    cases stack with
    | nil => exact ⟨List.forall_mem_nil _, List.forall_mem_singleton.mpr ⟨hm, .red⟩⟩
    | cons entry rest =>
      obtain ⟨hentry, hrest⟩ := List.forall_mem_cons.mp hstack
      refine ⟨hrest, ?_⟩
      unfold settle lit
      dsimp only
      split
      · split
        · exact List.forall_mem_cons.mpr ⟨⟨hm, .blue⟩, List.forall_mem_singleton.mpr ⟨hentry, .boldBlue⟩⟩
        · exact List.forall_mem_nil _
      · exact List.forall_mem_cons.mpr ⟨⟨hm, .red⟩, List.forall_mem_singleton.mpr ⟨hentry, .boldRed⟩⟩

/-- What is left open and what is painted was open before or is a mark. -/
theorem forall_settle (hstack : ∀ entry ∈ stack, P entry.2) {ms : List (Mark Nat)} (hms : ∀ m ∈ ms, P m.place) :
    (∀ entry ∈ (settle cursor stack ms).1, P entry.2) ∧
      ∀ p ∈ (settle cursor stack ms).2, P p.1 ∧ p.2.ForBracket := by
  induction ms generalizing stack with
  | nil => exact ⟨hstack, List.forall_mem_nil _⟩
  | cons m ms ih =>
    obtain ⟨hm, hms⟩ := List.forall_mem_cons.mp hms
    obtain ⟨hopen, hpaints⟩ := Mark.forall_settle cursor hstack hm
    obtain ⟨hopen', hpaints'⟩ := ih hopen hms
    exact ⟨hopen', List.forall_mem_append.mpr ⟨hpaints, hpaints'⟩⟩

end

/-- A cell in a color. -/
def Cell.painted (color : Color) (cell : Cell) : Cell := { cell with color := some color }

/-- **Paints cells**, a later color over an earlier one. -/
def paint (ps : List (Nat × Color)) (cells : List Cell) : List Cell :=
  ps.foldl (fun cells p => cells.modify p.1 (Cell.painted p.2)) cells

section

variable {ps : List (Nat × Color)} {cells : List Cell}

theorem paint_append (ps qs : List (Nat × Color)) (cells : List Cell) :
    paint (ps ++ qs) cells = paint qs (paint ps cells) :=
  List.foldl_append

theorem paint_cons (p : Nat × Color) (ps : List (Nat × Color)) (cells : List Cell) :
    paint (p :: ps) cells = paint ps (cells.modify p.1 (Cell.painted p.2)) :=
  rfl

@[simp] theorem length_paint : (paint ps cells).length = cells.length := by
  induction ps generalizing cells with
  | nil => rfl
  | cons p ps ih => rw [paint_cons, ih, List.length_modify]

theorem modify_append_of_lt {α : Type} {f : α → α} {xs : List α} {i : Nat} (h : i < xs.length) (ys : List α) :
    (xs ++ ys).modify i f = xs.modify i f ++ ys := by
  refine List.ext_getElem? fun j => ?_
  rw [List.getElem?_modify, List.getElem?_append, List.getElem?_append, List.length_modify, List.getElem?_modify]
  by_cases hj : j < xs.length
  · rw [if_pos hj, if_pos hj]
  · rw [if_neg hj, if_neg hj]
    cases ys[j - xs.length]? with
    | none => rfl
    | some y => exact congrArg some (if_neg (by omega))

/-- Cells behind those that are painted stay as they are. -/
theorem paint_left (hps : ∀ p ∈ ps, p.1 < cells.length) (more : List Cell) :
    paint ps (cells ++ more) = paint ps cells ++ more := by
  induction ps generalizing cells with
  | nil => rfl
  | cons p ps ih =>
    obtain ⟨hp, hps⟩ := List.forall_mem_cons.mp hps
    rw [paint_cons, paint_cons, modify_append_of_lt hp, ih (by rwa [List.length_modify])]

theorem modify_cases {j i : Nat} {color : Color} {cell : Cell}
    (h : (cells.modify j (Cell.painted color))[i]? = some cell) :
    j ≠ i ∧ cells[i]? = some cell ∨
      j = i ∧ cell.color = some color ∧ ∃ shade, cells[i]? = some ⟨cell.char, shade⟩ := by
  by_cases hji : j = i
  · subst hji
    rw [List.getElem?_modify_eq] at h
    obtain ⟨old, hold, rfl⟩ := Option.map_eq_some_iff.mp h
    exact .inr ⟨rfl, rfl, old.color, hold⟩
  · rw [List.getElem?_modify_ne _ _ hji] at h
    exact .inl ⟨hji, h⟩

/-- **A painted cell** has its color from the paint, or it is as it was. -/
theorem paint_cases {i : Nat} {cell : Cell} (h : (paint ps cells)[i]? = some cell) :
    (∀ p ∈ ps, p.1 ≠ i) ∧ cells[i]? = some cell ∨
      ∃ color, (i, color) ∈ ps ∧ cell.color = some color ∧ ∃ shade, cells[i]? = some ⟨cell.char, shade⟩ := by
  induction ps generalizing cells with
  | nil => exact .inl ⟨List.forall_mem_nil _, h⟩
  | cons p ps ih =>
    rw [paint_cons] at h
    obtain ⟨hne, hcell⟩ | ⟨color, hmem, hcolor, shade, hcell⟩ := ih h
    · obtain ⟨hp, hcell⟩ | ⟨rfl, hcolor, hchar⟩ := modify_cases hcell
      · exact .inl ⟨List.forall_mem_cons.mpr ⟨hp, hne⟩, hcell⟩
      · exact .inr ⟨p.2, List.mem_cons_self, hcolor, hchar⟩
    · have hchar : ∃ shade, cells[i]? = some ⟨cell.char, shade⟩ := by
        obtain ⟨-, hcell⟩ | ⟨-, -, hchar⟩ := modify_cases hcell
        · exact ⟨shade, hcell⟩
        · exact hchar
      exact .inr ⟨color, List.mem_cons_of_mem _ hmem, hcolor, hchar⟩

@[simp] theorem map_char_paint : (paint ps cells).map Cell.char = cells.map Cell.char := by
  refine List.ext_getElem? fun i => ?_
  rw [List.getElem?_map, List.getElem?_map]
  cases h : (paint ps cells)[i]? with
  | none =>
    rw [List.getElem?_eq_none_iff, length_paint] at h
    rw [List.getElem?_eq_none h]
  | some cell =>
    obtain ⟨-, hcell⟩ | ⟨-, -, -, shade, hcell⟩ := paint_cases h
    · rw [hcell]
    · rw [hcell]
      rfl

end

/-! ### The cells of a line -/

namespace Highlight

/-- What a character makes of a line: it is shaded, and its mark is settled. -/
structure Adds (cursor : Option Nat) (h : Highlight) (c : Char) (shade : Mode × Option Color) (h' : Highlight) : Prop where
  mode : h'.mode = shade.1
  stack : h'.stack = (settle cursor h.stack (marks h.cells.size [⟨c, shade.2⟩])).1
  cells : h'.cells.toList = paint (settle cursor h.stack (marks h.cells.size [⟨c, shade.2⟩])).2
    (h.cells.toList ++ [⟨c, shade.2⟩])

theorem adds_put (cursor : Option Nat) (h : Highlight) (c : Char) (mode : Mode) (color : Color) :
    Adds cursor h c (mode, some color) ({ h with mode }.put c (some color)) where
  mode := rfl
  stack := rfl
  cells := Array.toList_push

theorem paint_push (cells : Array Cell) (c : Char) (shade : Option Color) (color : Color) (ps : List (Nat × Color)) :
    paint ((cells.size, color) :: ps) (cells.toList ++ [⟨c, shade⟩]) = paint ps (cells.push ⟨c, some color⟩).toList := by
  have hdrop : (cells.toList ++ [Cell.mk c shade]).drop (cells.size + 1) = [] :=
    List.drop_eq_nil_of_le (by rw [List.length_append]; exact Nat.le_refl _)
  rw [paint_cons, Array.toList_push, List.modify_eq_take_cons_drop (by simp), hdrop]
  simp [Cell.painted]

theorem marks_bracket {place : Nat} {c : Char} {m : Mark Nat} (h : Mark.ofChar? place c = some m) :
    marks place [⟨c, none⟩] = [m] := by
  simp [marks, Cell.mark?, h]

theorem settle_singleton (cursor : Option Nat) (stack : List (Bracket × Nat)) (m : Mark Nat) :
    settle cursor stack [m] = m.settle cursor stack :=
  Prod.ext rfl (List.append_nil _)

theorem adds_close (cursor : Option Nat) (h : Highlight) {c : Char} {b : Bracket} (hopen : Bracket.ofOpenChar? c = none)
    (hclose : Bracket.ofCloseChar? c = some b) :
    Adds cursor h c (.plain, none) ({ h with mode := .plain }.close cursor b c) := by
  have hmarks : marks h.cells.size [⟨c, none⟩] = [.closing b h.cells.size] :=
    marks_bracket (by rw [Mark.ofChar?, hopen, hclose])
  obtain ⟨mode, cells, stack⟩ := h
  unfold close
  dsimp only
  cases stack with
  | nil =>
    refine ⟨rfl, ?_, ?_⟩ <;> rw [hmarks, settle_singleton]
    · rfl
    · exact (paint_push cells c none .red []).symm
  | cons entry rest =>
    obtain ⟨opened, start⟩ := entry
    dsimp only
    split
    · next hfits =>
      split
      · next hlit =>
        refine ⟨rfl, ?_, ?_⟩ <;> rw [hmarks, settle_singleton, Mark.settle] <;> dsimp only
        · rfl
        · rw [if_pos hfits, lit, if_pos hlit, paint_push]
          exact Array.toList_modify
      · next hlit =>
        refine ⟨rfl, ?_, ?_⟩ <;> rw [hmarks, settle_singleton, Mark.settle] <;> dsimp only
        · rfl
        · rw [if_pos hfits, lit, if_neg hlit]
          exact Array.toList_push
    · next hfits =>
      refine ⟨rfl, ?_, ?_⟩ <;> rw [hmarks, settle_singleton, Mark.settle] <;> dsimp only
      · rfl
      · rw [if_neg hfits, paint_push]
        exact Array.toList_modify

theorem adds_plain (cursor : Option Nat) (h : Highlight) (c : Char) : Adds cursor h c (Mode.enter c) (h.plain cursor c) := by
  unfold plain Mode.enter
  split
  · exact adds_put cursor h c _ .green
  split
  · exact adds_put cursor h c _ .yellow
  split
  · exact adds_put cursor h c _ .gray
  dsimp only
  cases hopen : Bracket.ofOpenChar? c with
  | some b =>
    have hmarks : marks h.cells.size [⟨c, none⟩] = [.opening b h.cells.size] :=
      marks_bracket (by rw [Mark.ofChar?, hopen])
    refine ⟨rfl, ?_, ?_⟩ <;> rw [hmarks, settle_singleton]
    · rfl
    · exact Array.toList_push
  | none =>
    cases hclose : Bracket.ofCloseChar? c with
    | some b => exact adds_close cursor h hopen hclose
    | none =>
      have hmarks : marks h.cells.size [⟨c, none⟩] = [] := by
        simp [marks, Cell.mark?, Mark.ofChar?, hopen, hclose]
      refine ⟨rfl, ?_, ?_⟩ <;> rw [hmarks]
      · rfl
      · exact Array.toList_push

/-- **A step shades its character** and settles its mark. -/
theorem adds_step (cursor : Option Nat) (h : Highlight) (c : Char) : Adds cursor h c (h.mode.pass c) (h.step cursor c) := by
  obtain ⟨mode, cells, stack⟩ := h
  cases mode with
  | comment => exact adds_put cursor _ c .comment .gray
  | string escaped =>
    cases escaped with
    | true => exact adds_put cursor _ c (.string false) .green
    | false =>
      unfold step Mode.pass
      dsimp only
      split
      · exact adds_put cursor _ c (.string true) .green
      split
      · exact adds_put cursor _ c .plain .green
      · exact adds_put cursor _ c (.string false) .green
  | keyword =>
    unfold step Mode.pass
    dsimp only
    split
    · exact adds_put cursor _ c .keyword .yellow
    · exact adds_plain cursor _ c
  | plain => exact adds_plain cursor _ c

/-- What is open stands in the line. -/
def Bounded (h : Highlight) : Prop := ∀ entry ∈ h.stack, entry.2 < h.cells.size

theorem toList_cells_foldl (cursor : Option Nat) {h : Highlight} (hbounded : h.Bounded) (cs : List Char) :
    (cs.foldl (step cursor) h).cells.toList =
      paint (settle cursor h.stack (marks h.cells.size (h.mode.shaded cs))).2 (h.cells.toList ++ h.mode.shaded cs) := by
  induction cs generalizing h with
  | nil => exact (List.append_nil _).symm
  | cons c cs ih =>
    obtain ⟨hmode, hstack, hcells⟩ := adds_step cursor h c
    have hsize : (h.step cursor c).cells.size = h.cells.size + 1 := by
      rw [← Array.length_toList, hcells, length_paint, List.length_append]
      rfl
    have hmarks : ∀ m ∈ marks h.cells.size [⟨c, (h.mode.pass c).2⟩], m.place < h.cells.size + 1 := by
      intro m hm
      obtain ⟨i, cell, hplace, hcell, -⟩ := mem_marks hm
      have hi := (List.getElem?_eq_some_iff.mp hcell).1
      rw [List.length_singleton] at hi
      omega
    obtain ⟨hopen, hpaints⟩ := forall_settle cursor (P := (· < h.cells.size + 1))
      (fun entry hentry => Nat.lt_succ_of_lt (hbounded entry hentry)) hmarks
    have hbounded' : (h.step cursor c).Bounded := by
      unfold Bounded
      rwa [hstack, hsize]
    have hsplit : h.mode.shaded (c :: cs) = [⟨c, (h.mode.pass c).2⟩] ++ (h.step cursor c).mode.shaded cs := by
      rw [hmode]
      rfl
    have hinside : ∀ p ∈ (settle cursor h.stack (marks h.cells.size [⟨c, (h.mode.pass c).2⟩])).2,
        p.1 < (h.cells.toList ++ [Cell.mk c (h.mode.pass c).2]).length := fun p hp => by
      rw [List.length_append]
      exact (hpaints p hp).1
    rw [List.foldl_cons, ih hbounded', hsplit, marks_append, settle_append, paint_append, ← List.append_assoc,
      paint_left hinside, hstack, hcells, hsize]
    rfl

theorem toList_cells_line (cursor : Option Nat) (cs : List Char) :
    (line cursor cs).cells.toList = paint (settle cursor [] (marks 0 (Mode.plain.shaded cs))).2 (Mode.plain.shaded cs) :=
  toList_cells_foldl cursor (h := start) (List.forall_mem_nil _) cs

end Highlight

/-- The cells of a line with the cursor at `pos`. -/
def shown (line : String) (pos : Nat) : List Cell := (Highlight.line (cursorAt pos) line.toList).cells.toList

section

variable (line : String) (pos : Nat)

/-- **The cells of a line** are its characters in their shades, with the brackets painted. -/
theorem shown_eq : shown line pos =
    paint (settle (cursorAt pos) [] (marks 0 (Mode.plain.shaded line.toList))).2 (Mode.plain.shaded line.toList) :=
  Highlight.toList_cells_line _ _

theorem map_char_shown : (shown line pos).map Cell.char = line.toList := by
  rw [shown_eq, map_char_paint, Mode.map_char_shaded]

variable {line pos}

/-- **A cell has its shade**, or it is a bracket without a shade in a color for brackets. -/
theorem shown_cases {i : Nat} {cell : Cell} (h : (shown line pos)[i]? = some cell) :
    (Mode.plain.shaded line.toList)[i]? = some cell ∨
      (Mode.plain.shaded line.toList)[i]? = some ⟨cell.char, none⟩ ∧ (∃ m, Mark.ofChar? i cell.char = some m) ∧
        ∃ color, cell.color = some color ∧ color.ForBracket := by
  rw [shown_eq] at h
  obtain ⟨-, hcell⟩ | ⟨color, hmem, hcolor, shade, hcell⟩ := paint_cases h
  · exact .inl hcell
  · have hmarks : ∀ m ∈ marks 0 (Mode.plain.shaded line.toList), ∃ cell m',
        (Mode.plain.shaded line.toList)[m.place]? = some cell ∧ cell.color = none ∧
          Mark.ofChar? m.place cell.char = some m' := by
      intro m hm
      obtain ⟨j, cell, hplace, hcell, hshade, hmark⟩ := mem_marks hm
      rw [Nat.zero_add] at hplace
      exact ⟨cell, m, hplace ▸ hcell, hshade, hmark⟩
    obtain ⟨-, hpaints⟩ := forall_settle (cursorAt pos) (P := fun i => ∃ cell m,
      (Mode.plain.shaded line.toList)[i]? = some cell ∧ cell.color = none ∧ Mark.ofChar? i cell.char = some m)
      (List.forall_mem_nil _) hmarks
    obtain ⟨⟨old, m, hold, hshade, hmark⟩, hbracket⟩ := hpaints _ hmem
    obtain rfl := Option.some.inj (hold.symm.trans hcell)
    obtain rfl : shade = none := hshade
    exact .inr ⟨hcell, ⟨m, hmark⟩, color, hcolor, hbracket⟩

end

end MusicLisp
