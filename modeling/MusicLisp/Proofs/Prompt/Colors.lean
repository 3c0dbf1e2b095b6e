import MusicLisp.Prompt.Highlight
import MusicLisp.Proofs.Number.Text

/-!
# What a terminal shows of a text in colors

A terminal takes color sequences out of a text, and shows the other characters in the style of the sequence before
them. A color sequence is an escape character and an opening bracket, parameters, and the letter `m`.

* `displayed`, `withoutColors`: **what is shown**, with the styles and without them.
* `displayed_cells`: cells are shown as their characters in their colors, plain if they have none. Each cell ends the
  color that it begins, so that this holds of every cell by itself.
-/

namespace MusicLisp

/-- The characters of the parameters of a color sequence. -/
def isParameter (c : Char) : Bool := c.isDigit || c = ';'

/-- **The color sequence** at the front of a text: its parameters, and the text after it. -/
def sequence? : List Char → Option (List Char × List Char)
  | '\x1b' :: '[' :: r =>
    match r.dropWhile isParameter with
    | 'm' :: rest => some (r.takeWhile isParameter, rest)
    | _ => none
  | _ => none

theorem length_of_sequence? {cs params rest : List Char} (h : sequence? cs = some (params, rest)) :
    rest.length < cs.length := by
  unfold sequence? at h
  split at h
  · next r =>
    split at h
    · next rest' hdrop =>
      cases h
      have hle := (List.dropWhile_suffix (l := r) isParameter).length_le
      rw [hdrop, List.length_cons] at hle
      rw [List.length_cons, List.length_cons]
      omega
    · cases h
  · cases h

/-- The style of characters without a color: the parameters of the sequence that ends all colors. -/
def plainStyle : List Char := ['0']

/-- **What a terminal shows of a text**, from a style on: its characters without the color sequences, each in the
style that it is shown in. -/
def displayed (style cs : List Char) : List (Char × List Char) :=
  match cs with
  | [] => []
  | c :: r =>
    match _h : sequence? (c :: r) with
    | some (params, rest) => displayed params rest
    | none => (c, style) :: displayed style r
termination_by cs.length
decreasing_by
  · exact length_of_sequence? _h
  · exact Nat.lt_succ_self _

/-- **A text without its color sequences.** -/
def withoutColors (cs : List Char) : List Char := (displayed plainStyle cs).map Prod.fst

theorem sequence?_params {params : List Char} (h : ∀ c ∈ params, isParameter c = true) (rest : List Char) :
    sequence? ('\x1b' :: '[' :: (params ++ 'm' :: rest)) = some (params, rest) := by
  have hstop : Stops isParameter ('m' :: rest) := by rintro c ⟨⟩; rfl
  rw [sequence?, dropWhile_run h hstop, takeWhile_run h hstop]
  rfl

theorem displayed_sequence {params : List Char} (h : ∀ c ∈ params, isParameter c = true) (style rest : List Char) :
    displayed style ('\x1b' :: '[' :: (params ++ 'm' :: rest)) = displayed params rest := by
  have hsequence := sequence?_params h rest
  rw [displayed]
  split
  · next hsome =>
    rw [hsequence] at hsome
    cases hsome
    rfl
  · next hnone =>
    rw [hsequence] at hnone
    cases hnone

theorem displayed_char {c : Char} (hc : c ≠ '\x1b') (style r : List Char) :
    displayed style (c :: r) = (c, style) :: displayed style r := by
  have hsequence : sequence? (c :: r) = none := by
    unfold sequence?
    split
    · next heq => exact absurd (List.cons.inj heq).1 hc
    · rfl
  rw [displayed]
  split
  · next hsome =>
    rw [hsequence] at hsome
    cases hsome
  · rfl

/-- The style that a cell is shown in. -/
def Cell.style (cell : Cell) : List Char :=
  match cell.color with
  | none => plainStyle
  | some color => color.code.toList

theorem Color.isParameter_of_mem_code {color : Color} : ∀ c ∈ color.code.toList, isParameter c = true := by
  cases color <;> exact List.all_eq_true.mp rfl

/-- **A cell is shown** as its character in its style, and what comes after it is shown as if it came first. -/
theorem displayed_cell {cell : Cell} (h : cell.char ≠ '\x1b') (rest : List Char) :
    displayed plainStyle (cell.chars ++ rest) = (cell.char, cell.style) :: displayed plainStyle rest := by
  obtain ⟨c, color⟩ := cell
  cases color with
  | none => exact displayed_char h plainStyle rest
  | some color =>
    have hchars : (Cell.mk c (some color)).chars ++ rest =
        '\x1b' :: '[' :: (color.code.toList ++ 'm' :: (c :: '\x1b' :: '[' :: (plainStyle ++ 'm' :: rest))) := by
      cases color <;> rfl
    rw [hchars, displayed_sequence Color.isParameter_of_mem_code, displayed_char h,
      displayed_sequence (List.all_eq_true.mp rfl)]
    rfl

/-- **Cells are shown** as their characters in their styles. -/
theorem displayed_cells {cells : List Cell} (h : ∀ cell ∈ cells, cell.char ≠ '\x1b') (rest : List Char) :
    displayed plainStyle (cells.flatMap Cell.chars ++ rest) =
      cells.map (fun cell => (cell.char, cell.style)) ++ displayed plainStyle rest := by
  induction cells with
  | nil => rfl
  | cons cell cells ih =>
    obtain ⟨hcell, hcells⟩ := List.forall_mem_cons.mp h
    rw [List.flatMap_cons, List.append_assoc, displayed_cell hcell, ih hcells]
    rfl

theorem displayed_flatMap {cells : List Cell} (h : ∀ cell ∈ cells, cell.char ≠ '\x1b') :
    displayed plainStyle (cells.flatMap Cell.chars) = cells.map fun cell => (cell.char, cell.style) := by
  have hcells := displayed_cells h []
  rwa [List.append_nil, displayed, List.append_nil] at hcells

theorem withoutColors_flatMap {cells : List Cell} (h : ∀ cell ∈ cells, cell.char ≠ '\x1b') :
    withoutColors (cells.flatMap Cell.chars) = cells.map Cell.char := by
  rw [withoutColors, displayed_flatMap h, List.map_map]
  rfl

end MusicLisp
