import MusicLisp.Token.Piece

/-!
# Highlighting a line

A line typed at the prompt is shown in colors: comments gray, strings green, keywords yellow, brackets
without a partner or with the wrong one red, and the pair of brackets at the cursor blue.

The line is gone through once, character by character. Each character becomes a cell; the brackets still
open are kept on a stack with the index of their cell, which is also their index in the line. A closing
bracket settles its own color and that of the bracket it closes.

* `Highlight.line`: the cells hold the characters of the line; only the colors depend on the cursor.
-/

namespace MusicLisp

/-- The colors of a shown line. -/
inductive Color where
  | gray | green | yellow | blue | boldBlue | red | boldRed
deriving DecidableEq, Repr, Inhabited

/-- The terminal's number for a color. -/
def Color.code : Color → String
  | gray => "90"
  | green => "32"
  | yellow => "33"
  | blue => "34"
  | boldBlue => "1;34"
  | red => "31"
  | boldRed => "1;31"

/-- A character of a shown line. -/
structure Cell where
  char : Char
  color : Option Color
deriving DecidableEq, Repr, Inhabited

/-- A cell as it is sent to the terminal. -/
def Cell.chars (cell : Cell) : List Char :=
  match cell.color with
  | none => [cell.char]
  | some color => ("\x1b[" ++ color.code ++ "m").toList ++ cell.char :: "\x1b[0m".toList

/-- What the character before was part of. -/
inductive Mode where
  | plain
  | comment
  | string (escaped : Bool)
  | keyword
deriving DecidableEq, Repr, Inhabited

/-- How far a line has been gone through: its cells, and the open brackets, the innermost first. -/
structure Highlight where
  mode : Mode
  cells : Array Cell
  stack : List (Bracket × Nat)
deriving Repr, Inhabited

namespace Highlight

/-- Before the first character. -/
def start : Highlight := ⟨.plain, #[], []⟩

/-- Adds a character in a color. -/
def put (h : Highlight) (c : Char) (color : Option Color) : Highlight :=
  { h with cells := h.cells.push ⟨c, color⟩ }

/-- Changes the color of a cell. -/
def recolor (h : Highlight) (index : Nat) (color : Color) : Highlight :=
  { h with cells := h.cells.modify index fun cell => { cell with color := some color } }

/-- A closing bracket. -/
def close (cursor : Option Nat) (h : Highlight) (b : Bracket) (c : Char) : Highlight :=
  match h.stack with
  | [] => h.put c (some .red)
  | (opened, index) :: rest =>
    let h := { h with stack := rest }
    if opened = b then
      if cursor = some index ∨ cursor = some h.cells.size then
        (h.put c (some .blue)).recolor index .boldBlue
      else h.put c none
    else (h.put c (some .red)).recolor index .boldRed

/-- A character that is not inside a comment, a string or a keyword. -/
def plain (cursor : Option Nat) (h : Highlight) (c : Char) : Highlight :=
  if c = '"' then { h with mode := .string false }.put c (some .green)
  else if c = ':' then { h with mode := .keyword }.put c (some .yellow)
  else if c = ';' then { h with mode := .comment }.put c (some .gray)
  else
    let h := { h with mode := .plain }
    match Bracket.ofOpenChar? c, Bracket.ofCloseChar? c with
    | some b, _ => { h with stack := (b, h.cells.size) :: h.stack }.put c none
    | none, some b => h.close cursor b c
    | none, none => h.put c none

/-- The next character. -/
def step (cursor : Option Nat) (h : Highlight) (c : Char) : Highlight :=
  match h.mode with
  | .comment => h.put c (some .gray)
  | .string true => { h with mode := .string false }.put c (some .green)
  | .string false =>
    if c = '\\' then { h with mode := .string true }.put c (some .green)
    else if c = '"' then { h with mode := .plain }.put c (some .green)
    else h.put c (some .green)
  | .keyword =>
    if Lexeme.isSymbolChar c then h.put c (some .yellow) else h.plain cursor c
  | .plain => h.plain cursor c

/-- Goes through a line. The cursor is on the character at `cursor`, if on any. -/
def line (cursor : Option Nat) (cs : List Char) : Highlight := cs.foldl (step cursor) start

/-- The line as it is sent to the terminal. -/
def chars (h : Highlight) : List Char := h.cells.toList.flatMap Cell.chars

end Highlight

/-- The character that the cursor counts as being on when it stands at `pos`: the one before. -/
def cursorAt : Nat → Option Nat
  | 0 => none
  | n + 1 => some n

/-- **A line in colors**, with the cursor at `pos`. -/
def highlight (line : String) (pos : Nat) : String :=
  String.ofList (Highlight.line (cursorAt pos) line.toList).chars

end MusicLisp
