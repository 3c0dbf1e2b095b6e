import MusicLisp.Evaluation
import MusicLisp.Text.Width

/-!
# Reports

An error drawn against the source: its message, the place, the lines it blames with their numbers, and
a label under the blamed part. The numbers of a span are taken as positions of characters here, and a
report shows nothing of the source where a span reaches beyond it.

* On one line the blamed part is underlined, and an arrow from its middle leads to the label.
* Over several lines the first and the last are shown, joined at the left, and the label stands under
  the last.

Every cell of the rows under a line is as wide as the character above it, so the marks stand right under
wide characters and tabs. An empty span at the end of the source blames the last character.
-/

namespace MusicLisp

/-- What a report says about which part of a source. -/
structure Report where
  message : String
  label : String
  span : Span
deriving Repr, Inhabited

namespace Report

/-- The report of an error. -/
def ofError (e : ProgramError) : Report := ⟨e.message, e.label, e.span⟩

/-- The part to mark: an empty span takes the character before it. -/
def labelSpan (span : Span) (bytes : Nat) : Span :=
  if span.stop ≤ span.start ∧ 0 < span.start then
    let stop := min span.start bytes
    ⟨stop - 1, stop⟩
  else span

/-! ### Lines -/

/-- The characters that end a line. -/
def endsLine (c : Char) : Bool :=
  c == '\n' || c == '\r' || c == '\x0b' || c == '\x0c' || c == '\u0085' || c == '\u2028' ||
    c == '\u2029'

/-- A text after each of its line ends. -/
def splitLines : List Char → List (List Char)
  | [] => []
  | '\r' :: '\n' :: rest => ['\r', '\n'] :: splitLines rest
  | c :: rest =>
    if endsLine c then [c] :: splitLines rest
    else match splitLines rest with
      | [] => [[c]]
      | line :: lines => (c :: line) :: lines

/-- The lines of a source, with their ends; an empty source is one empty line. -/
def sourceLines (source : List Char) : List (List Char) :=
  if source.isEmpty then [[]] else splitLines source

/-- A line of the source: its number from zero, the position of its first character, and its
characters. -/
structure Line where
  index : Nat
  start : Nat
  chars : List Char
deriving Repr, Inhabited

/-- Numbers lines and counts their positions. -/
def number (index start : Nat) : List (List Char) → List Line
  | [] => []
  | chars :: rest => ⟨index, start, chars⟩ :: number (index + 1) (start + chars.length) rest

/-- The lines of a source in order. -/
def lines (source : List Char) : List Line := number 0 0 (sourceLines source)

/-- The line that holds a position, which may be the one after the last character. -/
def lineAt? (source : List Char) (position : Nat) : Option Line :=
  if position ≤ source.length then
    ((lines source).filter fun line => line.start ≤ position).getLast?
  else none

namespace Line

/-- The characters of a line that are shown: the blanks at its end are not. -/
def shown (line : Line) : List Char := Text.trimEnd line.chars

/-- The columns of a character at an index of its line: a tab goes to the next multiple of four. -/
def columns (index : Nat) (c : Char) : Nat :=
  if c = '\t' then (index / 4 + 1) * 4 - index
  else if Text.isBlank c then 1
  else Text.width c

/-- The text of a line, with blanks for tabs and other blanks. -/
def text (line : Line) : List Char :=
  (line.shown.zipIdx).flatMap fun (c, index) =>
    if Text.isBlank c then List.replicate (columns index c) ' ' else [c]

/-- The columns of the cell under an index of a line; past its end, one. -/
def cellWidth (line : Line) (index : Nat) : Nat :=
  match line.shown[index]? with
  | some c => columns index c
  | none => 1

/-- A mark in a cell, filled up to the width of the cell. -/
def cell (line : Line) (index : Nat) (mark fill : Char) : List Char :=
  match line.cellWidth index with
  | 0 => []
  | n + 1 => mark :: List.replicate n fill

/-- The columns of the first `count` cells. -/
def cellsWidth (line : Line) (count : Nat) : Nat :=
  (List.range count).foldl (fun n index => n + line.cellWidth index) 0

end Line

/-! ### Rows -/

/-- The beginning of a row: what stands left of the frame, then the bar. -/
def margin (width : Nat) : List Char := List.replicate (width + 2) ' ' ++ ['│']

/-- The beginning of the row of a source line: its number from one, then the bar. -/
def numbered (width : Nat) (line : Line) : List Char :=
  let digits := (toString (line.index + 1)).toList
  ' ' :: List.replicate (width - digits.length) ' ' ++ digits ++ " │".toList

/-- The rows that underline a part of one line and lead to the label. -/
def oneLine (width : Nat) (line : Line) (start stop : Nat) (label : String) : List (List Char) :=
  if line.start + line.chars.length < stop then [margin width ++ [' ']] else
    let middle := max ((start + stop) / 2) start - line.start
    let indices := List.range (stop - line.start + 2)
    let inside (index : Nat) : Bool := start ≤ line.start + index && line.start + index < stop
    let under := indices.flatMap fun index =>
      if index = middle then
        if inside index then line.cell index '┬' '─' else line.cell index '│' ' '
      else if inside index then line.cell index '─' '─'
      else line.cell index ' ' ' '
    let arrow := indices.flatMap fun index =>
      if index < middle then line.cell index ' ' ' '
      else if index = middle then line.cell index '╰' '─'
      else line.cell index '─' '─'
    [numbered width line ++ ' ' :: line.text,
      margin width ++ ' ' :: under,
      margin width ++ ' ' :: arrow ++ ' ' :: label.toList]

/-- The row that stands for lines left out. -/
def elision (width : Nat) : List Char := List.replicate (width + 2) ' ' ++ "┆ ┆   ".toList

/-- The rows that join a first and a last line and lead to the label; without the last where the part
ends after the last character of the source. -/
def manyLines (width : Nat) (first last : Line) (drawLast : Bool) (label : String) :
    List (List Char) :=
  let columns := last.cellsWidth (last.chars.length + 2)
  let closing := [numbered width last ++ " ├─▶ ".toList ++ last.text,
    margin width ++ " │   ".toList ++ List.replicate columns ' ',
    margin width ++ " ╰───".toList ++ List.replicate columns '─' ++ ' ' :: label.toList]
  let gap := if first.index + 1 < last.index || !drawLast then [elision width] else []
  (numbered width first ++ " ╭─▶ ".toList ++ first.text) :: gap ++ (if drawLast then closing else [])

/-- The rows of the drawing, from a first to a last line. -/
def drawing (r : Report) (source : List Char) (first last : Line) (start stop : Nat) :
    List (List Char) :=
  let width := (toString (last.index + 1)).length
  let place := toString (first.index + 1) ++ ":" ++ toString (start - first.start + 1)
  let header := List.replicate (width + 2) ' ' ++ ("╭─[ input:" ++ place ++ " ]").toList
  let body := if first.index = last.index then oneLine width first start stop r.label
    else manyLines width first last (stop - 1 != source.length) r.label
  header :: margin width :: body ++ [List.replicate (width + 2) '─' ++ ['╯']]

/-- All rows of a report against a source. -/
def rows (r : Report) (source : String) : List (List Char) :=
  let chars := source.toList
  let marked := labelSpan r.span source.utf8ByteSize
  let title := ("Error: " ++ r.message).toList
  match lineAt? chars marked.start with
  | none => [title]
  | some first =>
    if marked.start < marked.stop then
      match lineAt? chars (marked.stop - 1) with
      | none => [title]
      | some last => title :: r.drawing chars first last marked.start marked.stop
    else title :: r.drawing chars first first marked.start marked.stop

/-- **A report drawn against its source**, each row ended. -/
def render (r : Report) (source : String) : String :=
  String.ofList ((r.rows source).flatMap fun row => row ++ ['\n'])

end Report

/-- An error drawn against the source it is about. -/
def ProgramError.render (e : ProgramError) (source : String) : String :=
  (Report.ofError e).render source

end MusicLisp
