import MusicLisp.Token

/-!
# Pieces and scanning

A text falls into pieces: blanks and comments, which are gaps, and lexemes, which are tokens. At each
place the longest piece is taken. A source is cut into its pieces from the front; gaps are dropped, and
the tokens end with the mark at the end of the source. The first broken piece stops the scan.

* a number is an optional minus, digits, and an optional point with more digits;
* a symbol starts with a letter or one of `_ + * / < > = ! ?`, or with a minus that no digit follows,
  and goes on with symbol characters, digits among them;
* a keyword is a colon and any symbol characters;
* a string runs to the first quote that no backslash takes: a backslash takes the character after it;
* a comment runs from a semicolon through the end of its line.

Any other character is stray, and a string without a closing quote is unterminated.
-/

namespace MusicLisp

/-- Why a text cannot be cut into tokens. -/
inductive ScanCause where
  | unexpectedCharacter (found : Char)
  | unterminatedString
  | invalidNumber (text : String)
  | invalidToken
deriving DecidableEq, Repr, Inhabited

/-- What is wrong, in words. -/
def ScanCause.message : ScanCause → String
  | unexpectedCharacter c => "unexpected character: '" ++ c.toString ++ "'"
  | unterminatedString => "unterminated string literal"
  | invalidNumber text => "invalid number format: '" ++ text ++ "'"
  | invalidToken => "invalid token"

namespace Lexeme

/-- The blanks between tokens. -/
def isBlank (c : Char) : Bool := c = ' ' || c = '\t' || c = '\n' || c = '\r' || c = '\x0c'

/-- The marks that symbols are made of beside letters, digits and the minus. -/
def isMark (c : Char) : Bool :=
  c = '_' || c = '+' || c = '*' || c = '/' || c = '<' || c = '>' || c = '=' || c = '!' || c = '?'

/-- The characters a symbol goes on with. -/
def isSymbolChar (c : Char) : Bool := c.isAlphanum || isMark c || c = '-'

/-- The characters a symbol starts with, the minus apart. -/
def startsSymbol (c : Char) : Bool := c.isAlpha || isMark c

/-- The length of the run of characters with a property. -/
def run (p : Char → Bool) (cs : List Char) : Nat := (cs.takeWhile p).length

/-- The length of the digits, and of the point and the digits after it, in the rest of a number. -/
def numberTail (cs : List Char) : Nat :=
  let whole := run Char.isDigit cs
  match cs.drop whole with
  | '.' :: r => whole + 1 + run Char.isDigit r
  | _ => whole

/-- Whether the string whose first quote stands before this text is closed, and the length of what
stands between its quotes; without a closing quote that is all but a lone backslash at the end.
`n` counts the characters already passed. -/
def stringBody (n : Nat) : List Char → Bool × Nat
  | [] => (false, n)
  | '"' :: _ => (true, n)
  | ['\\'] => (false, n)
  | '\\' :: _ :: r => stringBody (n + 2) r
  | _ :: r => stringBody (n + 1) r

/-- The text of a string from what stands between its quotes: `\"` is a quote and `\n` a newline, any
other backslash pair stays as it is. -/
def unescape : List Char → List Char
  | '\\' :: '"' :: r => '"' :: unescape r
  | '\\' :: 'n' :: r => '\n' :: unescape r
  | '\\' :: c :: r => '\\' :: c :: unescape r
  | c :: r => c :: unescape r
  | [] => []

/-- The length of a comment after its semicolon, the newline included. -/
def commentTail (cs : List Char) : Nat :=
  let line := run (· ≠ '\n') cs
  if (cs.drop line).isEmpty then line else line + 1

end Lexeme

/-- What the front of a text turns out to be. -/
inductive Piece where
  | gap
  | lexeme (kind : TokenKind)
  | broken (cause : ScanCause)
deriving BEq, Repr, Inhabited

namespace Piece

open Lexeme

/-- A number from its characters. -/
def number (cs : List Char) : Piece :=
  match Binary64.read? cs with
  | some x => .lexeme (.atom (.number x))
  | none => .broken (.invalidNumber (String.ofList cs))

/-- A symbol from its characters. -/
def symbol (cs : List Char) : Piece := .lexeme (.atom (.symbol (String.ofList cs)))

/-- **The longest piece** at the front of the text `c :: cs`, with the number of its characters
after `c`. -/
def front (c : Char) (cs : List Char) : Piece × Nat :=
  if isBlank c then (.gap, run isBlank cs)
  else if c = ';' then (.gap, commentTail cs)
  else if let some b := Bracket.ofOpenChar? c then (.lexeme (.opening b), 0)
  else if let some b := Bracket.ofCloseChar? c then (.lexeme (.closing b), 0)
  else if c.isDigit || (c = '-' && (cs.head?.any Char.isDigit)) then
    let n := numberTail cs
    (number (c :: cs.take n), n)
  else if startsSymbol c || c = '-' then
    let n := run isSymbolChar cs
    (symbol (c :: cs.take n), n)
  else if c = ':' then
    let n := run isSymbolChar cs
    (.lexeme (.atom (.keyword (String.ofList (cs.take n)))), n)
  else if c = '"' then
    match stringBody 0 cs with
    | (true, n) => (.lexeme (.atom (.string (String.ofList (unescape (cs.take n))))), n + 1)
    | (false, n) => (.broken .unterminatedString, n)
  else (.broken (.unexpectedCharacter c), 0)

end Piece

/-- Why a text cannot be cut into tokens, and where. -/
structure ScanError where
  cause : ScanCause
  span : Span
deriving DecidableEq, Repr, Inhabited

/-- Cuts the text `cs`, which starts at byte `offset`, into tokens; `found` are the tokens before it,
the last one first. -/
def scanFrom (offset : Nat) (found : List Token) (cs : List Char) : Except ScanError (List Token) :=
  match cs with
  | [] => .ok (⟨.endOfInput, .point offset⟩ :: found).reverse
  | c :: cs =>
    let (piece, n) := Piece.front c cs
    let stop := offset + byteLength (c :: cs.take n)
    match piece with
    | .gap => scanFrom stop found (cs.drop n)
    | .lexeme kind => scanFrom stop (⟨kind, offset, stop⟩ :: found) (cs.drop n)
    | .broken cause => .error ⟨cause, offset, stop⟩
termination_by cs.length
decreasing_by all_goals simp only [List.length_drop, List.length_cons]; omega

/-- **The tokens of a source text.** -/
def tokenize (source : String) : Except ScanError (List Token) := scanFrom 0 [] source.toList

end MusicLisp
