import MusicLisp.Span
import MusicLisp.Number.Text

/-!
# Tokens

The words of a program: opening and closing brackets of three shapes, the atoms, and the mark at the
end of the source. A token also carries its span.
-/

namespace MusicLisp

/-- The shapes of brackets. -/
inductive Bracket where
  | round
  | square
  | curly
deriving DecidableEq, Repr, Inhabited

namespace Bracket

/-- The character that opens a bracketed form. -/
def openChar : Bracket → Char
  | round => '('
  | square => '['
  | curly => '\x7b'

/-- The character that closes a bracketed form. -/
def closeChar : Bracket → Char
  | round => ')'
  | square => ']'
  | curly => '\x7d'

/-- The bracket that a character opens. -/
def ofOpenChar? (c : Char) : Option Bracket :=
  if c = '(' then some round else if c = '[' then some square
  else if c = '\x7b' then some curly else none

/-- The bracket that a character closes. -/
def ofCloseChar? (c : Char) : Option Bracket :=
  if c = ')' then some round else if c = ']' then some square
  else if c = '\x7d' then some curly else none

theorem ofOpenChar?_eq_some_iff {c : Char} {b : Bracket} :
    ofOpenChar? c = some b ↔ c = b.openChar := by
  unfold ofOpenChar?
  cases b <;> simp only [openChar] <;> (repeat' split) <;> simp_all

theorem ofCloseChar?_eq_some_iff {c : Char} {b : Bracket} :
    ofCloseChar? c = some b ↔ c = b.closeChar := by
  unfold ofCloseChar?
  cases b <;> simp only [closeChar] <;> (repeat' split) <;> simp_all

end Bracket

/-- What stands for itself in a program. A keyword's name has no colon. -/
inductive Atom where
  | number (value : Float)
  | string (text : String)
  | keyword (name : String)
  | symbol (name : String)
deriving BEq, Repr, Inhabited

/-- What a token is. -/
inductive TokenKind where
  | opening (bracket : Bracket)
  | closing (bracket : Bracket)
  | atom (atom : Atom)
  | endOfInput
deriving BEq, Repr, Inhabited

/-- A word of a program and the span it covers. -/
structure Token where
  kind : TokenKind
  span : Span
deriving BEq, Repr, Inhabited

namespace TokenKind

/-- The token closes a bracket. -/
def isClosing : TokenKind → Bool
  | closing _ => true
  | _ => false

/-- How a token is named in a message: a string stands in quotes as it was decoded. -/
def text : TokenKind → String
  | opening b => b.openChar.toString
  | closing b => b.closeChar.toString
  | atom (.number x) => numberText x
  | atom (.string s) => "\"" ++ s ++ "\""
  | atom (.keyword name) => ":" ++ name
  | atom (.symbol name) => name
  | endOfInput => "end of input"

end TokenKind

end MusicLisp
