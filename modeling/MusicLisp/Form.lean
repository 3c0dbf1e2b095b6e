import MusicLisp.Token

/-!
# Forms

A form is what a program is made of: an atom, or a bracketed list, vector or map. Every form carries
the span it was read from. `Form.text` writes a form back as source.
-/

namespace MusicLisp

/-- A form of a program; a map holds its keys and values in source order. -/
inductive Form where
  | atom (span : Span) (atom : Atom)
  | list (span : Span) (items : List Form)
  | vector (span : Span) (items : List Form)
  | map (span : Span) (entries : List (Form × Form))
deriving Inhabited

namespace Form

/-- The span a form was read from. -/
def span : Form → Span
  | atom span _ => span
  | list span _ => span
  | vector span _ => span
  | map span _ => span

/-- The name of a form that is a bare symbol. -/
def symbol? : Form → Option String
  | atom _ (.symbol name) => some name
  | _ => none

end Form

/-- A character inside the quotes of a written string: a quote and a newline are escaped. -/
def escapeChar (c : Char) : List Char :=
  if c = '"' then ['\\', '"'] else if c = '\n' then ['\\', 'n'] else [c]

/-- A string as source: in quotes, with quotes and newlines escaped and nothing else. -/
def quoted (s : String) : String := "\"" ++ String.ofList (s.toList.flatMap escapeChar) ++ "\""

/-- An atom as source. -/
def Atom.text : Atom → String
  | number x => numberText x
  | string s => quoted s
  | keyword name => ":" ++ name
  | symbol name => name

/-- Texts one after the other with a blank between. -/
def spaced : List String → String
  | [] => ""
  | [t] => t
  | t :: u :: rest => t ++ " " ++ spaced (u :: rest)

/-- A text between the characters of a bracket. -/
def Bracket.around (b : Bracket) (inner : String) : String :=
  b.openChar.toString ++ inner ++ b.closeChar.toString

namespace Form

mutual

/-- **A form as source.** -/
def text : Form → String
  | atom _ a => a.text
  | list _ items => Bracket.round.around (spaced (texts items))
  | vector _ items => Bracket.square.around (spaced (texts items))
  | map _ entries => Bracket.curly.around (spaced (entryTexts entries))

/-- The forms of a list as source. -/
def texts : List Form → List String
  | [] => []
  | form :: rest => text form :: texts rest

/-- The keys and values of a map as source. -/
def entryTexts : List (Form × Form) → List String
  | [] => []
  | (key, value) :: rest => text key :: text value :: entryTexts rest

end

end Form

end MusicLisp
