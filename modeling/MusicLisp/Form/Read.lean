import MusicLisp.Form
import MusicLisp.Token.Piece

/-!
# Reading forms

Forms are read from a stream of tokens by recursive descent: an atom is its token, and an opening
bracket is followed by forms up to its closing bracket. A stream may run out with or without a mark at
its end; where it runs out without one, an error points at the end of the last token taken.

Every reader takes tokens off the front of the stream and leaves the rest, also when it fails. That the
rest is no longer than the stream (`Reading.bound`) is what makes the descent end.
-/

namespace MusicLisp

/-- Why a text or a stream cannot be read as forms. -/
inductive ReadError where
  | unexpectedToken (found : Token) (expected : String)
  | unexpectedEnd (expected : String) (span : Span)
  | oddMap (span : Span)
  | scan (error : ScanError)
deriving BEq, Repr, Inhabited

namespace ReadError

/-- The span an error blames. -/
def span : ReadError → Span
  | unexpectedToken found _ => found.span
  | unexpectedEnd _ span => span
  | oddMap span => span
  | scan error => error.span

/-- What is wrong, in words. -/
def message : ReadError → String
  | unexpectedToken found _ => "unexpected token: '" ++ found.kind.text ++ "'"
  | unexpectedEnd _ _ => "unexpected end of input"
  | oddMap _ => "map literal must have an even number of forms"
  | scan error => error.cause.message

/-- What stands beside the part to blame. -/
def label : ReadError → String
  | unexpectedToken _ expected => "expected " ++ expected
  | unexpectedEnd expected _ => "expected " ++ expected
  | oddMap _ => "this key has no value"
  | scan error => error.cause.message

end ReadError

/-- What a reader looks for where a form has to start. -/
def aForm : String := "a form"

/-- What a reader looks for inside a bracket. -/
def Bracket.expected (b : Bracket) : String := "'" ++ b.closeChar.toString ++ "'"

/-- The tokens still to come, and where the last one taken ended. -/
structure TokenStream where
  tokens : List Token
  lastEnd : Nat
deriving BEq, Repr, Inhabited

namespace TokenStream

/-- A stream at its start. -/
def ofTokens (tokens : List Token) : TokenStream := ⟨tokens, 0⟩

/-- The number of tokens still to come. -/
def size (s : TokenStream) : Nat := s.tokens.length

/-- The stream after the token `t`, if `rest` comes after it. -/
def after (t : Token) (rest : List Token) : TokenStream := ⟨rest, t.span.stop⟩

@[simp] theorem size_after (t : Token) (rest : List Token) : (after t rest).size = rest.length := rfl

end TokenStream

/-- What reading answers, and the stream it leaves, which is no longer than the stream `top`. -/
structure Reading (α : Type) (top : TokenStream) where
  answer : Except ReadError α
  rest : TokenStream
  bound : rest.size ≤ top.size

namespace TokenStream

open Reading

mutual

/-- Reads the form that starts with the token `t`; `s` is the stream after it. -/
def readAt (t : Token) (s top : TokenStream) (h : s.size ≤ top.size) : Reading Form top :=
  match t.kind with
  | .opening .round => readItems .list .round t.span [] s top h
  | .opening .square => readItems .vector .square t.span [] s top h
  | .opening .curly => readEntries t.span [] s top h
  | .atom a => ⟨.ok (.atom t.span a), s, h⟩
  | .closing _ => ⟨.error (.unexpectedToken t aForm), s, h⟩
  | .endOfInput => ⟨.error (.unexpectedEnd aForm t.span), s, h⟩
termination_by 2 * s.size + 1

/-- Reads forms up to the closing bracket `b`; `found` are those before, the last one first. -/
def readItems (make : Span → List Form → Form) (b : Bracket) (start : Span) (found : List Form) :
    (s top : TokenStream) → s.size ≤ top.size → Reading Form top
  | ⟨[], lastEnd⟩, _, h => ⟨.error (.unexpectedEnd b.expected (.point lastEnd)), ⟨[], lastEnd⟩, h⟩
  | ⟨t :: rest, _⟩, top, h =>
    have hr : (after t rest).size < top.size := h
    match t.kind with
    | .closing c =>
      if c = b then ⟨.ok (make (start.merge t.span) found.reverse), after t rest, by omega⟩
      else ⟨.error (.unexpectedToken t b.expected), after t rest, by omega⟩
    | .endOfInput => ⟨.error (.unexpectedEnd b.expected t.span), after t rest, by omega⟩
    | _ =>
      match readAt t (after t rest) (after t rest) (Nat.le_refl _) with
      | ⟨.error e, left, hl⟩ => ⟨.error e, left, by omega⟩
      | ⟨.ok form, left, hl⟩ => readItems make b start (form :: found) left top (by omega)
termination_by s => 2 * s.size
decreasing_by all_goals simp only [size, after, List.length_cons] at *; omega

/-- Reads the keys and values of a map up to its closing bracket; `found` are the entries before, the
last one first. -/
def readEntries (start : Span) (found : List (Form × Form)) :
    (s top : TokenStream) → s.size ≤ top.size → Reading Form top
  | ⟨[], lastEnd⟩, _, h =>
    ⟨.error (.unexpectedEnd Bracket.curly.expected (.point lastEnd)), ⟨[], lastEnd⟩, h⟩
  | ⟨t :: rest, _⟩, top, h =>
    have hr : (after t rest).size < top.size := h
    match t.kind with
    | .closing .curly => ⟨.ok (.map (start.merge t.span) found.reverse), after t rest, by omega⟩
    | .closing _ => ⟨.error (.unexpectedToken t Bracket.curly.expected), after t rest, by omega⟩
    | .endOfInput => ⟨.error (.unexpectedEnd Bracket.curly.expected t.span), after t rest, by omega⟩
    | _ =>
      match readAt t (after t rest) (after t rest) (Nat.le_refl _) with
      | ⟨.error e, left, hl⟩ => ⟨.error e, left, by omega⟩
      | ⟨.ok key, left, hl⟩ => readValue start found key left top (by omega)
termination_by s => 2 * s.size
decreasing_by all_goals simp only [size, after, List.length_cons] at *; omega

/-- Reads the value of a map's `key`, and then the entries after it. -/
def readValue (start : Span) (found : List (Form × Form)) (key : Form) :
    (s top : TokenStream) → s.size ≤ top.size → Reading Form top
  | ⟨[], lastEnd⟩, _, h => ⟨.error (.oddMap (start.merge (.point lastEnd))), ⟨[], lastEnd⟩, h⟩
  | ⟨t :: rest, _⟩, top, h =>
    have hr : (after t rest).size < top.size := h
    match t.kind with
    | .closing .curly => ⟨.error (.oddMap (start.merge t.span)), after t rest, by omega⟩
    | .closing _ => ⟨.error (.unexpectedToken t Bracket.curly.expected), after t rest, by omega⟩
    | .endOfInput => ⟨.error (.oddMap (start.merge t.span)), after t rest, by omega⟩
    | _ =>
      match readAt t (after t rest) (after t rest) (Nat.le_refl _) with
      | ⟨.error e, left, hl⟩ => ⟨.error e, left, by omega⟩
      | ⟨.ok value, left, hl⟩ => readEntries start ((key, value) :: found) left top (by omega)
termination_by s => 2 * s.size
decreasing_by all_goals simp only [size, after, List.length_cons] at *; omega

end

/-- Reads one form. -/
def readForm : (s : TokenStream) → Reading Form s
  | ⟨[], lastEnd⟩ => ⟨.error (.unexpectedEnd aForm (.point lastEnd)), ⟨[], lastEnd⟩, Nat.le_refl _⟩
  | ⟨t :: rest, lastEnd⟩ => readAt t (after t rest) ⟨t :: rest, lastEnd⟩ (Nat.le_succ _)

/-- Reads forms up to the end of the stream, whose mark stays in place; `found` are those before, the
last one first. -/
def readAllFrom (found : List Form) : TokenStream → Except ReadError (List Form) × TokenStream
  | ⟨[], lastEnd⟩ => (.ok found.reverse, ⟨[], lastEnd⟩)
  | ⟨t :: rest, lastEnd⟩ =>
    match t.kind with
    | .endOfInput => (.ok found.reverse, ⟨t :: rest, lastEnd⟩)
    | _ =>
      match readAt t (after t rest) (after t rest) (Nat.le_refl _) with
      | ⟨.error e, left, _⟩ => (.error e, left)
      | ⟨.ok form, left, hl⟩ =>
        have : left.size < rest.length + 1 := Nat.lt_succ_of_le hl
        readAllFrom (form :: found) left
termination_by s => s.size

/-- Reads every form up to the end of the stream. -/
def readAll (s : TokenStream) : Except ReadError (List Form) × TokenStream := readAllFrom [] s

end TokenStream

/-- **The forms of a source text.** -/
def readForms (source : String) : Except ReadError (List Form) :=
  match tokenize source with
  | .error e => .error (.scan e)
  | .ok tokens => (TokenStream.ofTokens tokens).readAll.1

end MusicLisp
