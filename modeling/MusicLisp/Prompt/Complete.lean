import MusicLisp.Evaluation

/-!
# Completing a word

A symbol that ends right at the cursor can be completed to a name that is bound, or to the word of a
special form. The candidates are what is missing, in increasing order.
-/

namespace MusicLisp

/-- The characters of a text in its first `n` bytes. -/
def takeBytes : Nat → List Char → List Char
  | _, [] => []
  | n, c :: cs => if c.utf8Size ≤ n then c :: takeBytes (n - c.utf8Size) cs else []

/-- The last token of a text, not counting the end mark. -/
def lastToken? (tokens : List Token) : Option Token :=
  tokens.reverse.find? fun t => !(t.kind matches .endOfInput)

/-- The symbol that ends right at byte `pos` of a line, if the line can be cut into tokens up to there. -/
def wordAt? (line : String) (pos : Nat) : Option String :=
  match tokenize (String.ofList (takeBytes pos line.toList)) with
  | .error _ => none
  | .ok tokens =>
    match lastToken? tokens with
    | some ⟨.atom (.symbol name), span⟩ => if span.stop = pos then some name else none
    | _ => none

/-- What a name has after the given beginning, if that is its beginning and something comes after. -/
def missing? (beginning name : String) : Option String :=
  if beginning.toList.isPrefixOf name.toList && beginning.toList.length < name.toList.length then
    some (String.ofList (name.toList.drop beginning.toList.length))
  else none

/-- What a completer answers: the byte of the line at which the completed text goes in, and what can go in there. -/
structure Completion where
  place : Nat
  candidates : List String
deriving DecidableEq, Repr, Inhabited

namespace Session

/-- The words that can be completed to: the names bound globally and those of special forms, in
increasing order. -/
def vocabulary (s : Session) : List String :=
  let known := s.scopes.names globalFrame ++ SpecialForm.words
  (Dict.ofEntries (known.map fun name => (name, ()))).names

/-- **The candidates** for completing a line at byte `pos`. -/
def complete (s : Session) (line : String) (pos : Nat) : List String :=
  match wordAt? line pos with
  | none => []
  | some word => s.vocabulary.filterMap (missing? word)

/-- **The answer** for a line at byte `pos`: what can go in goes in right there. -/
def completion (s : Session) (line : String) (pos : Nat) : Completion := ⟨pos, s.complete line pos⟩

end Session

end MusicLisp
