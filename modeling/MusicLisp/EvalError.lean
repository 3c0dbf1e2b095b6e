import MusicLisp.Span

/-!
# Evaluation errors

Why an evaluation can fail, and the words for it: a message, and a label to stand beside the part of
the source that is to blame.
-/

namespace MusicLisp

/-- Why an evaluation fails. -/
inductive EvalCause where
  | undefinedSymbol (name : String)
  | notAFunction (found : String)
  | arityMismatch (name : String) (expected found : Nat)
  | invalidArguments (text : String)
  | typeMismatch (name expected found : String)
  | divisionByZero
  | invalidNote (text : String)
  | unknownPattern (kind name : String)
  | invalidSpecialForm (text : String)
  | invalidMapKey (found : String)
  | callDepthExceeded (limit : Nat)
deriving DecidableEq, Repr, Inhabited

/-- The ending of a counted noun. -/
def plural (count : Nat) : String := if count = 1 then "" else "s"

namespace EvalCause

/-- What is wrong, in words. -/
def message : EvalCause → String
  | undefinedSymbol name => "undefined symbol: " ++ name
  | notAFunction found => "cannot call non-function: " ++ found
  | arityMismatch name expected found =>
    name ++ " expects " ++ toString expected ++ " argument" ++ plural expected ++ ", got " ++
      toString found
  | invalidArguments text => text
  | typeMismatch name expected found => name ++ " requires a " ++ expected ++ ", got " ++ found
  | divisionByZero => "division by zero"
  | invalidNote text => text
  | unknownPattern kind name => "unknown " ++ kind ++ " type: " ++ name
  | invalidSpecialForm text => text
  | invalidMapKey found => "map keys must be keywords or strings, got " ++ found
  | callDepthExceeded limit => "maximum call depth exceeded (" ++ toString limit ++ ")"

/-- What stands beside the part to blame. -/
def label : EvalCause → String
  | undefinedSymbol _ => "not defined in this scope"
  | notAFunction _ => "this cannot be called"
  | arityMismatch _ expected found =>
    "expected " ++ toString expected ++ " argument" ++ plural expected ++ ", got " ++ toString found
  | invalidArguments _ => "in this call"
  | typeMismatch _ expected found => "expected a " ++ expected ++ ", found " ++ found
  | divisionByZero => "a divisor here is zero"
  | invalidNote _ => "not a note name"
  | unknownPattern kind name => "no " ++ kind ++ " type named `" ++ name ++ "`"
  | invalidSpecialForm _ => "this form is malformed"
  | invalidMapKey _ => "keys must be keywords or strings"
  | callDepthExceeded _ => "recursion limit reached here"

end EvalCause

/-- A failed evaluation: the cause and the span to blame. -/
structure EvalError where
  cause : EvalCause
  span : Span
deriving DecidableEq, Repr, Inhabited

end MusicLisp
