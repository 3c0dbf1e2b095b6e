import MusicLisp.Eval
import MusicLisp.Form.Read

/-!
# Evaluating source texts

A session evaluates a text by reading all its forms and then evaluating them in the global frame, one
after the other. The first error stops it, and what was done before stays done. The evaluation comes
with the lines printed during it.
-/

namespace MusicLisp

/-- Why the evaluation of a text fails: it cannot be read, or a form of it cannot be evaluated. -/
inductive ProgramError where
  | read (error : ReadError)
  | eval (error : EvalError)
deriving BEq, Repr, Inhabited

namespace ProgramError

/-- The span an error blames. -/
def span : ProgramError → Span
  | read error => error.span
  | eval error => error.span

/-- What is wrong, in words. -/
def message : ProgramError → String
  | read error => error.message
  | eval error => error.cause.message

/-- What stands beside the part to blame. -/
def label : ProgramError → String
  | read error => error.label
  | eval error => error.cause.label

end ProgramError

/-- What the evaluation of a text comes to, and the lines printed during it. -/
structure Evaluation where
  result : Except ProgramError Value
  printed : List String
deriving Inhabited

namespace Evaluation

/-- The same result as the host sees it. -/
def sameResult (a b : Evaluation) : Bool :=
  match a.result, b.result with
  | .ok v, .ok w => v.same w
  | .error e, .error f => e == f
  | _, _ => false

end Evaluation

namespace Session

variable [HostNatives]

/-- Evaluates a text in a session; nothing is reset before or taken after. -/
def run (source : String) (s : Session) : Except ProgramError Value × Session :=
  match readForms source with
  | .error e => (.error (.read e), s)
  | .ok forms =>
    match evalForms forms .nil globalFrame (s.note (.parsed forms.length)) with
    | .ok value s => (.ok value, s)
    | .error e s => (.error (.eval e), s)

/-- Notes a failure. -/
def noteResult (result : Except ProgramError Value) (s : Session) : Session :=
  match result with
  | .ok _ => s
  | .error e => s.note (.failed e.message)

/-- **Evaluates a text in a session.** -/
def evaluate (source : String) (s : Session) : Evaluation × Session :=
  let (result, s) := run source s.clearPrinted.resetDepth
  let s := s.noteResult result
  (⟨result, s.printed.toList⟩, s.clearPrinted)

/-- Evaluates texts one after the other, each on its own. -/
def evaluateAll : List String → Session → List Evaluation × Session
  | [], s => ([], s)
  | source :: rest, s =>
    let (evaluation, s) := s.evaluate source
    let (evaluations, s) := s.evaluateAll rest
    (evaluation :: evaluations, s)

end Session

/-- Whether a text can be read; nothing is evaluated. -/
def validate (source : String) : Except ReadError Unit := (readForms source).map fun _ => ()

end MusicLisp
