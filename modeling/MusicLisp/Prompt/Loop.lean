import MusicLisp.Prompt.Backspace
import MusicLisp.Report

/-!
# The prompt

A prompt reads lines, evaluates them in one session and writes what they come to. Backspaces are carried
out, and input goes on over further lines while a form or a string is still open. An entry is trimmed; a
blank one is passed over, and `exit` in any case ends the prompt, as does the end of the input, which
drops an entry that is still open. The history is kept if it was there before or if some entry was not
empty.
-/

namespace MusicLisp.Prompt

/-- What a run of the prompt leaves: its exit code, what it wrote, and whether there is a history. -/
structure Transcript where
  code : Nat
  out : String
  err : String
  saved : Bool
deriving DecidableEq, Repr, Inhabited

/-- Whether input is still open: it ends inside a form or a string. -/
def isOpen (input : String) : Bool :=
  match readForms input with
  | .error (.unexpectedEnd _ _) => true
  | .error (.scan ⟨.unterminatedString, _⟩) => true
  | _ => false

/-- A line of input and the characters that end it. -/
structure InputLine where
  text : List Char
  ending : List Char
deriving DecidableEq, Repr, Inhabited

/-- A line without the newline it had: a carriage return before it belongs to its end. -/
def InputLine.ofChars (cs : List Char) : InputLine :=
  if cs.getLast? = some '\r' then ⟨cs.dropLast, ['\r', '\n']⟩ else ⟨cs, ['\n']⟩

/-- The lines of an input; one without an end may come last. `read` is what the line began with, the
last character first. -/
def inputLines (read : List Char) : List Char → List InputLine
  | [] => if read.isEmpty then [] else [⟨read.reverse, []⟩]
  | '\n' :: rest => .ofChars read.reverse :: inputLines [] rest
  | c :: rest => inputLines (c :: read) rest

/-- Open input and one more line, with the backspaces of the line carried out. They may reach back into
the lines before. -/
def InputLine.after (line : InputLine) (pending : List Char) : List Char :=
  withoutBackspaces (pending ++ line.text)

/-- The entries that lines of input make, each as long as it takes to be closed; `pending` is the open
input before. -/
def entries (pending : List Char) : List InputLine → List String
  | [] => []
  | line :: rest =>
    let input := line.after pending
    if isOpen (String.ofList input) then entries (input ++ line.ending) rest
    else String.ofList input :: entries [] rest

/-- Whether an entry asks to leave. -/
def isExit (entry : String) : Bool := entry.map Char.toLower == "exit"

/-- An entry without the blanks around it. -/
def trimmed (entry : String) : String := String.ofList (Text.trim entry.toList)

/-- A text and the end of its line. -/
def withNewline (s : String) : String := s ++ "\n"

/-- Lines, each ended. -/
def joinLines (lines : List String) : String := String.join (lines.map withNewline)

/-- What is written at the start. -/
def greeting (history : Bool) : String :=
  joinLines (["Cadenza REPL v0.1.0", "Type 'exit' or press Ctrl-D to quit."] ++
    if history then [] else ["No previous history."])

/-- What is written at the end of the input. -/
def farewell : String := "\nExiting.\n"

/-- What entries submit to be evaluated: each trimmed, without blank ones, up to one that asks to
leave. -/
def chunks : List String → List String
  | [] => []
  | entry :: rest =>
    let chunk := trimmed entry
    if chunk.isEmpty then chunks rest
    else if isExit chunk then []
    else chunk :: chunks rest

/-- What the evaluation of a chunk writes to the output. -/
def outOf (evaluation : Evaluation) : String :=
  joinLines evaluation.printed ++
    match evaluation.result with
    | .ok value => withNewline value.text
    | .error _ => ""

/-- What the evaluation of a chunk writes to the error output. -/
def errOf (chunk : String) (evaluation : Evaluation) : String :=
  match evaluation.result with
  | .ok _ => ""
  | .error e => e.render chunk

/-- **A run of the prompt** on an input, with or without a history from before. -/
def run (input : String) (history : Bool) : Transcript :=
  let entered := entries [] (inputLines [] input.toList)
  let submitted := chunks entered
  let (evaluations, _) := (Session.start .standard .fresh).evaluateAll submitted
  let leaves := entered.any fun entry => isExit (trimmed entry)
  { code := 0
    out := greeting history ++ String.join (evaluations.map outOf) ++
      if leaves then "" else farewell
    err := String.join (List.zipWith errOf submitted evaluations)
    saved := history || entered.any fun entry => !entry.isEmpty }

end MusicLisp.Prompt
