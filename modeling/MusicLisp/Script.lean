import MusicLisp.Report

/-!
# Scripts

A script is evaluated once, in a session of its own. What it printed and its value go to the output with
code 0; an error is drawn to the error output with code 1, after what was printed. So does the reason why
a file cannot be read, or the usage if none is named.
-/

namespace MusicLisp.Script

/-- What a run leaves: its exit code, what it wrote, and what happened during it. -/
structure Outcome where
  code : Nat
  out : String
  err : String
  events : List Event
deriving Repr, Inhabited

/-- Why a file cannot be read. -/
inductive FileFault where
  | missing
  | directory
  | notText
  | other (reason : String)
deriving DecidableEq, Repr, Inhabited

/-- Why a file cannot be read, in words. -/
def FileFault.text : FileFault → String
  | missing => "No such file or directory (os error 2)"
  | directory => "Is a directory (os error 21)"
  | notText => "stream did not contain valid UTF-8"
  | other reason => reason

/-- The outcome when no file is named. -/
def usage : Outcome := ⟨1, "", "usage: cadenza <script.cdz>\n", []⟩

/-- The outcome for a file that cannot be read. -/
def unreadable (path : String) (fault : FileFault) : Outcome :=
  ⟨1, "", "cannot read " ++ path ++ ": " ++ fault.text ++ "\n", []⟩

/-- **Runs a script.** -/
def run (source : String) : Outcome :=
  let (evaluation, s) := (Session.start .standard .fresh).evaluate source
  let printed := String.join (evaluation.printed.map fun line => line ++ "\n")
  match evaluation.result with
  | .ok value => ⟨0, printed ++ value.text ++ "\n", "", s.journal.toList⟩
  | .error e => ⟨1, printed, e.render source, s.journal.toList⟩

/-- The log lines of a run, as a filter shows them. Where the text of an event has several lines, the
first is the one that begins with a level. -/
def Outcome.logLines (outcome : Outcome) (filter : Filter) (source : String) : List String :=
  (filter.lines source.utf8ByteSize outcome.events).map fun line =>
    String.ofList (line.toList.takeWhile (· ≠ '\n'))

/-- Reads the bytes of a file as text and runs it, for the file that was named if there was one. -/
def runFile (path : Option String) (read : String → Except FileFault ByteArray) : Outcome :=
  match path with
  | none => usage
  | some path =>
    match read path with
    | .error fault => unreadable path fault
    | .ok bytes =>
      match String.fromUTF8? bytes with
      | none => unreadable path .notText
      | some source => run source

end MusicLisp.Script
