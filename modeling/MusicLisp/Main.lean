import MusicLisp.Prompt.Loop
import MusicLisp.Script

/-!
# The command line

The thin outer layer: it reads a file or the lines typed at the prompt, and writes what the library
answers. Under the name `repl` the program is the prompt, otherwise it runs the script it is given.
-/

namespace MusicLisp.CommandLine

/-- Where the prompt keeps its history. -/
def historyFile : String := "cadenza_history.txt"

/-- The bytes of a file, or why there are none. -/
def bytesOf (path : String) : IO (Except Script.FileFault ByteArray) := do
  try
    let bytes ← IO.FS.readBinFile path
    return .ok bytes
  catch e =>
    match e with
    | .noFileOrDirectory .. => return .error .missing
    | .inappropriateType .. => return .error .directory
    | e => return .error (.other (toString e))

/-- Runs the script that is named, showing what a filter in the environment asks for. -/
def runScript (args : List String) : IO UInt32 := do
  let path := args.head?
  let file ← match path with
    | some p => bytesOf p
    | none => pure (.error .missing)
  let outcome := Script.runFile path fun _ => file
  if let some filter ← IO.getEnv "MUSIC_LISP_LOG" then
    let bytes := match file with
      | .ok bytes => bytes.size
      | .error _ => 0
    for line in (Filter.ofText filter).lines bytes outcome.events do
      IO.eprintln line
  IO.print outcome.out
  IO.eprint outcome.err
  return UInt32.ofNat outcome.code

/-- Reads lines from the input until they make an entry; none at the end of the input. -/
partial def readEntry (input : IO.FS.Stream) (pending : List Char) : IO (Option String) := do
  let raw := (← input.getLine).toList
  match Prompt.inputLines [] raw with
  | [] => return none
  | line :: _ =>
    let text := line.after pending
    if Prompt.isOpen (String.ofList text) then readEntry input (text ++ line.ending)
    else return some (String.ofList text)

/-- Answers entries until the input ends or one asks to leave; answers the entries in reverse. -/
partial def answerEntries (input : IO.FS.Stream) (s : Session) (seen : List String) :
    IO (List String) := do
  match ← readEntry input [] with
  | none =>
    IO.print Prompt.farewell
    return seen
  | some entry =>
    let seen := if entry.isEmpty then seen else entry :: seen
    let text := Prompt.trimmed entry
    if text.isEmpty then answerEntries input s seen
    else if Prompt.isExit text then return seen
    else
      let (evaluation, s) := s.evaluate text
      IO.print (Prompt.outOf evaluation)
      IO.eprint (Prompt.errOf text evaluation)
      answerEntries input s seen

/-- Runs the prompt and keeps its history. -/
def runPrompt : IO UInt32 := do
  let before ← try
      let text ← IO.FS.readFile historyFile
      pure (some text)
    catch _ => pure none
  IO.print (Prompt.greeting before.isSome)
  let seen ← answerEntries (← IO.getStdin) (Session.start .standard .fresh) []
  unless seen.isEmpty do
    IO.FS.writeFile historyFile (before.getD "" ++ Prompt.joinLines seen.reverse)
  return 0

end MusicLisp.CommandLine

/-- The program. -/
def main (args : List String) : IO UInt32 := do
  if (← IO.appPath).fileStem == some "repl" then MusicLisp.CommandLine.runPrompt
  else MusicLisp.CommandLine.runScript args
