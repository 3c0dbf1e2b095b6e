import MusicLisp.EvalError
import MusicLisp.Journal
import MusicLisp.Scopes

/-!
# Sessions

A session is what one program run after another finds and leaves: the settings that the host chose, the
frames with the global one first, the engine, the lines printed and not yet taken, how deep calls are nested, how many
functions have been made, and the journal.

What an evaluation does to a session besides binding names is an `Effect`; `Session.perform` carries it
out, and leaves the frames and the counters alone (`Session.perform_eq`). An evaluation step (`Eval`) has
its changes stay also when it fails.
-/

namespace MusicLisp

/-- How deep calls may nest, how synths are named, what a played note sounds like, and whether printed
lines are also logged. -/
structure Settings where
  maxCallDepth : Nat := 1000
  synthPrefix : String := "sonic-pi-"
  defaultSynth : String := "beep"
  defaultAmp : Float := 0.5
  logPrinted : Bool := true
deriving BEq, Repr, Inhabited

namespace Settings

/-- The settings a host gets who chooses none. -/
def standard : Settings where

/-- The full name of a synth: the common beginning is put before a name without it. -/
def synthName (s : Settings) (name : String) : String :=
  if s.synthPrefix.toList.isPrefixOf name.toList then name else s.synthPrefix ++ name

end Settings

/-- The state that evaluation works on. -/
structure Session where
  settings : Settings
  scopes : Scopes
  engine : Engine
  printed : Array String
  depth : Nat
  lambdas : Nat
  journal : Array Event
deriving Inhabited

/-- What a native does besides answering. -/
inductive Effect where
  | none
  | print (line : String)
  | sleep (seconds : Float)
  | command (command : Command)
  | setTempo (bpm : Float)
deriving BEq, Repr, Inhabited

/-- The first frame: what is bound there is seen everywhere. -/
def globalFrame : FrameId := 0

namespace Session

/-- Notes an event. -/
def note (e : Event) (s : Session) : Session := { s with journal := s.journal.push e }

/-- Adds a line to those printed. -/
def put (line : String) (s : Session) : Session := { s with printed := s.printed.push line }

/-- **Carries out an effect.** A printed line is also noted if the settings say so. -/
def perform (s : Session) : Effect → Session
  | .none => s
  | .print line => (if s.settings.logPrinted then s.note (.printed line) else s).put line
  | .sleep seconds => s.note (.slept seconds)
  | .command c => ({ s with engine := s.engine.perform c }).note (.sent (s.engine.message c))
  | .setTempo bpm => ({ s with engine := s.engine.setTempo bpm }).note (.tempoChanged bpm)

/-- An effect changes nothing but the engine, the printed lines and the journal. -/
theorem perform_eq (s : Session) (x : Effect) : s.perform x =
    { s with
      engine := (s.perform x).engine
      printed := (s.perform x).printed
      journal := (s.perform x).journal } := by
  cases x with
  | print line =>
    unfold perform
    dsimp only
    split <;> rfl
  | none | sleep seconds | command c | setTempo bpm => rfl

/-- Binds a name in a frame. -/
def bind (frame : FrameId) (name : String) (value : Value) (s : Session) : Session :=
  { s with scopes := s.scopes.bind frame name value }

/-- Makes a frame with bindings inside another. -/
def enclose (outer : FrameId) (bindings : Dict Value) (s : Session) : Session :=
  { s with scopes := s.scopes.enclose outer bindings }

/-- Forgets the lines printed so far. -/
def clearPrinted (s : Session) : Session := { s with printed := #[] }

/-- Forgets how deep calls are nested. -/
def resetDepth (s : Session) : Session := { s with depth := 0 }

/-- A session with no functions made and nothing bound. -/
def bare (settings : Settings) (engine : Engine) : Session :=
  ⟨settings, Scopes.empty.pushRoot, engine, #[], 0, 0, #[]⟩

end Session

/-- A step of evaluation: it answers or fails, and leaves the session changed either way. -/
abbrev Eval := EStateM EvalError Session

/-- Fails with a cause, blaming a span. -/
def Eval.fail {α : Type} (cause : EvalCause) (span : Span) : Eval α := throw ⟨cause, span⟩

end MusicLisp
