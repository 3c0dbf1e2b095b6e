import MusicLisp.Dict
import MusicLisp.Number.Text

/-!
# The offline engine

The engine that is there when no sound is made: it numbers the synth nodes it is asked to start, keeps
the tempo, and records the messages it would have sent. A message is an address and arguments; the
commands are starting a synth, freeing a node, setting a parameter, and any message as it is. Node numbers
go on without end here; as long as the next one fits a word with a sign, so did all before it.

* `perform`: a command sends one message, and only starting a synth takes the next node number.
-/

namespace MusicLisp

/-- An argument of a message. -/
inductive Argument where
  | number (value : Float)
  | text (text : String)
deriving BEq, Repr, Inhabited

/-- An argument as it is written in a message. -/
def Argument.show : Argument → String
  | number x => numberText x
  | text s => s

/-- What goes to the sound server. -/
structure Message where
  address : String
  arguments : List Argument
deriving BEq, Repr, Inhabited

namespace Message

/-- The address and the arguments, a blank before each. -/
def text (m : Message) : String :=
  m.arguments.foldl (fun s argument => s ++ " " ++ argument.show) m.address

/-- A node number as an argument: the nearest double. -/
def node (id : Int) : Argument := .number (Binary64.ofInt id)

/-- Starts a synth as a node, at the head of the default group, with parameters in order of name. -/
def newSynth (name : String) (id : Int) (params : Dict Float) : Message :=
  ⟨"/s_new", .text name :: node id :: .number 0 :: .number 0 ::
    params.flatMap fun param => [.text param.1, .number param.2]⟩

/-- Frees a node. -/
def freeNode (id : Int) : Message := ⟨"/n_free", [node id]⟩

/-- Sets a parameter of a node. -/
def setParam (id : Int) (param : String) (value : Float) : Message :=
  ⟨"/n_set", [node id, .text param, .number value]⟩

end Message

/-- What the engine can be asked to do. -/
inductive Command where
  | trigger (synth : String) (params : Dict Float)
  | free (id : Int)
  | setParam (id : Int) (param : String) (value : Float)
  | raw (address : String) (arguments : List Argument)
deriving BEq, Repr, Inhabited

/-- The state of the engine. -/
structure Engine where
  nextNode : Int
  tempo : Float
  sent : Array Message
deriving Repr, Inhabited

namespace Engine

/-- The first node number given out. -/
def firstNode : Int := 1000

/-- A fresh engine at some tempo. -/
def atTempo (bpm : Float) : Engine := ⟨firstNode, bpm, #[]⟩

/-- A fresh engine at the default tempo. -/
def fresh : Engine := atTempo 120

/-- The message that a command sends. -/
def message (e : Engine) : Command → Message
  | .trigger synth params => .newSynth synth e.nextNode params
  | .free id => .freeNode id
  | .setParam id param value => .setParam id param value
  | .raw address arguments => ⟨address, arguments⟩

/-- The next node number after a command. -/
def nextAfter (e : Engine) : Command → Int
  | .trigger _ _ => e.nextNode + 1
  | _ => e.nextNode

/-- **Performs a command.** -/
def perform (e : Engine) (c : Command) : Engine :=
  { e with nextNode := e.nextAfter c, sent := e.sent.push (e.message c) }

/-- Sets the tempo; nothing is sent. -/
def setTempo (e : Engine) (bpm : Float) : Engine := { e with tempo := bpm }

/-- Forgets the messages recorded so far. -/
def clear (e : Engine) : Engine := { e with sent := #[] }

@[simp] theorem sent_perform (e : Engine) (c : Command) :
    (e.perform c).sent = e.sent.push (e.message c) := rfl

@[simp] theorem sent_setTempo (e : Engine) (bpm : Float) : (e.setTempo bpm).sent = e.sent := rfl

end Engine

end MusicLisp
