import MusicLisp.Music.Pitch
import MusicLisp.Session

/-!
# Natives

What the natives answer to their arguments, and what they do besides. A native of the language first
checks all its arguments; it fails with a cause, or answers a value together with one effect. So a native
that fails has done nothing.

* Arithmetic folds its arguments from the left, and each must be a number. `(- x)` negates, `(/ x)` is
  `x`, and every divisor is checked for zero in its turn.
* `=` compares numbers, strings, keywords, booleans and `nil`; nothing else is equal to anything.
* A name is a keyword or a string. A pitch is a number or a note name.
* A node is given by its number, which must be whole and fit 64 bits with a sign, or by its handle.
* The parameters of a synth are the numbers in its map; a key loses one leading colon, and of two keys
  that then agree the later one in the order of the map counts.

A host can give natives of its own (`HostNatives`), of which nothing is known. Where nothing is said about
them there are none.
-/

namespace MusicLisp

/-- What a native comes to: a cause of failure, or a value and an effect. -/
abbrev Answer := Except EvalCause (Value × Effect)

namespace Operation

/-- The name an operation is bound to and goes by in messages. -/
def name : Operation → String
  | add => "+"
  | subtract => "-"
  | multiply => "*"
  | divide => "/"
  | equal => "="
  | less => "<"
  | greater => ">"
  | print => "print"
  | list => "list"
  | first => "first"
  | rest => "rest"
  | note => "note"
  | frequency => "midi->freq"
  | chord => "chord"
  | scale => "scale"
  | tempo => "bpm"
  | playNote => "play-note"
  | synth => "synth"
  | free => "free"
  | setParam => "set-param"
  | osc => "osc"
  | sleep => "sleep"

/-- The operations bound in every fresh session. -/
def standard : List Operation := [
  add, subtract, multiply, divide, equal, less, greater, print, list, first, rest, note, frequency,
  chord, scale, tempo, playNote, synth, free, setParam, osc, sleep]

/-- An answer without an effect. -/
def plain (value : Value) : Answer := .ok (value, .none)

/-! ### Checks -/

/-- The one argument of an operation that takes one. -/
def one (op : Operation) : List Value → Except EvalCause Value
  | [a] => .ok a
  | args => .error (.arityMismatch op.name 1 args.length)

/-- The two arguments of an operation that takes two. -/
def two (op : Operation) : List Value → Except EvalCause (Value × Value)
  | [a, b] => .ok (a, b)
  | args => .error (.arityMismatch op.name 2 args.length)

/-- The three arguments of an operation that takes three. -/
def three (op : Operation) : List Value → Except EvalCause (Value × Value × Value)
  | [a, b, c] => .ok (a, b, c)
  | args => .error (.arityMismatch op.name 3 args.length)

/-- The first argument and the others of an operation that takes one or more. -/
def oneOrMore (op : Operation) : List Value → Except EvalCause (Value × List Value)
  | a :: others => .ok (a, others)
  | [] => .error (.invalidArguments (op.name ++ " requires at least 1 argument, got 0"))

/-- The value is of another type than the operation requires. -/
def mismatch {α : Type} (op : Operation) (expected : String) (value : Value) :
    Except EvalCause α :=
  .error (.typeMismatch op.name expected value.typeName)

/-- The number that an argument must be. -/
def number (op : Operation) (value : Value) : Except EvalCause Float :=
  match value.number? with
  | some x => .ok x
  | none => op.mismatch "number" value

/-- The name that an argument must be. -/
def nameOf (op : Operation) (value : Value) : Except EvalCause String :=
  match value.name? with
  | some s => .ok s
  | none => op.mismatch "keyword or string" value

/-- The pitch number of an argument that must be a note name. -/
def noteOf (op : Operation) (value : Value) : Except EvalCause Float := do
  match Pitch.ofName (← op.nameOf value) with
  | .ok n => .ok (Binary64.ofInt n)
  | .error fault => .error (.invalidNote fault.message)

/-- The pitch number of an argument that is one or names one. -/
def rootOf (op : Operation) (value : Value) : Except EvalCause Float :=
  match value with
  | .number x => .ok x
  | .keyword _ | .string _ => op.noteOf value
  | _ => op.mismatch "note keyword or MIDI number" value

/-- Whether a whole number fits 64 bits with a sign. -/
def fitsWord (n : Int) : Bool := -Int.pow 2 63 ≤ n && n < Int.pow 2 63

theorem fitsWord_iff {n : Int} : fitsWord n ↔ -Int.pow 2 63 ≤ n ∧ n < Int.pow 2 63 := by
  unfold fitsWord
  rw [Bool.and_eq_true, decide_eq_true_eq, decide_eq_true_eq]

/-- After a command the next node number fits a word, if there was room for one more. -/
theorem fitsWord_command {e : Engine} (h : fitsWord e.nextNode) (hroom : e.nextNode + 1 < Int.pow 2 63)
    (c : Command) : fitsWord (e.perform c).nextNode := by
  rw [fitsWord_iff] at h
  cases c with
  | trigger synth params => exact fitsWord_iff.mpr ⟨Int.le_add_one h.1, hroom⟩
  | free | setParam | raw => exact fitsWord_iff.mpr h

/-- The node that an argument gives. -/
def nodeOf (op : Operation) (value : Value) : Except EvalCause Int :=
  match value with
  | .number x =>
    match (Binary64.whole? x).filter fitsWord with
    | some id => .ok id
    | none => .error (.invalidArguments
        (op.name ++ " requires a whole-number node id, got " ++ numberValueText x))
  | .synthNode node => .ok node.id
  | _ => op.mismatch "node id or synth-node" value

/-- The elements of an argument that must be a list or a vector. -/
def elementsOf (op : Operation) (value : Value) : Except EvalCause (List Value) :=
  match value with
  | .list items => .ok items
  | .vector items => .ok items
  | _ => op.mismatch "list or vector" value

/-! ### Numbers -/

/-- Folds numbers from the left. -/
def foldNumbers (op : Operation) (f : Float → Float → Float) :
    Float → List Value → Except EvalCause Float
  | x, [] => .ok x
  | x, value :: others => do op.foldNumbers f (f x (← op.number value)) others

/-- Divides by each number in turn. -/
def divideBy (op : Operation) : Float → List Value → Except EvalCause Float
  | x, [] => .ok x
  | x, value :: others => do
    let divisor ← op.number value
    if divisor == 0 then .error .divisionByZero else op.divideBy (x / divisor) others

/-- Compares two numbers. -/
def compare (op : Operation) (holds : Float → Float → Bool) (args : List Value) : Answer := do
  let (a, b) ← op.two args
  let x ← op.number a
  let y ← op.number b
  plain (.boolean (holds x y))

/-- **Equality in the language.** -/
def equalValues : Value → Value → Bool
  | .number x, .number y => x == y
  | .string s, .string t => s == t
  | .keyword s, .keyword t => s == t
  | .boolean a, .boolean b => a == b
  | .nil, .nil => true
  | _, _ => false

/-! ### Music -/

/-- The numbers of a named chord or scale above a root. -/
def pattern (op : Operation) (kind : String) (table : List (String × Pattern)) (args : List Value) :
    Answer := do
  let (rootValue, nameValue) ← op.two args
  let root ← op.rootOf rootValue
  let patternName ← op.nameOf nameValue
  match table.lookup patternName with
  | none => .error (.unknownPattern kind patternName)
  | some steps => plain (.vector ((steps.above root).map .number))

/-- The key of a parameter: one leading colon is dropped. -/
def paramName (key : String) : String :=
  match key.toList with
  | ':' :: bare => String.ofList bare
  | _ => key

/-- The parameters in a map: its numbers. -/
def paramsOf (entries : Dict Value) : Dict Float :=
  Dict.ofEntries (entries.filterMap fun entry =>
    entry.2.number?.map fun x => (paramName entry.1, x))

/-- Starts a synth and answers its handle. -/
def trigger (engine : Engine) (synth : String) (params : Dict Float) : Answer :=
  .ok (.synthNode ⟨engine.nextNode, synth, params⟩, .command (.trigger synth params))

/-- An argument of a raw message. -/
def argumentOf (value : Value) : Except EvalCause Argument :=
  match value with
  | .number x => .ok (.number x)
  | .string s => .ok (.text s)
  | .keyword s => .ok (.text s)
  | _ => .error (.invalidArguments ("cannot convert " ++ value.typeName ++ " to OSC argument"))

/-- The parameters that the arguments of `synth` after its name give. -/
def synthParams : List Value → Except EvalCause (Dict Float)
  | [] => .ok []
  | .map entries :: _ => .ok (paramsOf entries)
  | value :: _ => synth.mismatch "map of params" value

/-- The name and the other argument of `synth`, which takes one or two. -/
def synthArguments (args : List Value) : Except EvalCause (Value × List Value) :=
  match args with
  | [a] => .ok (a, [])
  | [a, b] => .ok (a, [b])
  | _ => .error (.invalidArguments
      ("synth expects between 1 and 2 arguments, got " ++ toString args.length))

/-! ### Answers -/

/-- **What an operation answers** to its arguments, in a session with these settings and this engine. -/
def answer (settings : Settings) (engine : Engine) (op : Operation) (args : List Value) : Answer :=
  match op with
  | .add => do plain (.number (← op.foldNumbers (· + ·) 0 args))
  | .multiply => do plain (.number (← op.foldNumbers (· * ·) 1 args))
  | .subtract => do
    let (a, others) ← op.oneOrMore args
    let x ← op.number a
    if others.isEmpty then plain (.number (-x))
    else plain (.number (← op.foldNumbers (· - ·) x others))
  | .divide => do
    let (a, others) ← op.oneOrMore args
    plain (.number (← op.divideBy (← op.number a) others))
  | .equal => do
    let (a, b) ← op.two args
    plain (.boolean (equalValues a b))
  | .less => op.compare (fun a b => a < b) args
  | .greater => op.compare (fun a b => b < a) args
  | .print => .ok (.nil, .print (spaced (args.map Value.text)))
  | .list => plain (.list args)
  | .first => do plain ((← op.elementsOf (← op.one args)).headD .nil)
  | .rest => do plain (.list (← op.elementsOf (← op.one args)).tail)
  | .note => do plain (.number (← op.noteOf (← op.one args)))
  | .frequency => do plain (.number (Pitch.frequency (← op.number (← op.one args))))
  | .chord => op.pattern "chord" chords args
  | .scale => op.pattern "scale" scales args
  | .tempo =>
    match args with
    | [] => plain (.number engine.tempo)
    | [.number bpm] => .ok (.number bpm, .setTempo bpm)
    | _ => .error (.invalidArguments "bpm requires 0 or 1 number argument")
  | .playNote => do
    let pitch ← op.number (← op.one args)
    trigger engine (settings.synthName settings.defaultSynth)
      (Dict.ofEntries [("note", pitch), ("amp", settings.defaultAmp), ("pan", 0)])
  | .synth => do
    let (a, others) ← synthArguments args
    let full := settings.synthName (← op.nameOf a)
    trigger engine full (← synthParams others)
  | .free => do
    let id ← op.nodeOf (← op.one args)
    .ok (.nil, .command (.free id))
  | .setParam => do
    let (node, param, value) ← op.three args
    let id ← op.nodeOf node
    let paramName ← op.nameOf param
    let x ← op.number value
    .ok (.nil, .command (.setParam id paramName x))
  | .osc => do
    let (address, others) ← op.oneOrMore args
    let text ← op.nameOf address
    let arguments ← others.mapM argumentOf
    .ok (.nil, .command (.raw text arguments))
  | .sleep => do
    let seconds ← op.number (← op.one args)
    .ok (.nil, .sleep seconds)

end Operation

/-- **Calls a native of the language**: it fails without an effect, or its effect is carried out. -/
def callNative (op : Operation) (args : List Value) (span : Span) : Eval Value := fun s =>
  match op.answer s.settings s.engine args with
  | .error cause => .error ⟨cause, span⟩ s
  | .ok (value, effect) => .ok value (s.perform effect)

/-- **The natives of a host**, by number. Such a native gets the whole session and leaves whatever session
it likes, the counter of nested calls included. -/
class HostNatives where
  run : Nat → List Value → Span → Eval Value

/-- A host without natives of its own. It is the one meant where none is given. -/
instance (priority := low) HostNatives.none : HostNatives where
  run _ _ _ := pure .nil

/-- **Calls a native**, of the language or of the host. -/
def Native.call [HostNatives] (f : Native) (args : List Value) (span : Span) : Eval Value :=
  match f.code with
  | .operation op => callNative op args span
  | .host key => HostNatives.run key args span

/-- A session with these natives bound in the global frame. -/
def Session.withNatives (ops : List Operation) (s : Session) : Session :=
  ops.foldl (fun s op => s.bind globalFrame op.name (.function (.native ⟨op.name, .operation op⟩))) s

/-- **A fresh session.** -/
def Session.start (settings : Settings) (engine : Engine) : Session :=
  let constants := [("true", Value.boolean true), ("false", .boolean false), ("nil", .nil)]
  (constants.foldl (fun s c => s.bind globalFrame c.1 c.2) (Session.bare settings engine)).withNatives
    Operation.standard

end MusicLisp
