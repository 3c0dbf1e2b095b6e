import MusicLisp.Engine

/-!
# The journal

What happens during an evaluation is noted as events, in order. Each event has a level and a target,
and a line of text; a filter decides which events are shown.

* A filter is a level for all targets, or levels for targets by the beginning of their names; of several
  that fit a target the longest counts. Without one that fits, nothing is shown.
* A line reads `LEVEL SPAN: TARGET: TEXT`. The span of an evaluation, with the length of its source, is
  there if the filter shows the debug events of evaluations.
-/

namespace MusicLisp

/-- How much an event matters: a filter at one level shows those above it too. -/
inductive Level where
  | off | error | warn | info | debug | trace
deriving DecidableEq, Repr, Inhabited

namespace Level

/-- The levels in order. -/
def rank : Level → Nat
  | off => 0
  | error => 1
  | warn => 2
  | info => 3
  | debug => 4
  | trace => 5

/-- The level as it begins a line. -/
def text : Level → String
  | off => "OFF"
  | error => "ERROR"
  | warn => "WARN"
  | info => "INFO"
  | debug => "DEBUG"
  | trace => "TRACE"

/-- The level that a word of a filter names, in any case. -/
def ofText? (s : String) : Option Level :=
  match s.map Char.toLower with
  | "off" | "0" => some off
  | "error" | "1" => some error
  | "warn" | "2" => some warn
  | "info" | "3" => some info
  | "debug" | "4" => some debug
  | "trace" | "5" => some trace
  | _ => none

end Level

/-- What happened. -/
inductive Event where
  | parsed (forms : Nat)
  | failed (message : String)
  | printed (line : String)
  | slept (seconds : Float)
  | sent (message : Message)
  | tempoChanged (bpm : Float)
deriving BEq, Repr, Inhabited

/-- The target of the events that evaluations as a whole make. -/
def evaluationTarget : String := "cadenza::runtime"

namespace Event

/-- The last two digits of a number in base sixteen. -/
def hexDigits (n : Nat) : List Char := [Nat.digitChar (n / 16 % 16), Nat.digitChar (n % 16)]

/-- A character as a line of the journal shows it: a control character that a terminal would act on is
spelled out. Tabs and the ends of lines stay as they are. -/
def shownChar (c : Char) : List Char :=
  let n := c.toNat
  if n = 0x07 ∨ n = 0x08 ∨ n = 0x0C ∨ n = 0x1B ∨ n = 0x7F then '\\' :: 'x' :: hexDigits n
  else if 0x80 ≤ n ∧ n ≤ 0x9F then ['\\', 'u', '\x7b'] ++ hexDigits n ++ ['\x7d']
  else [c]

/-- A text with its control characters spelled out. -/
def shown (s : String) : String := String.ofList (s.toList.flatMap shownChar)

/-- How much an event matters. -/
def level : Event → Level
  | printed _ | slept _ => .info
  | _ => .debug

/-- Where an event belongs. -/
def target : Event → String
  | parsed _ | failed _ => evaluationTarget
  | printed _ => "cadenza::print"
  | slept _ => "cadenza::music"
  | sent _ | tempoChanged _ => "cadenza::audio"

/-- An event in words, its fields after them. The words are shown with their control characters spelled
out; a field is not. -/
def text : Event → String
  | parsed forms => "parsed forms=" ++ toString forms
  | failed message => "evaluation failed error=" ++ message
  | printed line => shown line
  | slept seconds => "sleep for " ++ numberText seconds ++ " seconds"
  | sent message => "offline engine " ++ shown message.text
  | tempoChanged bpm => "tempo changed bpm=" ++ numberLogText bpm

end Event

/-- A filter: beginnings of targets with the level to show there. -/
structure Filter where
  rules : List (String × Level)
deriving Repr, Inhabited

namespace Filter

/-- One part of a filter: a level, a target with a level, or a target alone, which shows all of it. -/
def rule? (part : String) : Option (String × Level) :=
  match part.splitOn "=" with
  | [word] =>
    match Level.ofText? word with
    | some level => some ("", level)
    | none => some (word, .trace)
  | [target, word] => (Level.ofText? word).map fun level => (target, level)
  | _ => none

/-- Reads a filter: parts with commas between. -/
def ofText (s : String) : Filter := ⟨(s.splitOn ",").filterMap rule?⟩

/-- The level shown for a target. -/
def levelFor (f : Filter) (target : String) : Level :=
  let fitting := f.rules.filter fun rule => rule.1.toList.isPrefixOf target.toList
  let longest := fitting.foldl (fun (best : Option (String × Level)) rule =>
    match best with
    | none => some rule
    | some old => if old.1.length ≤ rule.1.length then some rule else some old) none
  match longest with
  | some rule => rule.2
  | none => .off

/-- Whether the filter shows a level for a target. -/
def shows (f : Filter) (target : String) (level : Level) : Bool :=
  level.rank ≤ (f.levelFor target).rank

/-- The line of an event inside the evaluation of a source of `bytes` bytes. -/
def line (f : Filter) (bytes : Nat) (e : Event) : String :=
  let within := if f.shows evaluationTarget .debug then
    "eval\x7blen=" ++ toString bytes ++ "\x7d: " else ""
  e.level.text ++ " " ++ within ++ e.target ++ ": " ++ e.text

/-- The lines of the events that the filter shows. -/
def lines (f : Filter) (bytes : Nat) (events : List Event) : List String :=
  (events.filter fun e => f.shows e.target e.level).map (f.line bytes)

end Filter

end MusicLisp
