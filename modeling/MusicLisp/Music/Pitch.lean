import MusicLisp.Number.Decimal

/-!
# Pitches, chords and scales

A note name is a letter from `A` to `G` in either case, an optional `#` or `b`, and an octave of one or
more digits. Its number counts semitones, twelve to the octave, with `A4` as 69. Numbers are those that
fit 64 bits with a sign: an octave beyond them makes the name malformed, and so does any step on the way
to its number that goes beyond them. A chord or a scale is a pattern of semitones above its root, under a
name.
-/

namespace MusicLisp.Pitch

/-- The semitones from C to each note of an octave. -/
def offsets : List (String × Int) := [
  ("C", 0), ("C#", 1), ("Db", 1), ("D", 2), ("D#", 3), ("Eb", 3), ("E", 4), ("F", 5), ("F#", 6),
  ("Gb", 6), ("G", 7), ("G#", 8), ("Ab", 8), ("A", 9), ("A#", 10), ("Bb", 10), ("B", 11)]

/-- The largest number that fits. -/
def largest : Int := Int.pow 2 63 - 1

/-- Why a text names no pitch. -/
inductive Fault where
  | malformed (text : String)
  | unknown (note : String)
deriving DecidableEq, Repr, Inhabited

/-- What is wrong, in words. -/
def Fault.message : Fault → String
  | malformed text => "invalid note format: " ++ text
  | unknown note => "invalid note: " ++ note

/-- The accidental at the front of the rest of a name, and the octave after it. -/
def splitAccidental : List Char → List Char × List Char
  | '#' :: r => (['#'], r)
  | 'b' :: r => (['b'], r)
  | r => ([], r)

/-- A number on the way, if it is not beyond those that fit; none is below zero. -/
def fit? (n : Int) : Option Int := if largest < n then none else some n

/-- The number of a note that stands so far above C in an octave, if every step on the way to it fits. -/
def number? (octave offset : Int) : Option Int := do
  let above ← fit? (octave + 1)
  let base ← fit? (above * 12)
  fit? (base + offset)

/-- **The number of a note name.** -/
def ofName (text : String) : Except Fault Int :=
  match text.toList with
  | [] => .error (.malformed text)
  | c :: rest =>
    let letter := c.toUpper
    let (accidental, octaveDigits) := splitAccidental rest
    let octave : Int := Decimal.ofDigits octaveDigits
    if !('A' ≤ letter && letter ≤ 'G') then .error (.malformed text)
    else if octaveDigits.isEmpty || !octaveDigits.all Char.isDigit then .error (.malformed text)
    else if largest < octave then .error (.malformed text)
    else
      let name := String.ofList (letter :: accidental)
      match offsets.lookup name with
      | none => .error (.unknown name)
      | some offset =>
        match number? octave offset with
        | none => .error (.malformed text)
        | some number => .ok number

/-- The frequency in hertz of a pitch number, which need not be whole, in equal temperament. -/
def frequency (number : Float) : Float := 440 * Float.pow 2 ((number - 69) / 12)

end MusicLisp.Pitch

namespace MusicLisp

/-- Semitones above a root, in rising order. -/
abbrev Pattern := List Nat

/-- The chords by name. -/
def chords : List (String × Pattern) := [
  ("maj", [0, 4, 7]), ("min", [0, 3, 7]), ("maj7", [0, 4, 7, 11]), ("min7", [0, 3, 7, 10]),
  ("dom7", [0, 4, 7, 10]), ("dim", [0, 3, 6]), ("aug", [0, 4, 8]), ("sus2", [0, 2, 7]),
  ("sus4", [0, 5, 7])]

/-- The scales by name. -/
def scales : List (String × Pattern) := [
  ("major", [0, 2, 4, 5, 7, 9, 11]), ("minor", [0, 2, 3, 5, 7, 8, 10]),
  ("pentatonic", [0, 2, 4, 7, 9]), ("blues", [0, 3, 5, 6, 7, 10]),
  ("chromatic", [0, 1, 2, 3, 4, 5, 6, 7, 8, 9, 10, 11])]

/-- The numbers of a pattern above a root. -/
def Pattern.above (root : Float) (p : Pattern) : List Float := p.map fun n => root + Float.ofNat n

end MusicLisp
