import MusicLisp.Dict
import MusicLisp.Form

/-!
# Values

What evaluation produces. Functions are either native or written in the language; the latter remember
the frame they were made in. A native is a name for an operation, or for something that the host does.
A synth node is a handle to a sound the engine was asked to start.

* `Value.text`: how a value is shown.
* `Value.same`: equality as the host sees it. Data are compared by structure, natives by name,
  functions of the language by identity, numbers as doubles, so that no value holding a `NaN` is the
  same as itself.
-/

namespace MusicLisp

/-- A frame of bindings, by the order in which the frames were made. -/
abbrev FrameId := Nat

/-- A function written in the language. Each one made has an identity of its own. -/
structure Lambda where
  id : Nat
  params : List String
  body : Form
  closure : FrameId
  name : Option String
deriving Inhabited

/-- What the natives of the language do. -/
inductive Operation where
  | add | subtract | multiply | divide | equal | less | greater
  | print | list | first | rest
  | note | frequency | chord | scale | tempo | playNote | synth | free | setParam | osc | sleep
deriving DecidableEq, Repr, Inhabited

/-- What stands behind a native: an operation of the language, or a function of the host by its number
there. -/
inductive Native.Code where
  | operation (op : Operation)
  | host (key : Nat)
deriving DecidableEq, Repr, Inhabited

/-- A native function: an operation or a function of the host, under a name. -/
structure Native where
  name : String
  code : Native.Code
deriving DecidableEq, Repr, Inhabited

/-- What can be called. -/
inductive Function where
  | lambda (lambda : Lambda)
  | native (native : Native)
deriving Inhabited

namespace Function

/-- The name of a function, if it has one. -/
def name? : Function → Option String
  | lambda f => f.name
  | native f => some f.name

/-- Natives are the same by name, functions of the language by identity. -/
def same : Function → Function → Bool
  | lambda f, lambda g => f.id == g.id
  | native f, native g => f.name == g.name
  | _, _ => false

end Function

/-- A handle to a sound that the engine was asked to start. -/
structure SynthNode where
  id : Int
  synth : String
  params : Dict Float
deriving Inhabited, BEq

/-- A value. A keyword's name has no colon; in the keys of a map a keyword keeps its colon and a string
stands as it is. -/
inductive Value where
  | number (value : Float)
  | string (text : String)
  | keyword (name : String)
  | boolean (value : Bool)
  | nil
  | function (function : Function)
  | list (items : List Value)
  | vector (items : List Value)
  | map (entries : List (String × Value))
  | synthNode (node : SynthNode)
deriving Inhabited

namespace Value

/-- The name of a value's type. -/
def typeName : Value → String
  | number _ => "number"
  | string _ => "string"
  | keyword _ => "keyword"
  | boolean _ => "boolean"
  | nil => "nil"
  | function _ => "function"
  | list _ => "list"
  | vector _ => "vector"
  | map _ => "map"
  | synthNode _ => "synth-node"

/-- Whether a condition with this value holds: all but `nil` and `false` do. -/
def truthy : Value → Bool
  | nil => false
  | boolean b => b
  | _ => true

/-- The number that a value is. -/
def number? : Value → Option Float
  | number x => some x
  | _ => none

/-- The text of a keyword or a string, used wherever a name is taken. -/
def name? : Value → Option String
  | keyword name => some name
  | string text => some text
  | _ => none

mutual

/-- **How a value is shown.** -/
def text : Value → String
  | number x => numberValueText x
  | string s => "\"" ++ s ++ "\""
  | keyword name => ":" ++ name
  | boolean b => if b then "true" else "false"
  | nil => "nil"
  | function f => "<function " ++ f.name?.getD "anonymous" ++ ">"
  | list items => Bracket.round.around (spaced (texts items))
  | vector items => Bracket.square.around (spaced (texts items))
  | map entries => Bracket.curly.around (", ".intercalate (entryTexts entries))
  | synthNode node => "<synth-node " ++ node.synth ++ " #" ++ toString node.id ++ ">"

/-- How the values of a list are shown. -/
def texts : List Value → List String
  | [] => []
  | value :: rest => text value :: texts rest

/-- How the entries of a map are shown. -/
def entryTexts : List (String × Value) → List String
  | [] => []
  | (key, value) :: rest => (key ++ " " ++ text value) :: entryTexts rest

end

mutual

/-- **Equality as the host sees it.** -/
def same : Value → Value → Bool
  | number x, number y => x == y
  | string s, string t => s == t
  | keyword s, keyword t => s == t
  | boolean a, boolean b => a == b
  | nil, nil => true
  | function f, function g => f.same g
  | list xs, list ys => sameItems xs ys
  | vector xs, vector ys => sameItems xs ys
  | map xs, map ys => sameEntries xs ys
  | synthNode m, synthNode n => m == n
  | _, _ => false

/-- Lists of the same values in the same order. -/
def sameItems : List Value → List Value → Bool
  | [], [] => true
  | x :: xs, y :: ys => same x y && sameItems xs ys
  | _, _ => false

/-- Maps of the same keys with the same values. -/
def sameEntries : List (String × Value) → List (String × Value) → Bool
  | [], [] => true
  | (k, x) :: xs, (l, y) :: ys => k == l && same x y && sameEntries xs ys
  | _, _ => false

end

end Value

end MusicLisp
