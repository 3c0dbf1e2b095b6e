import MusicLisp.Native

/-!
# Evaluation

Forms are evaluated in a frame. An atom is its value, a symbol what it is bound to; the elements of a
vector, of a map and of a call are evaluated from left to right. A list whose head is the name of a
special form follows the rule of that form; any other list is a call, whose head must come to a function
before its arguments are evaluated.

Calls of functions of the language may nest only so deep. `evalForm` is by recursion on the form, given
how the body of a called function is run; `evalWithin n` runs bodies with room for `n` calls inside each
other, and a call without room fails. So evaluation ends whatever the functions do.

* A form binds names only in the frame it is evaluated in, and in frames that it makes.
* `nested`: how deep calls are nested is counted up around each body and down again after it.

The room for calls is what the counter leaves at the start. It says what the counter says as long as no
native of the host changes the counter.
-/

namespace MusicLisp

/-- The special forms. -/
inductive SpecialForm where
  | define | defineFunction | bindLocals | choose | sequence | function
deriving DecidableEq, Repr, Inhabited

namespace SpecialForm

/-- The word that stands at the head of a special form. -/
def word : SpecialForm → String
  | define => "def"
  | defineFunction => "defn"
  | bindLocals => "let"
  | choose => "if"
  | sequence => "do"
  | function => "fn"

/-- All special forms. -/
def all : List SpecialForm := [define, defineFunction, bindLocals, choose, sequence, function]

/-- The words of all special forms, in increasing order. -/
def words : List String := (Dict.ofEntries (all.map fun form => (form.word, ()))).names

/-- The special form that a word is at the head of. -/
def ofWord? (word : String) : Option SpecialForm := all.find? fun form => form.word == word

end SpecialForm

/-- The special form whose word a form is. -/
def Form.special? (head : Form) : Option SpecialForm := head.symbol?.bind SpecialForm.ofWord?

namespace Eval

/-- A special form is not of the required shape. -/
def malformed {α : Type} (text : String) (span : Span) : Eval α :=
  fail (.invalidSpecialForm text) span

/-- What a name stands for in a frame. -/
def lookup (name : String) (span : Span) (frame : FrameId) : Eval Value := fun s =>
  match s.scopes.lookup frame name with
  | some value => .ok value s
  | none => .error ⟨.undefinedSymbol name, span⟩ s

/-- Binds a name in a frame. -/
def assign (frame : FrameId) (name : String) (value : Value) : Eval Unit := fun s =>
  .ok () (s.bind frame name value)

/-- Makes a frame with bindings inside another. -/
def enclose (outer : FrameId) (bindings : Dict Value) : Eval FrameId := fun s =>
  .ok s.scopes.next (s.enclose outer bindings)

/-- Makes a function. -/
def makeLambda (params : List String) (body : Form) (closure : FrameId) (name : Option String) :
    Eval Value := fun s =>
  .ok (.function (.lambda ⟨s.lambdas, params, body, closure, name⟩)) { s with lambdas := s.lambdas + 1 }

/-- Runs a step one call deeper. -/
def nested {α : Type} (step : Eval α) : Eval α := fun s =>
  match step { s with depth := s.depth + 1 } with
  | .ok a s => .ok a { s with depth := s.depth - 1 }
  | .error e s => .error e { s with depth := s.depth - 1 }

/-- The key that a value is in a map: a keyword keeps its colon, a string stands as it is. -/
def mapKey (value : Value) (span : Span) : Eval String :=
  match value with
  | .keyword name => pure (":" ++ name)
  | .string text => pure text
  | _ => fail (.invalidMapKey value.typeName) span

/-- The names of parameters, each of which must be a symbol. -/
def paramNames : List Form → Eval (List String)
  | [] => pure []
  | param :: rest =>
    match param.symbol? with
    | none => malformed "function parameters must be symbols" param.span
    | some name => do
      let names ← paramNames rest
      pure (name :: names)

/-- The parameters of a function, which the special form `form` must give as a vector. -/
def paramsOf (form : SpecialForm) (params : Form) : Eval (List String) :=
  match params with
  | .vector _ items => paramNames items
  | _ => malformed (form.word ++ " requires a vector of parameters") params.span

/-- How the body of a called function is run in its frame, if there is room for another call. -/
abbrev Body := Option (Form → FrameId → Eval Value)

/-- **Calls a function of the language:** in a frame of its own, inside the one it was made in, that
binds the parameters to the arguments. -/
def callLambda (run : Body) (f : Lambda) (args : List Value) (span : Span) : Eval Value := do
  if args.length ≠ f.params.length then
    fail (.arityMismatch (f.name.getD "function") f.params.length args.length) span
  else match run with
    | none => fun s => fail (.callDepthExceeded s.settings.maxCallDepth) span s
    | some run => do
      let frame ← enclose f.closure (Dict.ofEntries (f.params.zip args))
      nested (run f.body frame)

variable [HostNatives]

/-- Calls a function. -/
def call (run : Body) (f : Function) (args : List Value) (span : Span) : Eval Value :=
  match f with
  | .lambda f => callLambda run f args span
  | .native f => f.call args span

variable (run : Body)

mutual

/-- **Evaluates a form in a frame**, running the bodies of called functions with `run`. -/
def evalForm : Form → FrameId → Eval Value
  | .atom _ (.number x), _ => pure (.number x)
  | .atom _ (.string s), _ => pure (.string s)
  | .atom _ (.keyword name), _ => pure (.keyword name)
  | .atom span (.symbol name), frame => lookup name span frame
  | .vector _ items, frame => do
    let values ← evalAll items frame
    pure (.vector values)
  | .map _ entries, frame => evalEntries entries [] frame
  | .list _ [], _ => pure (.list [])
  | .list span (head :: operands), frame =>
    match head.special? with
    | some .define => evalDefine operands span frame
    | some .defineFunction => evalDefineFunction operands span frame
    | some .bindLocals => evalBindLocals operands span frame
    | some .choose => evalChoose operands span frame
    | some .sequence => evalSequence operands .nil frame
    | some .function => evalFunction operands span frame
    | none => do
      match ← evalForm head frame with
      | .function f => do
        let args ← evalAll operands frame
        call run f args span
      | value => fail (.notAFunction value.text) head.span

/-- Evaluates forms from left to right. -/
def evalAll : List Form → FrameId → Eval (List Value)
  | [], _ => pure []
  | form :: rest, frame => do
    let value ← evalForm form frame
    let values ← evalAll rest frame
    pure (value :: values)

/-- Evaluates the entries of a map, each key before its value, and puts them into `found`; a key is
checked after its value is evaluated. -/
def evalEntries : List (Form × Form) → Dict Value → FrameId → Eval Value
  | [], found, _ => pure (.map found)
  | (keyForm, valueForm) :: rest, found, frame => do
    let keyValue ← evalForm keyForm frame
    let value ← evalForm valueForm frame
    let key ← mapKey keyValue keyForm.span
    evalEntries rest (found.insert key value) frame

/-- `(def name value)` binds a name in the current frame. -/
def evalDefine : List Form → Span → FrameId → Eval Value
  | [nameForm, valueForm], _, frame =>
    match nameForm.symbol? with
    | none => malformed "def requires a symbol as first argument" nameForm.span
    | some name => do
      let value ← evalForm valueForm frame
      assign frame name value
      pure value
  | _, span, _ => malformed "def requires exactly 2 arguments" span

/-- `(defn name [params] body)` makes a function and binds it to its name. -/
def evalDefineFunction : List Form → Span → FrameId → Eval Value
  | [nameForm, params, body], _, frame =>
    match nameForm.symbol? with
    | none => malformed "defn requires a symbol as first argument" nameForm.span
    | some name => do
      let names ← paramsOf .defineFunction params
      let value ← makeLambda names body frame (some name)
      assign frame name value
      pure value
  | _, span, _ => malformed "defn requires exactly 3 arguments" span

/-- `(let [name value ...] body)` evaluates its body in a frame of its own, where each binding sees
those before it. -/
def evalBindLocals : List Form → Span → FrameId → Eval Value
  | [.vector bindingsSpan bindings, body], _, frame => do
    if bindings.length % 2 ≠ 0 then
      malformed "let bindings must be an even number of forms" bindingsSpan
    else
      let inner ← enclose frame []
      evalBindings bindings inner
      evalForm body inner
  | [bindings, _], _, _ => malformed "let requires a vector of bindings" bindings.span
  | _, span, _ => malformed "let requires exactly 2 arguments" span

/-- Evaluates the bindings of a `let` in its frame. -/
def evalBindings : List Form → FrameId → Eval Unit
  | nameForm :: valueForm :: rest, frame =>
    match nameForm.symbol? with
    | none => malformed "let binding names must be symbols" nameForm.span
    | some name => do
      let value ← evalForm valueForm frame
      assign frame name value
      evalBindings rest frame
  | _, _ => pure ()

/-- `(if condition consequent alternate)` evaluates one of two forms; a missing alternate is `nil`. -/
def evalChoose : List Form → Span → FrameId → Eval Value
  | [condition, consequent], _, frame => do
    if (← evalForm condition frame).truthy then evalForm consequent frame else pure .nil
  | [condition, consequent, alternate], _, frame => do
    if (← evalForm condition frame).truthy then evalForm consequent frame
    else evalForm alternate frame
  | _, span, _ => malformed "if requires 2 or 3 arguments" span

/-- `(do form ...)` comes to its last form; `last` is what the forms before came to. -/
def evalSequence : List Form → Value → FrameId → Eval Value
  | [], last, _ => pure last
  | form :: rest, _, frame => do
    let value ← evalForm form frame
    evalSequence rest value frame

/-- `(fn [params] body)` makes a function without a name. -/
def evalFunction : List Form → Span → FrameId → Eval Value
  | [params, body], _, frame => do
    let names ← paramsOf .function params
    makeLambda names body frame none
  | _, span, _ => malformed "fn requires exactly 2 arguments" span

end

/-- How bodies are run with room for `n` calls inside each other. -/
def bodyWithin : Nat → Body
  | 0 => none
  | n + 1 => some fun form frame => evalForm (bodyWithin n) form frame

/-- Evaluates a form with room for `n` calls inside each other. -/
def evalWithin (n : Nat) (form : Form) (frame : FrameId) : Eval Value :=
  evalForm (bodyWithin n) form frame

end Eval

namespace Session

/-- The calls that may still be nested in those going on. -/
def room (s : Session) : Nat := s.settings.maxCallDepth - s.depth

variable [HostNatives]

/-- **Evaluates a form in a frame of a session.** -/
def eval (form : Form) (frame : FrameId) : Eval Value := fun s => Eval.evalWithin s.room form frame s

/-- **Calls a function in a session**, blaming `span` for what goes wrong. -/
def apply (f : Function) (args : List Value) (span : Span) : Eval Value := fun s =>
  Eval.call (Eval.bodyWithin s.room) f args span s

/-- Evaluates forms one after the other in a frame; `last` is what those before came to. -/
def evalForms : List Form → Value → FrameId → Eval Value
  | [], last, _ => pure last
  | form :: rest, _, frame => do
    let value ← eval form frame
    evalForms rest value frame

end Session

end MusicLisp
