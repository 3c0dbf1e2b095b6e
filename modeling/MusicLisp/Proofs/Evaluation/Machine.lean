import MusicLisp.Eval
import Mathlib.Logic.Function.Iterate

/-!
# A machine that evaluates

Evaluation, one step at a time. A moment of it (`Machine`) says what is done next, keeps a stack of what
is pending for the value of the form under evaluation, and holds the session. Each turn of a loop over
elements, entries, bindings or forms in sequence is a step, and so is each visit of a form and each call.

The machine knows nothing of how much room there is for calls. It enters the body of whatever function it
finds in the session, after a look at the counter of nested calls, counts up on the way in and down on the
way out, by an answer or by a failure. A native of the host is one step, and may leave any counter: what the
machine then finds there is what it goes by. That it stops is shown in `Termination`.

* `step`: one step; a moment with nothing pending and an answer or a failure stays as it is.
* `Reaches`: some number of steps leads from one moment to another.
* `nesting`: how many bodies of called functions are under evaluation.
-/

namespace MusicLisp

/-- What forms are evaluated from left to right for: a vector, or the arguments of a call. -/
inductive Purpose where
  | vector
  | arguments (f : Function) (span : Span)

/-- What is pending for the value of a form: the rest of a form around it, or, for the body of a called
function, counting down. -/
inductive Pending where
  | element (purpose : Purpose) (done : List Value) (rest : List Form) (frame : FrameId)
  | key (found : Dict Value) (span : Span) (valueForm : Form) (rest : List (Form × Form))
      (frame : FrameId)
  | entry (found : Dict Value) (key : Value) (span : Span) (rest : List (Form × Form))
      (frame : FrameId)
  | head (headSpan : Span) (operands : List Form) (span : Span) (frame : FrameId)
  | define (name : String) (frame : FrameId)
  | binding (name : String) (rest : List Form) (body : Form) (frame : FrameId)
  | condition (consequent : Form) (alternate : Option Form) (frame : FrameId)
  | sequence (rest : List Form) (frame : FrameId)
  | body

/-- What is pending is counting down at the end of a body. -/
def Pending.isBody : Pending → Bool
  | body => true
  | _ => false

theorem Pending.isBody_eq_false {p : Pending} (h : p ≠ .body) : p.isBody = false := by
  cases p with
  | body => exact absurd rfl h
  | _ => rfl

/-- What is done next. -/
inductive Control where
  | form (form : Form) (frame : FrameId)
  | elements (purpose : Purpose) (done : List Value) (rest : List Form) (frame : FrameId)
  | entries (found : Dict Value) (rest : List (Form × Form)) (frame : FrameId)
  | bindings (rest : List Form) (body : Form) (frame : FrameId)
  | sequence (last : Value) (rest : List Form) (frame : FrameId)
  | call (f : Function) (args : List Value) (span : Span)
  | answer (value : Value)
  | failure (error : EvalError)

/-- A moment of an evaluation. -/
structure Machine where
  control : Control
  pending : List Pending
  session : Session

namespace Machine

open Eval

/-- The moment after a step that evaluates nothing inside; `go` is what is done with its answer. -/
def ofResult {α : Type} (go : α → Control) (k : List Pending) :
    EStateM.Result EvalError Session α → Machine
  | .ok a s => ⟨go a, k, s⟩
  | .error e s => ⟨.failure e, k, s⟩

/-- The moment after a step that answers a value. -/
def after (m : Eval Value) (k : List Pending) (s : Session) : Machine := ofResult .answer k (m s)

theorem ofResult_answer_injective {k : List Pending} {r r' : EStateM.Result EvalError Session Value}
    (h : ofResult .answer k r = ofResult .answer k r') : r = r' := by
  cases r <;> cases r' <;> cases h <;> rfl

/-- How many bodies of called functions are under evaluation. -/
def nesting (m : Machine) : Nat := m.pending.countP Pending.isBody

variable [HostNatives]

/-- The first step of a special form. `defn` and `fn` evaluate nothing and are done with it. -/
def enterSpecial (special : SpecialForm) (operands : List Form) (span : Span) (frame : FrameId)
    (k : List Pending) (s : Session) : Machine :=
  match special, operands with
  | .define, [nameForm, valueForm] =>
    match nameForm.symbol? with
    | some name => ⟨.form valueForm frame, .define name frame :: k, s⟩
    | none => after (malformed "def requires a symbol as first argument" nameForm.span) k s
  | .define, _ => after (malformed "def requires exactly 2 arguments" span) k s
  | .defineFunction, _ => after (evalDefineFunction none operands span frame) k s
  | .bindLocals, [.vector bindingsSpan bindings, body] =>
    if bindings.length % 2 ≠ 0 then
      after (malformed "let bindings must be an even number of forms" bindingsSpan) k s
    else ⟨.bindings bindings body s.scopes.next, k, s.enclose frame []⟩
  | .bindLocals, [bindings, _] =>
    after (malformed "let requires a vector of bindings" bindings.span) k s
  | .bindLocals, _ => after (malformed "let requires exactly 2 arguments" span) k s
  | .choose, [condition, consequent] =>
    ⟨.form condition frame, .condition consequent none frame :: k, s⟩
  | .choose, [condition, consequent, alternate] =>
    ⟨.form condition frame, .condition consequent (some alternate) frame :: k, s⟩
  | .choose, _ => after (malformed "if requires 2 or 3 arguments" span) k s
  | .sequence, _ => ⟨.sequence .nil operands frame, k, s⟩
  | .function, _ => after (evalFunction none operands span frame) k s

/-- The first step of a form. -/
def enter (form : Form) (frame : FrameId) (k : List Pending) (s : Session) : Machine :=
  match form with
  | .atom _ (.number x) => ⟨.answer (.number x), k, s⟩
  | .atom _ (.string t) => ⟨.answer (.string t), k, s⟩
  | .atom _ (.keyword name) => ⟨.answer (.keyword name), k, s⟩
  | .atom span (.symbol name) => after (lookup name span frame) k s
  | .vector _ items => ⟨.elements .vector [] items frame, k, s⟩
  | .map _ entries => ⟨.entries [] entries frame, k, s⟩
  | .list _ [] => ⟨.answer (.list []), k, s⟩
  | .list span (head :: operands) =>
    match head.special? with
    | some special => enterSpecial special operands span frame k s
    | none => ⟨.form head frame, .head head.span operands span frame :: k, s⟩

/-- A call. A native does what it does in one step. The body of a function of the language is entered if
the counter is below the limit. -/
def enterCall (f : Function) (args : List Value) (span : Span) (k : List Pending) (s : Session) :
    Machine :=
  match f with
  | .native f => after (f.call args span) k s
  | .lambda f =>
    if args.length ≠ f.params.length then
      after (fail (.arityMismatch (f.name.getD "function") f.params.length args.length) span) k s
    else if s.settings.maxCallDepth ≤ s.depth then
      after (fail (.callDepthExceeded s.settings.maxCallDepth) span) k s
    else
      ⟨.form f.body s.scopes.next, .body :: k,
        { s.enclose f.closure (Dict.ofEntries (f.params.zip args)) with depth := s.depth + 1 }⟩

/-- Goes on with the value of a form. -/
def resume (value : Value) (p : Pending) (k : List Pending) (s : Session) : Machine :=
  match p with
  | .element purpose done rest frame => ⟨.elements purpose (done ++ [value]) rest frame, k, s⟩
  | .key found span valueForm rest frame =>
    ⟨.form valueForm frame, .entry found value span rest frame :: k, s⟩
  | .entry found keyValue span rest frame =>
    ofResult (fun key => .entries (found.insert key value) rest frame) k (mapKey keyValue span s)
  | .head headSpan operands span frame =>
    match value with
    | .function f => ⟨.elements (.arguments f span) [] operands frame, k, s⟩
    | value => after (fail (.notAFunction value.text) headSpan) k s
  | .define name frame => ⟨.answer value, k, s.bind frame name value⟩
  | .binding name rest body frame => ⟨.bindings rest body frame, k, s.bind frame name value⟩
  | .condition consequent alternate frame =>
    if value.truthy then ⟨.form consequent frame, k, s⟩
    else match alternate with
      | some alternate => ⟨.form alternate frame, k, s⟩
      | none => ⟨.answer .nil, k, s⟩
  | .sequence rest frame => ⟨.sequence value rest frame, k, s⟩
  | .body => ⟨.answer value, k, { s with depth := s.depth - 1 }⟩

/-- **One step.** A failure gives up what is pending, and counts down where it leaves a body. -/
def step : Machine → Machine
  | ⟨.form form frame, k, s⟩ => enter form frame k s
  | ⟨.elements purpose done (form :: rest) frame, k, s⟩ =>
    ⟨.form form frame, .element purpose done rest frame :: k, s⟩
  | ⟨.elements .vector done [] _, k, s⟩ => ⟨.answer (.vector done), k, s⟩
  | ⟨.elements (.arguments f span) done [] _, k, s⟩ => ⟨.call f done span, k, s⟩
  | ⟨.entries found ((keyForm, valueForm) :: rest) frame, k, s⟩ =>
    ⟨.form keyForm frame, .key found keyForm.span valueForm rest frame :: k, s⟩
  | ⟨.entries found [] _, k, s⟩ => ⟨.answer (.map found), k, s⟩
  | ⟨.bindings (nameForm :: valueForm :: rest) body frame, k, s⟩ =>
    match nameForm.symbol? with
    | some name => ⟨.form valueForm frame, .binding name rest body frame :: k, s⟩
    | none => after (malformed "let binding names must be symbols" nameForm.span) k s
  | ⟨.bindings _ body frame, k, s⟩ => ⟨.form body frame, k, s⟩
  | ⟨.sequence _ (form :: rest) frame, k, s⟩ => ⟨.form form frame, .sequence rest frame :: k, s⟩
  | ⟨.sequence last [] _, k, s⟩ => ⟨.answer last, k, s⟩
  | ⟨.call f args span, k, s⟩ => enterCall f args span k s
  | ⟨.answer value, p :: k, s⟩ => resume value p k s
  | ⟨.failure e, .body :: k, s⟩ => ⟨.failure e, k, { s with depth := s.depth - 1 }⟩
  | ⟨.failure e, _ :: k, s⟩ => ⟨.failure e, k, s⟩
  | m => m

/-- With nothing pending an answer or a failure is the end. -/
theorem step_ofResult_nil (result : EStateM.Result EvalError Session Value) :
    step (ofResult .answer [] result) = ofResult .answer [] result := by
  cases result <;> rfl

/-- Some number of steps leads from one moment to another. -/
def Reaches (m m' : Machine) : Prop := ∃ n, step^[n] m = m'

namespace Reaches

variable {a b c : Machine}

theorem refl (m : Machine) : Reaches m m := ⟨0, rfl⟩

theorem trans (h : Reaches a b) (h' : Reaches b c) : Reaches a c := by
  obtain ⟨n, rfl⟩ := h
  obtain ⟨n', rfl⟩ := h'
  exact ⟨n' + n, Function.iterate_add_apply step n' n a⟩

theorem of_step (h : Reaches (step a) b) : Reaches a b := trans ⟨1, rfl⟩ h

theorem single (m : Machine) : Reaches m (step m) := ⟨1, rfl⟩

/-- A moment that stays as it is comes after all others. -/
theorem of_fixed (h : Reaches a b) (hb : step b = b) (h' : Reaches a c) : Reaches c b := by
  obtain ⟨n, rfl⟩ := h
  obtain ⟨n', rfl⟩ := h'
  refine ⟨n, ?_⟩
  rw [← Function.iterate_add_apply, Nat.add_comm, Function.iterate_add_apply, Function.iterate_fixed hb]

/-- Two moments that stay as they are and come after the same moment are one. -/
theorem eq_of_fixed (h : Reaches a b) (hb : step b = b) (h' : Reaches a c) (hc : step c = c) : b = c := by
  obtain ⟨n, hn⟩ := of_fixed h hb h'
  rw [← hn]
  exact Function.iterate_fixed hc n

end Reaches

end Machine

end MusicLisp
