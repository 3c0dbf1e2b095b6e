import MusicLisp.Proofs.Evaluation.Moves
import MusicLisp.Proofs.Native.Spanless

/-!
# The machine without spans

A step of the machine looks at no span. It may put one into an error or into a function, and that is all that spans
are for.

* `Machine.spanless`: a moment of an evaluation with all its spans forgotten.
* `spanless_here`, `spanless_push`: most steps come to a moment in the same session, with as much pending or with
  one thing more, so it is enough to look at what is done next.
* `step_spanless`: **a step comes to the same, up to spans**, with and without them.

Forgetting is done a second time after the step, since the step without spans may make a function and number it.
-/

namespace MusicLisp

/-- The error with its span forgotten. -/
def EvalError.spanless (e : EvalError) : EvalError := { e with span := .point 0 }

@[simp] theorem EvalError.spanless_spanless (e : EvalError) : e.spanless.spanless = e.spanless := rfl

/-- The session with the spans in its functions forgotten, how many functions were made, and the journal. -/
def Session.spanless (s : Session) : Session :=
  { s with scopes := s.scopes.spanless, lambdas := 0, journal := #[] }

@[simp] theorem Session.spanless_spanless (s : Session) : s.spanless.spanless = s.spanless := by
  unfold Session.spanless
  rw [Scopes.spanless_spanless]

/-- What is pending for elements, without spans. -/
def Purpose.spanless : Purpose → Purpose
  | vector => vector
  | arguments f _ => arguments f.spanless (.point 0)

@[simp] theorem Purpose.spanless_spanless (p : Purpose) : p.spanless.spanless = p.spanless := by
  cases p with
  | vector => rfl
  | arguments f span => simp only [spanless, Function.spanless_spanless]

/-- What is pending, without spans. -/
def Pending.spanless : Pending → Pending
  | element purpose done rest frame =>
    element purpose.spanless (Value.spanlessItems done) (Form.bares rest) frame
  | key found _ valueForm rest frame =>
    key (Value.spanlessEntries found) (.point 0) valueForm.bare (Form.entryBares rest) frame
  | entry found keyValue _ rest frame =>
    entry (Value.spanlessEntries found) keyValue.spanless (.point 0) (Form.entryBares rest) frame
  | head _ operands _ frame => head (.point 0) (Form.bares operands) (.point 0) frame
  | define name frame => define name frame
  | binding name rest last frame => binding name (Form.bares rest) last.bare frame
  | condition consequent alternate frame => condition consequent.bare (alternate.map Form.bare) frame
  | sequence rest frame => sequence (Form.bares rest) frame
  | body => body

@[simp] theorem Pending.spanless_spanless (p : Pending) : p.spanless.spanless = p.spanless := by
  cases p with
  | condition consequent alternate frame => cases alternate <;> simp [spanless]
  | element | key | entry | head | define | binding | sequence | body => simp [spanless]

/-- What is done next, without spans. -/
def Control.spanless : Control → Control
  | form f frame => form f.bare frame
  | elements purpose done rest frame =>
    elements purpose.spanless (Value.spanlessItems done) (Form.bares rest) frame
  | entries found rest frame => entries (Value.spanlessEntries found) (Form.entryBares rest) frame
  | bindings rest body frame => bindings (Form.bares rest) body.bare frame
  | sequence last rest frame => sequence last.spanless (Form.bares rest) frame
  | call f args _ => call f.spanless (Value.spanlessItems args) (.point 0)
  | answer value => answer value.spanless
  | failure e => failure e.spanless

@[simp] theorem Control.spanless_spanless (c : Control) : c.spanless.spanless = c.spanless := by
  cases c <;> simp [spanless]

namespace Machine

open Eval

/-- **A moment with all its spans forgotten.** -/
def spanless (m : Machine) : Machine :=
  ⟨m.control.spanless, m.pending.map Pending.spanless, m.session.spanless⟩

@[simp] theorem map_spanless_spanless (k : List Pending) :
    (k.map Pending.spanless).map Pending.spanless = k.map Pending.spanless := by
  rw [List.map_map]
  exact congrArg (fun f => k.map f) (funext Pending.spanless_spanless)

@[simp] theorem spanless_spanless (m : Machine) : m.spanless.spanless = m.spanless := by
  simp [spanless]

/-! ### Parts that evaluate nothing inside -/

theorem paramNames_bares (params : List Form) :
    (∃ names, paramNames params = pure names ∧ paramNames (Form.bares params) = pure names) ∨
    ∃ text span, paramNames params = malformed text span ∧
      paramNames (Form.bares params) = malformed text (.point 0) := by
  induction params with
  | nil => exact .inl ⟨[], rfl, rfl⟩
  | cons param rest ih =>
    unfold Form.bares paramNames
    rw [Form.symbol?_bare, Form.span_bare]
    cases param.symbol? with
    | none => exact .inr ⟨_, _, rfl, rfl⟩
    | some name =>
      obtain ⟨names, h, h'⟩ | ⟨text, span, h, h'⟩ := ih
      · exact .inl ⟨name :: names, by dsimp only; rw [h]; rfl, by dsimp only; rw [h']; rfl⟩
      · exact .inr ⟨text, span, by dsimp only; rw [h]; rfl, by dsimp only; rw [h']; rfl⟩

theorem paramsOf_bare (form : SpecialForm) (params : Form) :
    (∃ names, paramsOf form params = pure names ∧ paramsOf form params.bare = pure names) ∨
    ∃ text span, paramsOf form params = malformed text span ∧
      paramsOf form params.bare = malformed text (.point 0) := by
  cases params with
  | vector span items => exact paramNames_bares items
  | atom | list | map => exact .inr ⟨_, _, rfl, rfl⟩

section

variable (operands : List Form) (span : Span) (frame : FrameId)

theorem evalDefineFunction_bares : (∃ name params body,
      evalDefineFunction none operands span frame = defineLambda name params body frame ∧
      evalDefineFunction none (Form.bares operands) (.point 0) frame =
        defineLambda name params body.bare frame) ∨
    ∃ text at', evalDefineFunction none operands span frame = malformed text at' ∧
      evalDefineFunction none (Form.bares operands) (.point 0) frame = malformed text (.point 0) := by
  match operands with
  | [nameForm, paramsForm, body] =>
    unfold evalDefineFunction
    dsimp only [Form.bares]
    rw [Form.symbol?_bare, Form.span_bare]
    cases nameForm.symbol? with
    | none => exact .inr ⟨_, _, rfl, rfl⟩
    | some name =>
      obtain ⟨params, h, h'⟩ | ⟨text, at', h, h'⟩ := paramsOf_bare .defineFunction paramsForm
      · exact .inl ⟨name, params, body, by dsimp only; rw [h]; rfl, by dsimp only; rw [h']; rfl⟩
      · exact .inr ⟨text, at', by dsimp only; rw [h]; rfl, by dsimp only; rw [h']; rfl⟩
  | [] | [_] | [_, _] | _ :: _ :: _ :: _ :: _ => exact .inr ⟨_, _, rfl, rfl⟩

theorem evalFunction_bares : (∃ params body,
      evalFunction none operands span frame = makeLambda params body frame none ∧
      evalFunction none (Form.bares operands) (.point 0) frame = makeLambda params body.bare frame none) ∨
    ∃ text at', evalFunction none operands span frame = malformed text at' ∧
      evalFunction none (Form.bares operands) (.point 0) frame = malformed text (.point 0) := by
  match operands with
  | [paramsForm, body] =>
    unfold evalFunction
    dsimp only [Form.bares]
    obtain ⟨params, h, h'⟩ | ⟨text, at', h, h'⟩ := paramsOf_bare .function paramsForm
    · exact .inl ⟨params, body, by rw [h]; rfl, by rw [h']; rfl⟩
    · exact .inr ⟨text, at', by rw [h]; rfl, by rw [h']; rfl⟩
  | [] | [_] | _ :: _ :: _ :: _ => exact .inr ⟨_, _, rfl, rfl⟩

end

/-! ### One step -/

theorem spanless_eq {c c' : Control} {k k' : List Pending} {s s' : Session} (hc : c'.spanless = c.spanless)
    (hk : k'.map Pending.spanless = k.map Pending.spanless) (hs : s'.spanless = s.spanless) :
    (Machine.mk c' k' s').spanless = (Machine.mk c k s).spanless := by
  unfold spanless
  dsimp only
  rw [hc, hk, hs]

section

variable (k : List Pending) (s : Session)

/-- What comes to a moment of the same up to spans, with nothing more pending and in the same session. -/
theorem spanless_here {c c' : Control} (hc : c'.spanless = c.spanless) :
    (Machine.mk c' (k.map Pending.spanless) s.spanless).spanless = (Machine.mk c k s).spanless :=
  spanless_eq hc (map_spanless_spanless k) s.spanless_spanless

theorem spanless_push {c c' : Control} {p p' : Pending} (hc : c'.spanless = c.spanless)
    (hp : p'.spanless = p.spanless) :
    (Machine.mk c' (p' :: k.map Pending.spanless) s.spanless).spanless = (Machine.mk c (p :: k) s).spanless := by
  refine spanless_eq hc ?_ s.spanless_spanless
  rw [List.map_cons, List.map_cons, hp, map_spanless_spanless]

theorem fail_spanless (cause : EvalCause) (span : Span) :
    (after (fail cause (.point 0)) (k.map Pending.spanless) s.spanless).spanless =
      (after (fail cause span) k s).spanless := spanless_here k s rfl

theorem perform_spanless (x : Effect) : (s.spanless.perform x).spanless = (s.perform x).spanless := by
  cases x with
  | print line =>
    have hlog : s.spanless.settings.logPrinted = s.settings.logPrinted := rfl
    unfold Session.perform
    dsimp only
    rw [hlog]
    split <;> simp [Session.spanless, Session.note, Session.put]
  | none | sleep | command | setTempo =>
    simp [Session.perform, Session.spanless, Session.note]

theorem callNative_spanless (op : Operation) (args : List Value) (span : Span) :
    (after (callNative op (Value.spanlessItems args) (.point 0)) (k.map Pending.spanless) s.spanless).spanless =
      (after (callNative op args span) k s).spanless := by
  have hanswer := op.answer_spanless s.settings s.engine args
  have hsettings : s.spanless.settings = s.settings := rfl
  have hengine : s.spanless.engine = s.engine := rfl
  unfold after callNative
  rw [hsettings, hengine, Value.spanlessItems_eq_map, hanswer]
  cases op.answer s.settings s.engine args with
  | error cause => exact spanless_here k s rfl
  | ok answer =>
    exact spanless_eq (congrArg Control.answer (Value.spanless_spanless _)) (map_spanless_spanless k)
      (perform_spanless s answer.2)

theorem lookup_spanless (name : String) (span : Span) (frame : FrameId) :
    (after (lookup name (.point 0) frame) (k.map Pending.spanless) s.spanless).spanless =
      (after (lookup name span frame) k s).spanless := by
  have hlookup := s.scopes.lookup_spanless frame name
  have hscopes : s.spanless.scopes = s.scopes.spanless := rfl
  unfold after lookup
  rw [hscopes, hlookup]
  cases s.scopes.lookup frame name with
  | none => exact spanless_here k s rfl
  | some value => exact spanless_here k s (congrArg Control.answer (Value.spanless_spanless _))

theorem mapKey_spanless {go go' : String → Control} (hgo : ∀ key, (go' key).spanless = (go key).spanless)
    (value : Value) (span : Span) :
    (ofResult go' (k.map Pending.spanless) (mapKey value.spanless (.point 0) s.spanless)).spanless =
      (ofResult go k (mapKey value span s)).spanless := by
  cases value with
  | keyword | string => exact spanless_here k s (hgo _)
  | number | boolean | nil | function | list | vector | map | synthNode => exact spanless_here k s rfl

/-- The same name bound to the same value, up to spans. -/
theorem bind_spanless (frame : FrameId) (name : String) {value value' : Value}
    (hvalue : value'.spanless = value.spanless) :
    (s.spanless.bind frame name value').spanless = (s.bind frame name value).spanless := by
  have hscopes : (s.scopes.spanless.bind frame name value').spanless =
      (s.scopes.bind frame name value).spanless := by
    rw [← Scopes.bind_spanless, hvalue, Scopes.spanless_spanless, Scopes.bind_spanless]
  exact congrArg (fun scopes => { s with scopes, lambdas := 0, journal := #[] }) hscopes

/-- A frame with the same bindings, up to spans. -/
theorem enclose_spanless (outer : FrameId) {bindings bindings' : Dict Value}
    (h : bindings'.mapValues Value.spanless = bindings.mapValues Value.spanless) :
    (s.spanless.enclose outer bindings').spanless = (s.enclose outer bindings).spanless := by
  have hscopes : (s.scopes.spanless.enclose outer bindings').spanless =
      (s.scopes.enclose outer bindings).spanless := by
    rw [← Scopes.enclose_spanless, h, Scopes.spanless_spanless, Scopes.enclose_spanless]
  exact congrArg (fun scopes => { s with scopes, lambdas := 0, journal := #[] }) hscopes

theorem spanless_lambda (id id' : Nat) (params : List String) (body : Form) (closure : FrameId)
    (name : Option String) : (Value.function (.lambda ⟨id', params, body.bare, closure, name⟩)).spanless =
      (Value.function (.lambda ⟨id, params, body, closure, name⟩)).spanless :=
  congrArg (fun body => Value.function (.lambda ⟨0, params, body, closure, name⟩)) body.bare_bare

theorem makeLambda_spanless (params : List String) (body : Form) (closure : FrameId) (name : Option String) :
    (after (makeLambda params body.bare closure name) (k.map Pending.spanless) s.spanless).spanless =
      (after (makeLambda params body closure name) k s).spanless :=
  spanless_eq (congrArg Control.answer (spanless_lambda _ _ params body closure name))
    (map_spanless_spanless k) s.spanless_spanless

theorem defineLambda_spanless (name : String) (params : List String) (body : Form) (frame : FrameId) :
    (after (defineLambda name params body.bare frame) (k.map Pending.spanless) s.spanless).spanless =
      (after (defineLambda name params body frame) k s).spanless :=
  spanless_eq (congrArg Control.answer (spanless_lambda _ _ params body frame name))
    (map_spanless_spanless k) (bind_spanless s frame name (spanless_lambda _ _ params body frame name))

theorem enterSpecial_spanless (special : SpecialForm) (operands : List Form) (span : Span) (frame : FrameId) :
    (enterSpecial special (Form.bares operands) (.point 0) frame (k.map Pending.spanless) s.spanless).spanless =
      (enterSpecial special operands span frame k s).spanless := by
  cases special with
  | define =>
    match operands with
    | [nameForm, valueForm] =>
      unfold enterSpecial
      dsimp only [Form.bares]
      rw [Form.symbol?_bare, Form.span_bare]
      cases nameForm.symbol? with
      | none => exact fail_spanless k s _ _
      | some name => exact spanless_push k s (by simp [Control.spanless]) rfl
    | [] | [_] | _ :: _ :: _ :: _ => exact fail_spanless k s _ _
  | defineFunction =>
    unfold enterSpecial
    dsimp only
    obtain ⟨name, params, body, h, h'⟩ | ⟨text, at', h, h'⟩ := evalDefineFunction_bares operands span frame
    · rw [h, h']
      exact defineLambda_spanless k s name params body frame
    · rw [h, h']
      exact fail_spanless k s _ _
  | bindLocals =>
    match operands with
    | [.vector bindingsSpan bindings, body] =>
      unfold enterSpecial
      dsimp only [Form.bares, Form.bare]
      rw [Form.length_bares]
      split
      · exact fail_spanless k s _ _
      · refine spanless_eq ?_ (map_spanless_spanless k) (enclose_spanless s frame rfl)
        simp [Control.spanless, Session.spanless]
    | [.atom _ _, _] | [.list _ _, _] | [.map _ _, _] => exact fail_spanless k s _ _
    | [] => exact fail_spanless k s _ _
    | [form] | form :: _ :: _ :: _ => cases form <;> exact fail_spanless k s _ _
  | choose =>
    match operands with
    | [condition, consequent] | [condition, consequent, alternate] =>
      exact spanless_push k s (by simp [Control.spanless]) (by simp [Pending.spanless])
    | [] | [_] | _ :: _ :: _ :: _ :: _ => exact fail_spanless k s _ _
  | sequence => exact spanless_here k s (by simp [Control.spanless])
  | function =>
    unfold enterSpecial
    dsimp only
    obtain ⟨params, body, h, h'⟩ | ⟨text, at', h, h'⟩ := evalFunction_bares operands span frame
    · rw [h, h']
      exact makeLambda_spanless k s params body frame none
    · rw [h, h']
      exact fail_spanless k s _ _

theorem enter_spanless (form : Form) (frame : FrameId) :
    (enter form.bare frame (k.map Pending.spanless) s.spanless).spanless =
      (enter form frame k s).spanless := by
  cases form with
  | atom span a =>
    cases a with
    | symbol name => exact lookup_spanless k s name span frame
    | number | string | keyword => exact spanless_here k s rfl
  | vector | map => exact spanless_here k s (by simp [Control.spanless])
  | list span items =>
    cases items with
    | nil => exact spanless_here k s rfl
    | cons head operands =>
      unfold enter
      dsimp only [Form.bare, Form.bares]
      rw [Form.special?_bare]
      cases head.special? with
      | some special => exact enterSpecial_spanless k s special operands span frame
      | none => exact spanless_push k s (by simp [Control.spanless]) (by simp [Pending.spanless])

/-- The parameters are bound to the same arguments, up to spans. -/
theorem bindings_spanless (params : List String) (args : List Value) :
    (Dict.ofEntries (params.zip (Value.spanlessItems args))).mapValues Value.spanless =
      (Dict.ofEntries (params.zip args)).mapValues Value.spanless := by
  rw [Value.spanlessItems_eq_map, List.zip_map_right]
  change (Dict.ofEntries (Dict.mapValues Value.spanless (params.zip args))).mapValues _ = _
  rw [Dict.ofEntries_mapValues, Dict.mapValues_spanless_spanless]

theorem enterCall_spanless (f : Function) (args : List Value) (span : Span) :
    (enterCall f.spanless (Value.spanlessItems args) (.point 0) (k.map Pending.spanless) s.spanless).spanless =
      (enterCall f args span k s).spanless := by
  cases f with
  | native f =>
    obtain ⟨name, op | key⟩ := f
    · exact callNative_spanless k s op args span
    · exact spanless_here k s rfl
  | lambda f =>
    have hsettings : s.spanless.settings = s.settings := rfl
    have hdepth : s.spanless.depth = s.depth := rfl
    unfold enterCall
    dsimp only [Function.spanless, Lambda.spanless]
    rw [Value.spanlessItems_eq_map, List.length_map, hsettings, hdepth]
    split
    · exact fail_spanless k s _ _
    · split
      · exact fail_spanless k s _ _
      · refine spanless_eq ?_ ?_ ?_
        · simp [Control.spanless, Session.spanless]
        · rw [List.map_cons, List.map_cons, map_spanless_spanless]
        · rw [← Value.spanlessItems_eq_map]
          exact congrArg (fun t : Session => { t with depth := s.depth + 1 })
            (enclose_spanless s f.closure (bindings_spanless f.params args))

theorem resume_spanless (value : Value) (p : Pending) :
    (resume value.spanless p.spanless (k.map Pending.spanless) s.spanless).spanless =
      (resume value p k s).spanless := by
  cases p with
  | element purpose done rest frame =>
    refine spanless_here k s ?_
    simp [Control.spanless, Value.spanlessItems_eq_map]
  | key found span valueForm rest frame =>
    exact spanless_push k s (by simp [Control.spanless]) (by simp [Pending.spanless])
  | entry found keyValue span rest frame =>
    refine mapKey_spanless k s (fun key => ?_) keyValue span
    simp [Control.spanless, Value.spanlessEntries_eq_mapValues, Dict.insert_mapValues,
      Dict.mapValues_spanless_spanless]
  | head headSpan operands span frame =>
    have htext := congrArg (fun text => Control.failure ⟨.notAFunction text, .point 0⟩) value.text_spanless
    cases value with
    | function f =>
      refine spanless_here k s ?_
      simp [Control.spanless, Purpose.spanless]
    | number | string | keyword | boolean | nil | list | vector | map | synthNode =>
      exact spanless_here k s htext
  | define name frame =>
    exact spanless_eq (by simp [Control.spanless]) (map_spanless_spanless k)
      (bind_spanless s frame name value.spanless_spanless)
  | binding name rest body frame =>
    exact spanless_eq (by simp [Control.spanless]) (map_spanless_spanless k)
      (bind_spanless s frame name value.spanless_spanless)
  | condition consequent alternate frame =>
    unfold resume
    dsimp only [Pending.spanless]
    rw [Value.truthy_spanless]
    split
    · exact spanless_here k s (by simp [Control.spanless])
    · cases alternate with
      | some alternate => exact spanless_here k s (by simp [Control.spanless])
      | none => exact spanless_here k s rfl
  | sequence rest frame => exact spanless_here k s (by simp [Control.spanless])
  | body =>
    exact spanless_eq (by simp [Control.spanless]) (map_spanless_spanless k)
      (congrArg (fun t : Session => { t with depth := s.depth - 1 }) s.spanless_spanless)

end

/-- **A step comes to the same, up to spans**, with and without them. -/
theorem step_spanless (m : Machine) : (step m.spanless).spanless = (step m).spanless := by
  obtain ⟨c, k, s⟩ := m
  cases c with
  | form form frame => exact enter_spanless k s form frame
  | elements purpose done rest frame =>
    cases rest with
    | nil =>
      cases purpose with
      | vector => exact spanless_here k s (by simp [Control.spanless, Value.spanless])
      | arguments f span => exact spanless_here k s (by simp [Control.spanless])
    | cons form rest =>
      exact spanless_push k s (by simp [Control.spanless]) (by simp [Pending.spanless])
  | entries found rest frame =>
    cases rest with
    | nil => exact spanless_here k s (by simp [Control.spanless, Value.spanless])
    | cons entry rest =>
      exact spanless_push k s (by simp [Control.spanless]) (by simp [Pending.spanless])
  | bindings rest body frame =>
    match rest with
    | [] | [_] => exact spanless_here k s (by simp [Control.spanless])
    | nameForm :: valueForm :: rest =>
      change (step ⟨.bindings (nameForm.bare :: valueForm.bare :: Form.bares rest) body.bare frame,
        k.map Pending.spanless, s.spanless⟩).spanless = _
      unfold step
      dsimp only
      rw [Form.symbol?_bare, Form.span_bare]
      cases nameForm.symbol? with
      | none => exact fail_spanless k s _ _
      | some name => exact spanless_push k s (by simp [Control.spanless]) (by simp [Pending.spanless])
  | sequence last rest frame =>
    cases rest with
    | nil => exact spanless_here k s (by simp [Control.spanless])
    | cons form rest =>
      exact spanless_push k s (by simp [Control.spanless]) (by simp [Pending.spanless])
  | call f args span => exact enterCall_spanless k s f args span
  | answer value =>
    cases k with
    | nil => exact spanless_here [] s (by simp [Control.spanless])
    | cons p k => exact resume_spanless k s value p
  | failure e =>
    cases k with
    | nil => exact spanless_here [] s rfl
    | cons p k =>
      cases p with
      | body =>
        exact spanless_eq rfl (map_spanless_spanless k)
          (congrArg (fun t : Session => { t with depth := s.depth - 1 }) s.spanless_spanless)
      | element | key | entry | head | define | binding | condition | sequence =>
        exact spanless_here k s rfl

end Machine

end MusicLisp
