import MusicLisp.Proofs.Native.Causes
import MusicLisp.Proofs.Native.Matching

/-!
# Evaluations in lockstep

Forms that match are evaluated step for step alike, in sessions that are related in whatever way the steps of an
evaluation keep. What is known of the forms, of the functions in the sessions and of the sessions themselves at the
start is then known of the values and the sessions at the end; and if the evaluations fail, they blame forms that
match.

* `Lockstep R Q S`: what evaluations look at agrees in sessions related by `S`, and what they do keeps `S`. The bodies
  of functions are related by `Q`, which may depend on the number of the function and is no coarser than `R`.
* `Blames`: which form is to blame for which cause. The two errors have the same cause and blame forms that match.
* `alike_evalForm`: the induction over forms, for bodies of functions that are run alike.
* `alike_eval`, `alike_evalForms`: **evaluations of forms that match are alike.**

With the relation "the same form, and it has a property" this says what the forms that an evaluation meets have in
common, and which of them an error blames.
-/

namespace MusicLisp

/-- The causes that belong to a call: those of the natives, and that calls are nested too deep. -/
def EvalCause.OfCall (cause : EvalCause) : Prop := cause.OfNative ∨ ∃ limit, cause = .callDepthExceeded limit

/-- **Two errors of the same cause blame forms that match.** An unbound name blames the symbol, a head that is no
function the head of a list, what goes wrong in a call the list, a key the key of a map, and a special form of the
wrong shape one of its parts or the whole. -/
inductive Blames (R : Form → Form → Prop) : EvalError → EvalError → Prop
  | symbol {span span' : Span} {name : String} (h : R (.atom span (.symbol name)) (.atom span' (.symbol name))) :
    Blames R ⟨.undefinedSymbol name, span⟩ ⟨.undefinedSymbol name, span'⟩
  | head {span span' : Span} {head head' : Form} {operands operands' : List Form} (found : String)
    (h : R (.list span (head :: operands)) (.list span' (head' :: operands'))) (hhead : R head head') :
    Blames R ⟨.notAFunction found, head.span⟩ ⟨.notAFunction found, head'.span⟩
  | call {span span' : Span} {items items' : List Form} {cause : EvalCause} (hcause : cause.OfCall)
    (h : R (.list span items) (.list span' items')) : Blames R ⟨cause, span⟩ ⟨cause, span'⟩
  | key {span span' : Span} {before before' rest rest' : List (Form × Form)} {key value key' value' : Form}
    (found : String) (h : R (.map span (before ++ (key, value) :: rest))
      (.map span' (before' ++ (key', value') :: rest'))) (hkey : R key key') :
    Blames R ⟨.invalidMapKey found, key.span⟩ ⟨.invalidMapKey found, key'.span⟩
  | shape {form form' : Form} (text : String) (h : R form form') :
    Blames R ⟨.invalidSpecialForm text, form.span⟩ ⟨.invalidSpecialForm text, form'.span⟩

/-- **What evaluations of forms that match look at and do** is alike in sessions related by `S`. -/
structure Lockstep (R : Form → Form → Prop) (Q : Nat → Form → Form → Prop) (S : Session → Session → Prop) :
    Prop where
  depth : ∀ {s t}, S s t → s.depth = t.depth
  limit : ∀ {s t}, S s t → s.settings.maxCallDepth = t.settings.maxCallDepth
  next : ∀ {s t}, S s t → s.scopes.next = t.scopes.next
  lambdas : ∀ {s t}, S s t → s.lambdas = t.lambdas
  lookup : ∀ {s t span span' name}, R (.atom span (.symbol name)) (.atom span' (.symbol name)) → S s t →
    ∀ frame, Option.Rel (Value.Matches Q) (s.scopes.lookup frame name) (t.scopes.lookup frame name)
  bind : ∀ {s t span span' name v w}, R (.atom span (.symbol name)) (.atom span' (.symbol name)) →
    v.Matches Q w → S s t → ∀ frame, S (s.bind frame name v) (t.bind frame name w)
  enclose : ∀ {s t d e}, Dict.Matches (Value.Matches Q) d e → S s t →
    ∀ outer, S (s.enclose outer d) (t.enclose outer e)
  body : ∀ {id form form'}, Q id form form' → R form form'
  fresh : ∀ {s t form form'}, R form form' → S s t → Q s.lambdas form form'
  made : ∀ {s t}, S s t → S { s with lambdas := s.lambdas + 1 } { t with lambdas := t.lambdas + 1 }
  deeper : ∀ {s t}, S s t → S { s with depth := s.depth + 1 } { t with depth := t.depth + 1 }
  back : ∀ {s t}, S s t → S { s with depth := s.depth - 1 } { t with depth := t.depth - 1 }
  answer : ∀ {s t args args'}, S s t → List.Forall₂ (Value.Matches Q) args args' → ∀ op : Operation,
    Operation.AnswersMatch Q (op.answer s.settings s.engine args) (op.answer t.settings t.engine args')
  perform : ∀ {s t}, S s t → ∀ x, S (s.perform x) (t.perform x)

namespace Eval

variable {α β γ δ : Type} {R : Form → Form → Prop} {Q : Nat → Form → Form → Prop} {S : Session → Session → Prop}

/-- **Two evaluations come to related things** in related sessions, or fail and blame forms that match. -/
inductive Outcomes (R : Form → Form → Prop) (S : Session → Session → Prop) (A : α → β → Prop) :
    EStateM.Result EvalError Session α → EStateM.Result EvalError Session β → Prop
  | ok {a : α} {b : β} {s t : Session} (h : A a b) (hst : S s t) : Outcomes R S A (.ok a s) (.ok b t)
  | error {e f : EvalError} {s t : Session} (h : Blames R e f) (hst : S s t) :
    Outcomes R S A (.error e s) (.error f t)

/-- **Two steps are alike** in whatever related sessions they are taken. -/
def Alike (R : Form → Form → Prop) (S : Session → Session → Prop) (A : α → β → Prop) (m : Eval α) (m' : Eval β) :
    Prop :=
  ∀ s t, S s t → Outcomes R S A (m s) (m' t)

/-! ### Steps -/

section

variable {A : α → β → Prop} {B : γ → δ → Prop}

theorem alike_pure {a : α} {b : β} (h : A a b) : Alike R S A (pure a) (pure b) := fun _ _ hst => .ok h hst

theorem alike_fail {cause : EvalCause} {span span' : Span} (h : Blames R ⟨cause, span⟩ ⟨cause, span'⟩) :
    Alike R S A (fail cause span) (fail cause span') := fun _ _ hst => .error h hst

theorem alike_malformed {form form' : Form} (h : R form form') (text : String) :
    Alike R S A (malformed text form.span) (malformed text form'.span) := alike_fail (.shape text h)

theorem alike_bind {m : Eval α} {m' : Eval β} {f : α → Eval γ} {g : β → Eval δ} (hm : Alike R S A m m')
    (hfg : ∀ a b, A a b → Alike R S B (f a) (g b)) : Alike R S B (m >>= f) (m' >>= g) := by
  intro s t hst
  have h := hm s t hst
  change Outcomes R S B (EStateM.bind m f s) (EStateM.bind m' g t)
  unfold EStateM.bind
  generalize m s = r at h
  generalize m' t = r' at h
  cases h with
  | ok hab hst' => exact hfg _ _ hab _ _ hst'
  | error h hst' => exact .error h hst'

end

theorem alike_mapKey {v w : Value} (hvw : v.Matches Q w) {span span' : Span}
    (h : ∀ found, Blames R ⟨.invalidMapKey found, span⟩ ⟨.invalidMapKey found, span'⟩) :
    Alike R S Eq (mapKey v span) (mapKey w span') := by
  cases hvw with
  | string | keyword => exact alike_pure rfl
  | number | boolean | nil | native | lambda | list | vector | map | synthNode => exact alike_fail (h _)

section

variable (L : Lockstep R Q S)
include L

theorem alike_lookup {span span' : Span} {name : String}
    (h : R (.atom span (.symbol name)) (.atom span' (.symbol name))) (frame : FrameId) :
    Alike R S (Value.Matches Q) (lookup name span frame) (lookup name span' frame) := by
  intro s t hst
  have hlookup := L.lookup h hst frame
  unfold lookup
  generalize s.scopes.lookup frame name = v at hlookup
  generalize t.scopes.lookup frame name = w at hlookup
  cases hlookup with
  | some hvw => exact .ok hvw hst
  | none => exact .error (.symbol h) hst

theorem alike_assign {span span' : Span} {name : String} {v w : Value}
    (h : R (.atom span (.symbol name)) (.atom span' (.symbol name))) (hvw : v.Matches Q w) (frame : FrameId) :
    Alike R S (fun _ _ => True) (assign frame name v) (assign frame name w) :=
  fun _ _ hst => .ok trivial (L.bind h hvw hst frame)

theorem alike_enclose {d e : Dict Value} (h : Dict.Matches (Value.Matches Q) d e) (outer : FrameId) :
    Alike R S Eq (enclose outer d) (enclose outer e) :=
  fun _ _ hst => .ok (L.next hst) (L.enclose h hst outer)

theorem alike_makeLambda {body body' : Form} (h : R body body') (params : List String) (closure : FrameId)
    (name : Option String) :
    Alike R S (Value.Matches Q) (makeLambda params body closure name) (makeLambda params body' closure name) :=
  fun _ _ hst => .ok (.lambda ⟨L.lambdas hst, rfl, L.fresh h hst, rfl, rfl⟩) (L.made hst)

theorem alike_nested {A : α → β → Prop} {m : Eval α} {m' : Eval β} (h : Alike R S A m m') :
    Alike R S A (nested m) (nested m') := by
  intro s t hst
  have hm := h _ _ (L.deeper hst)
  unfold nested
  generalize m { s with depth := s.depth + 1 } = r at hm
  generalize m' { t with depth := t.depth + 1 } = r' at hm
  cases hm with
  | ok hab hst' => exact .ok hab (L.back hst')
  | error h hst' => exact .error h (L.back hst')

theorem alike_callNative {args args' : List Value} (hargs : List.Forall₂ (Value.Matches Q) args args')
    {span span' : Span} {items items' : List Form} (h : R (.list span items) (.list span' items'))
    (op : Operation) :
    Alike R S (Value.Matches Q) (callNative op args span) (callNative op args' span') := by
  intro s t hst
  have hanswer := L.answer hst hargs op
  have hcause := op.answer_fails s.settings s.engine args
  unfold callNative
  generalize op.answer s.settings s.engine args = x at hanswer hcause
  generalize op.answer t.settings t.engine args' = y at hanswer
  cases hanswer with
  | ok hab =>
    obtain ⟨hvalue, heffect⟩ := hab
    refine .ok hvalue ?_
    rw [heffect]
    exact L.perform hst _
  | error cause => exact .error (.call (.inl (hcause cause rfl)) h) hst

theorem alike_native {args args' : List Value} (hargs : List.Forall₂ (Value.Matches Q) args args')
    {span span' : Span} {items items' : List Form} (h : R (.list span items) (.list span' items'))
    (f : Native) : Alike R S (Value.Matches Q) (f.call args span) (f.call args' span') := by
  unfold Native.call
  cases f.code with
  | operation op => exact alike_callNative L hargs h op
  | host key => exact alike_pure .nil

end

/-- A form that names something, and one that matches it, are symbols of the same name. -/
theorem symbols_of_symbol? (M : Form.Matching R) {form form' : Form} {name : String} (h : R form form')
    (hname : form.symbol? = some name) :
    ∃ span span', R (.atom span (.symbol name)) (.atom span' (.symbol name)) := by
  cases form with
  | atom span a =>
    obtain ⟨span', rfl⟩ := M.atom h
    cases a with
    | symbol n => cases hname; exact ⟨span, span', h⟩
    | number | string | keyword => cases hname
  | list | vector | map => cases hname

section

variable (M : Form.Matching R)
include M

theorem alike_paramNames {params params' : List Form} (h : List.Forall₂ R params params') :
    Alike R S Eq (paramNames params) (paramNames params') := by
  induction h with
  | nil => exact alike_pure rfl
  | cons hparam _ ih =>
    unfold paramNames
    rw [← M.symbol?_eq hparam]
    split
    · exact alike_malformed hparam _
    · refine alike_bind ih ?_
      rintro names _ rfl
      exact alike_pure rfl

theorem alike_paramsOf (special : SpecialForm) {params params' : Form} (h : R params params') :
    Alike R S Eq (paramsOf special params) (paramsOf special params') := by
  cases params with
  | vector span items =>
    obtain ⟨span', items', rfl, hitems⟩ := M.vector h
    exact alike_paramNames M hitems
  | atom span a =>
    obtain ⟨span', rfl⟩ := M.atom h
    exact alike_malformed h _
  | list span items =>
    obtain ⟨span', items', rfl, -⟩ := M.list h
    exact alike_malformed h _
  | map span entries =>
    obtain ⟨span', entries', rfl, -⟩ := M.map h
    exact alike_malformed h _

end

/-! ### Calls and forms -/

theorem evalBindLocals_of_length (run : Body) {operands : List Form} (h : operands.length ≠ 2) (span : Span)
    (frame : FrameId) :
    evalBindLocals run operands span frame = malformed "let requires exactly 2 arguments" span := by
  unfold evalBindLocals
  split
  · exact absurd rfl h
  · exact absurd rfl h
  · rfl

/-- Bodies of functions that match are run alike, or there is no room for either. -/
def BodiesAlike (R : Form → Form → Prop) (Q : Nat → Form → Form → Prop) (S : Session → Session → Prop)
    (run run' : Body) : Prop :=
  Option.Rel (fun f g => ∀ {form form'}, R form form' → ∀ frame,
    Alike R S (Value.Matches Q) (f form frame) (g form' frame)) run run'

/-- What all evaluations of forms that match rest on: the relation of the forms, that of the sessions, and how
bodies are run. -/
structure RunsAlike (R : Form → Form → Prop) (Q : Nat → Form → Form → Prop) (S : Session → Session → Prop)
    (run run' : Body) : Prop where
  forms : Form.Matching R
  sessions : Lockstep R Q S
  bodies : BodiesAlike R Q S run run'

variable {run run' : Body}

theorem alike_callLambda (L : Lockstep R Q S) (hrun : BodiesAlike R Q S run run') {f g : Lambda}
    (hfg : f.Matches Q g) {args args' : List Value} (hargs : List.Forall₂ (Value.Matches Q) args args')
    {span span' : Span} {items items' : List Form} (h : R (.list span items) (.list span' items')) :
    Alike R S (Value.Matches Q) (callLambda run f args span) (callLambda run' g args' span') := by
  unfold callLambda
  rw [← hargs.length_eq, ← hfg.params, ← hfg.name, ← hfg.closure]
  split
  · exact alike_fail (.call (.inl trivial) h)
  · cases hrun with
    | none =>
      intro s t hst
      dsimp only
      rw [← L.limit hst]
      exact .error (.call (.inr ⟨_, rfl⟩) h) hst
    | some hbody =>
      refine alike_bind (alike_enclose L (Dict.matches_ofEntries_zip _ hargs) _) ?_
      rintro frame _ rfl
      exact alike_nested L (hbody (L.body hfg.body) frame)

theorem alike_evalDefineFunction (M : Form.Matching R) (L : Lockstep R Q S) :
    ∀ (operands : List Form) {operands' : List Form}, List.Forall₂ R operands operands' →
    ∀ {whole whole' : Form}, R whole whole' → ∀ frame, Alike R S (Value.Matches Q)
      (evalDefineFunction run operands whole.span frame) (evalDefineFunction run' operands' whole'.span frame)
  | [nameForm, _, _], _, .cons hname (.cons hparams (.cons hbody .nil)), _, _, h, frame => by
    unfold evalDefineFunction
    dsimp only
    rw [← M.symbol?_eq hname]
    cases hsymbol : nameForm.symbol? with
    | none => exact alike_malformed hname _
    | some name =>
      obtain ⟨span, span', hR⟩ := symbols_of_symbol? M hname hsymbol
      refine alike_bind (alike_paramsOf M _ hparams) ?_
      rintro names _ rfl
      exact alike_bind (alike_makeLambda L hbody names frame _) fun _ _ hvalue =>
        alike_bind (alike_assign L hR hvalue frame) fun _ _ _ => alike_pure hvalue
  | [], _, .nil, _, _, h, frame => by
    unfold evalDefineFunction
    exact alike_malformed h _
  | [_], _, .cons _ .nil, _, _, h, frame => by
    unfold evalDefineFunction
    exact alike_malformed h _
  | [_, _], _, .cons _ (.cons _ .nil), _, _, h, frame => by
    unfold evalDefineFunction
    exact alike_malformed h _
  | _ :: _ :: _ :: _ :: _, _, .cons _ (.cons _ (.cons _ (.cons _ _))), _, _, h, frame => by
    unfold evalDefineFunction
    exact alike_malformed h _

theorem alike_evalFunction (M : Form.Matching R) (L : Lockstep R Q S) :
    ∀ (operands : List Form) {operands' : List Form}, List.Forall₂ R operands operands' →
    ∀ {whole whole' : Form}, R whole whole' → ∀ frame, Alike R S (Value.Matches Q)
      (evalFunction run operands whole.span frame) (evalFunction run' operands' whole'.span frame)
  | [_, _], _, .cons hparams (.cons hbody .nil), _, _, h, frame => by
    unfold evalFunction
    refine alike_bind (alike_paramsOf M _ hparams) ?_
    rintro names _ rfl
    exact alike_makeLambda L hbody names frame none
  | [], _, .nil, _, _, h, frame => by
    unfold evalFunction
    exact alike_malformed h _
  | [_], _, .cons _ .nil, _, _, h, frame => by
    unfold evalFunction
    exact alike_malformed h _
  | _ :: _ :: _ :: _, _, .cons _ (.cons _ (.cons _ _)), _, _, h, frame => by
    unfold evalFunction
    exact alike_malformed h _

mutual

/-- **Forms that match are evaluated alike** if the bodies of functions are run alike. -/
theorem alike_evalForm (H : RunsAlike R Q S run run') : ∀ (form : Form) {form' : Form}, R form form' → ∀ frame,
    Alike R S (Value.Matches Q) (evalForm run form frame) (evalForm run' form' frame)
  | .atom span (.number x), _, h, frame => by
    obtain ⟨span', rfl⟩ := H.forms.atom h
    unfold evalForm
    exact alike_pure (.number x)
  | .atom span (.string s), _, h, frame => by
    obtain ⟨span', rfl⟩ := H.forms.atom h
    unfold evalForm
    exact alike_pure (.string s)
  | .atom span (.keyword name), _, h, frame => by
    obtain ⟨span', rfl⟩ := H.forms.atom h
    unfold evalForm
    exact alike_pure (.keyword name)
  | .atom span (.symbol name), _, h, frame => by
    obtain ⟨span', rfl⟩ := H.forms.atom h
    unfold evalForm
    exact alike_lookup H.sessions h frame
  | .vector span items, _, h, frame => by
    obtain ⟨span', items', rfl, hitems⟩ := H.forms.vector h
    unfold evalForm
    exact alike_bind (alike_evalAll H items hitems frame) fun _ _ hvalues => alike_pure (.vector hvalues)
  | .map span entries, _, h, frame => by
    obtain ⟨span', entries', rfl, hentries⟩ := H.forms.map h
    unfold evalForm
    exact alike_evalEntries H entries [] [] h hentries .nil frame
  | .list span [], _, h, frame => by
    obtain ⟨span', _, rfl, hitems⟩ := H.forms.list h
    cases hitems
    unfold evalForm
    exact alike_pure (.list .nil)
  | .list span (head :: operands), _, h, frame => by
    obtain ⟨span', _, rfl, hitems⟩ := H.forms.list h
    cases hitems with
    | @cons _ head' _ operands' hhead hoperands =>
      unfold evalForm
      -- both lists are calls, or both are the same special form
      rw [← H.forms.special?_eq hhead]
      cases head.special? with
      | none =>
        refine alike_bind (alike_evalForm H head hhead frame) fun v w hvw => ?_
        have htext := hvw.text_eq
        cases hvw with
        | native f =>
          exact alike_bind (alike_evalAll H operands hoperands frame) fun _ _ hargs =>
            alike_native H.sessions hargs h f
        | lambda hfg =>
          exact alike_bind (alike_evalAll H operands hoperands frame) fun _ _ hargs =>
            alike_callLambda H.sessions H.bodies hfg hargs h
        | number | string | keyword | boolean | nil | list | vector | map | synthNode =>
          dsimp only
          rw [← htext]
          exact alike_fail (.head _ h hhead)
      | some special =>
        cases special with
        | define => exact alike_evalDefine H operands hoperands h frame
        | defineFunction => exact alike_evalDefineFunction H.forms H.sessions operands hoperands h frame
        | bindLocals => exact alike_evalBindLocals H operands hoperands h frame
        | choose => exact alike_evalChoose H operands hoperands h frame
        | sequence => exact alike_evalSequence H operands hoperands .nil frame
        | function => exact alike_evalFunction H.forms H.sessions operands hoperands h frame

theorem alike_evalAll (H : RunsAlike R Q S run run') :
    ∀ (forms : List Form) {forms' : List Form}, List.Forall₂ R forms forms' → ∀ frame,
    Alike R S (List.Forall₂ (Value.Matches Q)) (evalAll run forms frame) (evalAll run' forms' frame)
  | [], _, .nil, frame => by
    unfold evalAll
    exact alike_pure .nil
  | form :: rest, _, .cons hform hrest, frame => by
    unfold evalAll
    exact alike_bind (alike_evalForm H form hform frame) fun _ _ hvalue =>
      alike_bind (alike_evalAll H rest hrest frame) fun _ _ hvalues => alike_pure (.cons hvalue hvalues)

/-- Entries after those before them: what cannot be a key blames a key of the whole map. -/
theorem alike_evalEntries (H : RunsAlike R Q S run run') : ∀ (entries : List (Form × Form))
    {entries' : List (Form × Form)} (before before' : List (Form × Form)) {span span' : Span},
    R (.map span (before ++ entries)) (.map span' (before' ++ entries')) →
    List.Forall₂ (fun entry entry' => R entry.1 entry'.1 ∧ R entry.2 entry'.2) entries entries' →
    ∀ {found found' : Dict Value}, Dict.Matches (Value.Matches Q) found found' → ∀ frame,
    Alike R S (Value.Matches Q) (evalEntries run entries found frame) (evalEntries run' entries' found' frame)
  | [], _, _, _, _, _, _, .nil, _, _, hfound, frame => by
    unfold evalEntries
    exact alike_pure (.map (Value.entriesMatch_iff.mpr hfound))
  | (key, value) :: rest, (key', value') :: rest', before, before', _, _, h, .cons hentry hrest, _, _, hfound,
      frame => by
    unfold evalEntries
    refine alike_bind (alike_evalForm H key hentry.1 frame) fun _ _ hkey =>
      alike_bind (alike_evalForm H value hentry.2 frame) fun _ _ hvalue =>
        alike_bind (alike_mapKey hkey fun found => .key found h hentry.1) ?_
    rintro name _ rfl
    exact alike_evalEntries H rest (before ++ [(key, value)]) (before' ++ [(key', value')])
      (by simpa only [List.append_assoc, List.singleton_append] using h) hrest (hfound.insert name hvalue) frame

/-- The list that a special form makes up as a whole is blamed if it has too few or too many operands. -/
theorem alike_evalDefine (H : RunsAlike R Q S run run') : ∀ (operands : List Form) {operands' : List Form},
    List.Forall₂ R operands operands' → ∀ {whole whole' : Form}, R whole whole' → ∀ frame, Alike R S (Value.Matches Q)
      (evalDefine run operands whole.span frame) (evalDefine run' operands' whole'.span frame)
  | [nameForm, valueForm], _, .cons hname (.cons hvalue .nil), _, _, h, frame => by
    unfold evalDefine
    rw [← H.forms.symbol?_eq hname]
    cases hsymbol : nameForm.symbol? with
    | none => exact alike_malformed hname _
    | some name =>
      obtain ⟨span, span', hR⟩ := symbols_of_symbol? H.forms hname hsymbol
      exact alike_bind (alike_evalForm H valueForm hvalue frame) fun _ _ hvalue =>
        alike_bind (alike_assign H.sessions hR hvalue frame) fun _ _ _ => alike_pure hvalue
  | [], _, .nil, _, _, h, frame => by
    unfold evalDefine
    exact alike_malformed h _
  | [_], _, .cons _ .nil, _, _, h, frame => by
    unfold evalDefine
    exact alike_malformed h _
  | _ :: _ :: _ :: _, _, .cons _ (.cons _ (.cons _ _)), _, _, h, frame => by
    unfold evalDefine
    exact alike_malformed h _

theorem alike_evalBindLocals (H : RunsAlike R Q S run run') : ∀ (operands : List Form) {operands' : List Form},
    List.Forall₂ R operands operands' → ∀ {whole whole' : Form}, R whole whole' → ∀ frame, Alike R S (Value.Matches Q)
      (evalBindLocals run operands whole.span frame) (evalBindLocals run' operands' whole'.span frame)
  | [.vector span bindings, body], _, .cons hvector (.cons hbody .nil), _, _, h, frame => by
    obtain ⟨span', bindings', rfl, hbindings⟩ := H.forms.vector hvector
    unfold evalBindLocals
    rw [← hbindings.length_eq]
    split
    · exact alike_malformed hvector _
    · refine alike_bind (alike_enclose H.sessions .nil frame) ?_
      rintro inner _ rfl
      exact alike_bind (alike_evalBindings H bindings hbindings inner) fun _ _ _ => alike_evalForm H body hbody inner
  | [.atom span a, _], _, .cons hbindings (.cons _ .nil), _, _, h, frame => by
    obtain ⟨span', rfl⟩ := H.forms.atom hbindings
    unfold evalBindLocals
    exact alike_malformed hbindings _
  | [.list span items, _], _, .cons hbindings (.cons _ .nil), _, _, h, frame => by
    obtain ⟨span', items', rfl, -⟩ := H.forms.list hbindings
    unfold evalBindLocals
    exact alike_malformed hbindings _
  | [.map span entries, _], _, .cons hbindings (.cons _ .nil), _, _, h, frame => by
    obtain ⟨span', entries', rfl, -⟩ := H.forms.map hbindings
    unfold evalBindLocals
    exact alike_malformed hbindings _
  | [], _, .nil, _, _, h, frame => by
    rw [evalBindLocals_of_length run (by simp), evalBindLocals_of_length run' (by simp)]
    exact alike_malformed h _
  | [_], _, .cons _ .nil, _, _, h, frame => by
    rw [evalBindLocals_of_length run (by simp), evalBindLocals_of_length run' (by simp)]
    exact alike_malformed h _
  | _ :: _ :: _ :: _, _, .cons _ (.cons _ (.cons _ _)), _, _, h, frame => by
    rw [evalBindLocals_of_length run (by simp), evalBindLocals_of_length run' (by simp)]
    exact alike_malformed h _

theorem alike_evalBindings (H : RunsAlike R Q S run run') : ∀ (bindings : List Form) {bindings' : List Form},
    List.Forall₂ R bindings bindings' → ∀ frame,
    Alike R S (fun _ _ => True) (evalBindings run bindings frame) (evalBindings run' bindings' frame)
  | nameForm :: valueForm :: rest, _, .cons hname (.cons hvalue hrest), frame => by
    unfold evalBindings
    rw [← H.forms.symbol?_eq hname]
    cases hsymbol : nameForm.symbol? with
    | none => exact alike_malformed hname _
    | some name =>
      obtain ⟨span, span', hR⟩ := symbols_of_symbol? H.forms hname hsymbol
      exact alike_bind (alike_evalForm H valueForm hvalue frame) fun _ _ hvalue =>
        alike_bind (alike_assign H.sessions hR hvalue frame) fun _ _ _ => alike_evalBindings H rest hrest frame
  | [], _, .nil, frame => by
    unfold evalBindings
    exact alike_pure trivial
  | [_], _, .cons _ .nil, frame => by
    unfold evalBindings
    exact alike_pure trivial

theorem alike_evalChoose (H : RunsAlike R Q S run run') : ∀ (operands : List Form) {operands' : List Form},
    List.Forall₂ R operands operands' → ∀ {whole whole' : Form}, R whole whole' → ∀ frame, Alike R S (Value.Matches Q)
      (evalChoose run operands whole.span frame) (evalChoose run' operands' whole'.span frame)
  | [condition, consequent], _, .cons hcondition (.cons hconsequent .nil), _, _, h, frame => by
    unfold evalChoose
    refine alike_bind (alike_evalForm H condition hcondition frame) fun v w hvw => ?_
    rw [hvw.truthy_eq]
    split
    · exact alike_evalForm H consequent hconsequent frame
    · exact alike_pure .nil
  | [condition, consequent, alternate], _, .cons hcondition (.cons hconsequent (.cons halternate .nil)),
      _, _, h, frame => by
    unfold evalChoose
    refine alike_bind (alike_evalForm H condition hcondition frame) fun v w hvw => ?_
    rw [hvw.truthy_eq]
    split
    · exact alike_evalForm H consequent hconsequent frame
    · exact alike_evalForm H alternate halternate frame
  | [], _, .nil, _, _, h, frame => by
    unfold evalChoose
    exact alike_malformed h _
  | [_], _, .cons _ .nil, _, _, h, frame => by
    unfold evalChoose
    exact alike_malformed h _
  | _ :: _ :: _ :: _ :: _, _, .cons _ (.cons _ (.cons _ (.cons _ _))), _, _, h, frame => by
    unfold evalChoose
    exact alike_malformed h _

theorem alike_evalSequence (H : RunsAlike R Q S run run') :
    ∀ (forms : List Form) {forms' : List Form}, List.Forall₂ R forms forms' →
    ∀ {last last' : Value}, last.Matches Q last' → ∀ frame,
    Alike R S (Value.Matches Q) (evalSequence run forms last frame) (evalSequence run' forms' last' frame)
  | [], _, .nil, _, _, hlast, frame => by
    unfold evalSequence
    exact alike_pure hlast
  | form :: rest, _, .cons hform hrest, _, _, _, frame => by
    unfold evalSequence
    exact alike_bind (alike_evalForm H form hform frame) fun _ _ hvalue => alike_evalSequence H rest hrest hvalue frame

end

/-! ### Sessions -/

section

variable (M : Form.Matching R) (L : Lockstep R Q S)
include M L

theorem bodiesAlike_bodyWithin (n : Nat) : BodiesAlike R Q S (bodyWithin n) (bodyWithin n) := by
  induction n with
  | zero => exact .none
  | succ n ih => exact .some fun {form _} h frame => alike_evalForm ⟨M, L, ih⟩ form h frame

/-- **A form in a session is evaluated like one that matches it** in a related session. -/
theorem alike_eval {form form' : Form} (h : R form form') (frame : FrameId) :
    Alike R S (Value.Matches Q) (Session.eval form frame) (Session.eval form' frame) := by
  intro s t hst
  have hroom : t.room = s.room := by
    unfold Session.room
    rw [L.depth hst, L.limit hst]
  unfold Session.eval
  rw [hroom]
  exact alike_evalForm ⟨M, L, bodiesAlike_bodyWithin M L s.room⟩ form h frame s t hst

/-- **So are forms one after the other.** -/
theorem alike_evalForms {forms forms' : List Form} (h : List.Forall₂ R forms forms') {last last' : Value}
    (hlast : last.Matches Q last') (frame : FrameId) :
    Alike R S (Value.Matches Q) (Session.evalForms forms last frame) (Session.evalForms forms' last' frame) := by
  induction h generalizing last last' with
  | nil => exact alike_pure hlast
  | cons hform _ ih => exact alike_bind (alike_eval M L hform frame) fun _ _ hvalue => ih hvalue

end

end Eval

end MusicLisp
