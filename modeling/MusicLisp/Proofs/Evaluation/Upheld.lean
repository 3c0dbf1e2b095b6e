import MusicLisp.Eval
import MusicLisp.Proofs.Value.Kinds

/-!
# What holds all through an evaluation

A property of sessions holds all through an evaluation as soon as the few things that an evaluation is made of uphold
it. What these do may depend on the values at hand: a call of a native does what the native does. So the property
comes with a kind of values that the evaluation deals with (`Upheld`). The kind may leave out natives of a host, and
then it does not matter which host there is. So all this is said of the same evaluation under two hosts.

* `Upholds`: from a session with the property the same step under both hosts gets to another one, whether it answers or
  fails, and what it answers has a property too.
* `upholds_evalForm`: the induction over forms, for any two ways of running bodies that uphold the property.
* `upholdsBody_bodyWithin`: the induction over the room for calls.
* `upholds_eval`, `upholds_evalForms`: every evaluation upholds the property.
-/

namespace MusicLisp.Eval

variable {α β : Type}

/-- **A step comes to something with a property**, or fails, in a session with the property `I`. -/
inductive Comes (I : Session → Prop) (A : α → Prop) : EStateM.Result EvalError Session α → Prop
  | ok {a : α} {t : Session} (h : A a) (ht : I t) : Comes I A (.ok a t)
  | error (e : EvalError) {t : Session} (ht : I t) : Comes I A (.error e t)

/-- Whatever session with the property `I` they find, two steps do the same and come to something with the property
`A`. -/
def Upholds (I : Session → Prop) (A : α → Prop) (m m' : Eval α) : Prop := ∀ s, I s → m' s = m s ∧ Comes I A (m s)

/-- The bodies of called functions uphold the property. -/
def UpholdsBody (V : Value → Prop) (I : Session → Prop) (run run' : Body) : Prop :=
  Option.Rel (fun f g => ∀ form frame, Upholds I V (f form frame) (g form frame)) run run'

/-- What an evaluation under two hosts is made of upholds the property `I` of sessions and deals with values of the kind
`V`. -/
structure Upheld (host host' : HostNatives) (V : Value → Prop) (I : Session → Prop) : Prop where
  kind : Value.Kind V
  lambda : ∀ f, V (.function (.lambda f))
  lookup : ∀ {s frame name v}, I s → s.scopes.lookup frame name = some v → V v
  bind : ∀ {s} frame name {v}, I s → V v → I (s.bind frame name v)
  enclose : ∀ {s} outer {entries}, I s → (∀ entry ∈ entries, V entry.2) → I (s.enclose outer (Dict.ofEntries entries))
  counters : ∀ {s} depth lambdas, I s → I { s with depth, lambdas }
  native : ∀ {f args} span, V (.function (.native f)) → (∀ a ∈ args, V a) →
    Upholds I V (@Native.call host f args span) (@Native.call host' f args span)

variable {V : Value → Prop} {I : Session → Prop} {A : α → Prop} {B : β → Prop}

/-! ### Steps without evaluation inside -/

theorem upholds_pure {a : α} (h : A a) : Upholds I A (pure a) (pure a) := fun _ ht => ⟨rfl, .ok h ht⟩

theorem upholds_fail (cause : EvalCause) (span : Span) : Upholds I A (fail cause span) (fail cause span) :=
  fun _ ht => ⟨rfl, .error _ ht⟩

theorem upholds_malformed (text : String) (span : Span) : Upholds I A (malformed text span) (malformed text span) :=
  upholds_fail _ _

theorem upholds_bind {m m' : Eval α} {f f' : α → Eval β} (hm : Upholds I A m m')
    (hf : ∀ a, A a → Upholds I B (f a) (f' a)) : Upholds I B (m >>= f) (m' >>= f') := by
  intro t ht
  obtain ⟨heq, h⟩ := hm t ht
  change EStateM.bind m' f' t = EStateM.bind m f t ∧ Comes I B (EStateM.bind m f t)
  unfold EStateM.bind
  rw [heq]
  generalize m t = r at h
  cases h with
  | ok ha ht' => exact hf _ ha _ ht'
  | error e ht' => exact ⟨rfl, .error e ht'⟩

theorem upholds_mapKey (value : Value) (span : Span) :
    Upholds I (fun _ => True) (mapKey value span) (mapKey value span) := by
  unfold mapKey
  split
  · exact upholds_pure trivial
  · exact upholds_pure trivial
  · exact upholds_fail _ _

theorem upholds_paramNames (params : List Form) :
    Upholds I (fun _ => True) (paramNames params) (paramNames params) := by
  induction params with
  | nil => exact upholds_pure trivial
  | cons param rest ih =>
    unfold paramNames
    split
    · exact upholds_malformed _ _
    · exact upholds_bind ih fun _ _ => upholds_pure trivial

theorem upholds_paramsOf (special : SpecialForm) (params : Form) :
    Upholds I (fun _ => True) (paramsOf special params) (paramsOf special params) := by
  unfold paramsOf
  split
  · exact upholds_paramNames _
  · exact upholds_malformed _ _

section

variable {host host' : HostNatives} (U : Upheld host host' V I)
include U

theorem upholds_nested {m m' : Eval α} (h : Upholds I A m m') : Upholds I A (nested m) (nested m') := by
  intro t ht
  obtain ⟨heq, hm⟩ := h { t with depth := t.depth + 1 } (U.counters (t.depth + 1) t.lambdas ht)
  unfold nested
  rw [heq]
  refine ⟨rfl, ?_⟩
  generalize m { t with depth := t.depth + 1 } = r at hm
  cases hm with
  | @ok a t' ha ht' => exact .ok ha (U.counters (t'.depth - 1) t'.lambdas ht')
  | @error e t' ht' => exact .error e (U.counters (t'.depth - 1) t'.lambdas ht')

theorem upholds_lookup (name : String) (span : Span) (frame : FrameId) :
    Upholds I V (lookup name span frame) (lookup name span frame) := by
  intro t ht
  refine ⟨rfl, ?_⟩
  unfold lookup
  cases h : t.scopes.lookup frame name with
  | some v => exact .ok (U.lookup ht h) ht
  | none => exact .error _ ht

theorem upholds_assign (frame : FrameId) (name : String) {v : Value} (hv : V v) :
    Upholds I (fun _ => True) (assign frame name v) (assign frame name v) :=
  fun _ ht => ⟨rfl, .ok trivial (U.bind frame name ht hv)⟩

theorem upholds_enclose (outer : FrameId) {entries : List (String × Value)} (h : ∀ entry ∈ entries, V entry.2) :
    Upholds I (fun _ => True) (enclose outer (Dict.ofEntries entries)) (enclose outer (Dict.ofEntries entries)) :=
  fun _ ht => ⟨rfl, .ok trivial (U.enclose outer ht h)⟩

theorem upholds_makeLambda (params : List String) (body : Form) (closure : FrameId) (name : Option String) :
    Upholds I V (makeLambda params body closure name) (makeLambda params body closure name) :=
  fun t ht => ⟨rfl, .ok (U.lambda _) (U.counters t.depth (t.lambdas + 1) ht)⟩

/-! ### Calls and forms -/

variable {run run' : Body}

theorem upholds_callLambda (hrun : UpholdsBody V I run run') (f : Lambda) {args : List Value}
    (hargs : ∀ v ∈ args, V v) (span : Span) :
    Upholds I V (callLambda run f args span) (callLambda run' f args span) := by
  unfold callLambda
  split
  · exact upholds_fail _ _
  · cases hrun with
    | none => exact fun _ ht => ⟨rfl, .error _ ht⟩
    | some hbody =>
      have hentries : ∀ entry ∈ f.params.zip args, V entry.2 := fun entry hentry =>
        hargs _ (List.of_mem_zip hentry).2
      exact upholds_bind (upholds_enclose U _ hentries) fun frame _ => upholds_nested U (hbody f.body frame)

theorem upholds_call (hrun : UpholdsBody V I run run') {f : Function} (hf : V (.function f)) {args : List Value}
    (hargs : ∀ v ∈ args, V v) (span : Span) :
    Upholds I V (@call host run f args span) (@call host' run' f args span) := by
  cases f with
  | lambda f => exact upholds_callLambda U hrun f hargs span
  | native f => exact U.native span hf hargs

theorem upholds_evalDefineFunction (operands : List Form) (span : Span) (frame : FrameId) :
    Upholds I V (@evalDefineFunction host run operands span frame)
      (@evalDefineFunction host' run' operands span frame) := by
  unfold evalDefineFunction
  split
  · split
    · exact upholds_malformed _ _
    · exact upholds_bind (upholds_paramsOf _ _) fun _ _ => upholds_bind (upholds_makeLambda U _ _ _ _) fun _ hvalue =>
        upholds_bind (upholds_assign U _ _ hvalue) fun _ _ => upholds_pure hvalue
  · exact upholds_malformed _ _

theorem upholds_evalFunction (operands : List Form) (span : Span) (frame : FrameId) :
    Upholds I V (@evalFunction host run operands span frame) (@evalFunction host' run' operands span frame) := by
  unfold evalFunction
  split
  · exact upholds_bind (upholds_paramsOf _ _) fun _ _ => upholds_makeLambda U _ _ _ _
  · exact upholds_malformed _ _

end

section

variable {host host' : HostNatives} {run run' : Body}

mutual

/-- **Every form upholds the property** if the bodies of called functions do. -/
theorem upholds_evalForm (U : Upheld host host' V I) (hrun : UpholdsBody V I run run') :
    ∀ (form : Form) (frame : FrameId),
      Upholds I V (@evalForm host run form frame) (@evalForm host' run' form frame)
  | .atom _ (.number x), _ => by unfold evalForm; exact upholds_pure (U.kind.number x)
  | .atom _ (.string text), _ => by unfold evalForm; exact upholds_pure (U.kind.string text)
  | .atom _ (.keyword name), _ => by unfold evalForm; exact upholds_pure (U.kind.keyword name)
  | .atom _ (.symbol _), _ => by unfold evalForm; exact upholds_lookup U _ _ _
  | .vector _ items, frame => by
    unfold evalForm
    exact upholds_bind (upholds_evalAll U hrun items frame) fun _ hvalues =>
      upholds_pure (U.kind.vector.mpr hvalues)
  | .map _ entries, frame => by unfold evalForm; exact upholds_evalEntries U hrun entries [] frame nofun
  | .list _ [], _ => by unfold evalForm; exact upholds_pure (U.kind.list.mpr nofun)
  | .list span (head :: operands), frame => by
    unfold evalForm
    cases head.special? with
    | some special =>
      cases special with
      | define => exact upholds_evalDefine U hrun operands span frame
      | defineFunction => exact upholds_evalDefineFunction U operands span frame
      | bindLocals => exact upholds_evalBindLocals U hrun operands span frame
      | choose => exact upholds_evalChoose U hrun operands span frame
      | sequence => exact upholds_evalSequence U hrun operands frame U.kind.nil
      | function => exact upholds_evalFunction U operands span frame
    | none =>
      refine upholds_bind (upholds_evalForm U hrun head frame) fun value hvalue => ?_
      split
      · exact upholds_bind (upholds_evalAll U hrun operands frame) fun _ hargs =>
          upholds_call U hrun hvalue hargs span
      · exact upholds_fail _ _

theorem upholds_evalAll (U : Upheld host host' V I) (hrun : UpholdsBody V I run run') :
    ∀ (forms : List Form) (frame : FrameId),
      Upholds I (∀ v ∈ ·, V v) (@evalAll host run forms frame) (@evalAll host' run' forms frame)
  | [], _ => by unfold evalAll; exact upholds_pure nofun
  | form :: rest, frame => by
    unfold evalAll
    exact upholds_bind (upholds_evalForm U hrun form frame) fun _ hvalue =>
      upholds_bind (upholds_evalAll U hrun rest frame) fun _ hvalues =>
        upholds_pure (List.forall_mem_cons.mpr ⟨hvalue, hvalues⟩)

theorem upholds_evalEntries (U : Upheld host host' V I) (hrun : UpholdsBody V I run run') :
    ∀ (entries : List (Form × Form)) (found : Dict Value) (frame : FrameId), (∀ entry ∈ found, V entry.2) →
      Upholds I V (@evalEntries host run entries found frame) (@evalEntries host' run' entries found frame)
  | [], found, _, hfound => by unfold evalEntries; exact upholds_pure (U.kind.map.mpr hfound)
  | (keyForm, valueForm) :: rest, found, frame, hfound => by
    unfold evalEntries
    refine upholds_bind (upholds_evalForm U hrun keyForm frame) fun keyValue _ =>
      upholds_bind (upholds_evalForm U hrun valueForm frame) fun value hvalue =>
        upholds_bind (upholds_mapKey keyValue _) fun key _ =>
          upholds_evalEntries U hrun rest _ frame fun entry hentry => ?_
    rcases Dict.mem_insert hentry with rfl | hentry
    · exact hvalue
    · exact hfound entry hentry

theorem upholds_evalDefine (U : Upheld host host' V I) (hrun : UpholdsBody V I run run') (operands : List Form)
    (span : Span) (frame : FrameId) :
    Upholds I V (@evalDefine host run operands span frame) (@evalDefine host' run' operands span frame) := by
  unfold evalDefine
  split
  · next nameForm valueForm =>
    split
    · exact upholds_malformed _ _
    · exact upholds_bind (upholds_evalForm U hrun valueForm frame) fun _ hvalue =>
        upholds_bind (upholds_assign U _ _ hvalue) fun _ _ => upholds_pure hvalue
  · exact upholds_malformed _ _

theorem upholds_evalBindLocals (U : Upheld host host' V I) (hrun : UpholdsBody V I run run') (operands : List Form)
    (span : Span) (frame : FrameId) :
    Upholds I V (@evalBindLocals host run operands span frame) (@evalBindLocals host' run' operands span frame) := by
  unfold evalBindLocals
  split
  · next bindingsSpan bindings body =>
    have hnone : ∀ entry ∈ ([] : List (String × Value)), V entry.2 := nofun
    split
    · exact upholds_malformed _ _
    · exact upholds_bind (upholds_enclose U frame hnone) fun inner _ =>
        upholds_bind (upholds_evalBindings U hrun bindings inner) fun _ _ => upholds_evalForm U hrun body inner
  · exact upholds_malformed _ _
  · exact upholds_malformed _ _

theorem upholds_evalBindings (U : Upheld host host' V I) (hrun : UpholdsBody V I run run') :
    ∀ (bindings : List Form) (frame : FrameId),
      Upholds I (fun _ => True) (@evalBindings host run bindings frame) (@evalBindings host' run' bindings frame)
  | nameForm :: valueForm :: rest, frame => by
    unfold evalBindings
    split
    · exact upholds_malformed _ _
    · exact upholds_bind (upholds_evalForm U hrun valueForm frame) fun _ hvalue =>
        upholds_bind (upholds_assign U _ _ hvalue) fun _ _ => upholds_evalBindings U hrun rest frame
  | [], _ => by unfold evalBindings; exact upholds_pure trivial
  | [_], _ => by unfold evalBindings; exact upholds_pure trivial

theorem upholds_evalChoose (U : Upheld host host' V I) (hrun : UpholdsBody V I run run') (operands : List Form)
    (span : Span) (frame : FrameId) :
    Upholds I V (@evalChoose host run operands span frame) (@evalChoose host' run' operands span frame) := by
  unfold evalChoose
  split
  · next condition consequent =>
    refine upholds_bind (upholds_evalForm U hrun condition frame) fun value _ => ?_
    split
    · exact upholds_evalForm U hrun consequent frame
    · exact upholds_pure U.kind.nil
  · next condition consequent alternate =>
    refine upholds_bind (upholds_evalForm U hrun condition frame) fun value _ => ?_
    split
    · exact upholds_evalForm U hrun consequent frame
    · exact upholds_evalForm U hrun alternate frame
  · exact upholds_malformed _ _

theorem upholds_evalSequence (U : Upheld host host' V I) (hrun : UpholdsBody V I run run') :
    ∀ (forms : List Form) {last : Value} (frame : FrameId), V last →
      Upholds I V (@evalSequence host run forms last frame) (@evalSequence host' run' forms last frame)
  | [], _, _, hlast => by unfold evalSequence; exact upholds_pure hlast
  | form :: rest, _, frame, _ => by
    unfold evalSequence
    exact upholds_bind (upholds_evalForm U hrun form frame) fun _ hvalue =>
      upholds_evalSequence U hrun rest frame hvalue

end

end

section

variable {host host' : HostNatives} (U : Upheld host host' V I)
include U

/-- Bodies uphold the property, however much room there is for calls. -/
theorem upholdsBody_bodyWithin (n : Nat) : UpholdsBody V I (@bodyWithin host n) (@bodyWithin host' n) := by
  induction n with
  | zero => exact .none
  | succ n ih => exact .some fun form frame => upholds_evalForm U ih form frame

/-- **Every evaluation upholds the property.** -/
theorem upholds_eval (form : Form) (frame : FrameId) :
    Upholds I V (@Session.eval host form frame) (@Session.eval host' form frame) :=
  fun t ht => upholds_evalForm U (upholdsBody_bodyWithin U t.room) form frame t ht

/-- **Forms one after the other** uphold the property. -/
theorem upholds_evalForms (forms : List Form) {last : Value} (hlast : V last) (frame : FrameId) :
    Upholds I V (@Session.evalForms host forms last frame) (@Session.evalForms host' forms last frame) := by
  induction forms generalizing last with
  | nil => exact upholds_pure hlast
  | cons form rest ih => exact upholds_bind (upholds_eval U form frame) fun _ hvalue => ih hvalue

end

end MusicLisp.Eval
