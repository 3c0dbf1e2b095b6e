import MusicLisp.Eval

/-!
# What every evaluation keeps

A relation between the session that an evaluation finds and the one it leaves holds of all evaluations
as soon as it holds of the few things an evaluation is made of (`Kept`): doing nothing, one step after
another, binding a name in its own frame, making a function, carrying out an effect of a native, whatever
a native of the host does, going on in a frame of its own inside, and running the body of a called
function.

* `keeps_evalForm`: the induction over forms, for any way of running bodies that keeps the relation.
* `keepsBody_bodyWithin`: the induction over the room for calls.
* `keeps_eval`, `keeps_apply`: every evaluation and every call keep it.

A first use is `kept_level`: the counter of nested calls and the settings come back as they were, if every
native of the host hands them back (`HostNatives.SparesCounter`).
-/

namespace MusicLisp.Eval

variable {α β : Type}

/-- The session that a step leaves, whether it answers or fails. -/
def left (m : Eval α) (s : Session) : Session :=
  match m s with
  | .ok _ t => t
  | .error _ t => t

theorem left_of_ok {m : Eval α} {s t : Session} {a : α} (h : m s = .ok a t) : left m s = t := by
  unfold left; rw [h]

theorem left_nested (m : Eval α) (s : Session) :
    left (nested m) s =
      let t := left m { s with depth := s.depth + 1 }
      { t with depth := t.depth - 1 } := by
  unfold left nested
  cases m { s with depth := s.depth + 1 } <;> rfl

/-- `R e s t` may hold whenever an evaluation in the frame `e` finds the session `s` and leaves `t`. -/
structure Kept [HostNatives] (R : FrameId → Session → Session → Prop) : Prop where
  refl : ∀ e s, R e s s
  trans : ∀ {e s t u}, R e s t → R e t u → R e s u
  bind : ∀ e name value s, R e s (s.bind e name value)
  made : ∀ e s, R e s { s with lambdas := s.lambdas + 1 }
  effect : ∀ e x s, R e s (s.perform x)
  host : ∀ e key args span s, R e s (left (HostNatives.run key args span) s)
  inner : ∀ {e s t}, R s.scopes.next (s.enclose e []) t → R e s t
  body : ∀ {e s t} outer bindings,
    R s.scopes.next { s.enclose outer bindings with depth := s.depth + 1 } t →
      R e s { t with depth := t.depth - 1 }

/-- Whatever session a step finds, `R` relates it to the one it leaves. -/
def Keeps (R : FrameId → Session → Session → Prop) (e : FrameId) (m : Eval α) : Prop :=
  ∀ s, R e s (left m s)

/-- The bodies of called functions keep `R`. -/
def KeepsBody (R : FrameId → Session → Session → Prop) (run : Body) : Prop :=
  ∀ f, run = some f → ∀ form e, Keeps R e (f form e)

section

variable [HostNatives] {R : FrameId → Session → Session → Prop} (K : Kept R) {e : FrameId}
include K

/-! ### Steps without evaluation inside -/

theorem keeps_pure (a : α) : Keeps R e (pure a : Eval α) := fun s => K.refl e s

theorem keeps_fail (cause : EvalCause) (span : Span) : Keeps R e (fail cause span : Eval α) :=
  fun s => K.refl e s

theorem keeps_malformed (text : String) (span : Span) : Keeps R e (malformed text span : Eval α) :=
  keeps_fail K _ _

theorem keeps_bind {m : Eval α} {f : α → Eval β} (hm : Keeps R e m) (hf : ∀ a, Keeps R e (f a)) :
    Keeps R e (m >>= f) := by
  intro s
  have h := hm s
  show R e s (left (EStateM.bind m f) s)
  unfold left EStateM.bind at *
  cases hs : m s with
  | ok a t =>
    rw [hs] at h
    exact K.trans h (hf a t)
  | error x t => rw [hs] at h; exact h

theorem keeps_lookup (name : String) (span : Span) : Keeps R e (lookup name span e) := by
  intro s
  have h : left (lookup name span e) s = s := by
    unfold left lookup
    cases s.scopes.lookup e name <;> rfl
  rw [h]
  exact K.refl e s

theorem keeps_assign (name : String) (value : Value) : Keeps R e (assign e name value) :=
  fun s => K.bind e name value s

theorem keeps_makeLambda (params : List String) (body : Form) (closure : FrameId)
    (name : Option String) : Keeps R e (makeLambda params body closure name) :=
  fun s => K.made e s

theorem keeps_mapKey (value : Value) (span : Span) : Keeps R e (mapKey value span) := by
  unfold mapKey
  split
  · exact keeps_pure K _
  · exact keeps_pure K _
  · exact keeps_fail K _ _

theorem keeps_paramNames (params : List Form) : Keeps R e (paramNames params) := by
  induction params with
  | nil => exact keeps_pure K _
  | cons param rest ih =>
    unfold paramNames
    split
    · exact keeps_malformed K _ _
    · exact keeps_bind K ih fun names => keeps_pure K _

theorem keeps_paramsOf (form : SpecialForm) (params : Form) : Keeps R e (paramsOf form params) := by
  unfold paramsOf
  split
  · exact keeps_paramNames K _
  · exact keeps_malformed K _ _

theorem keeps_callNative (op : Operation) (args : List Value) (span : Span) :
    Keeps R e (callNative op args span) := by
  intro s
  unfold left callNative
  cases op.answer s.settings s.engine args with
  | error cause => exact K.refl e s
  | ok answer => exact K.effect e answer.2 s

theorem keeps_native (f : Native) (args : List Value) (span : Span) : Keeps R e (f.call args span) := by
  unfold Native.call
  cases f.code with
  | operation op => exact keeps_callNative K op args span
  | host key => exact K.host e key args span

/-! ### Calls -/

variable {run : Body}

theorem keeps_callLambda (hrun : KeepsBody R run) (f : Lambda) (args : List Value) (span : Span) :
    Keeps R e (callLambda run f args span) := by
  unfold callLambda
  split
  · exact keeps_fail K _ _
  · split
    · exact fun s => K.refl e s
    · next g =>
      intro s
      let bindings := Dict.ofEntries (f.params.zip args)
      have h := K.body (e := e) f.closure bindings (hrun g rfl f.body s.scopes.next
        { s.enclose f.closure bindings with depth := s.depth + 1 })
      show R e s (left (nested (g f.body s.scopes.next)) (s.enclose f.closure bindings))
      rwa [left_nested]

theorem keeps_call (hrun : KeepsBody R run) (f : Function) (args : List Value) (span : Span) :
    Keeps R e (call run f args span) := by
  cases f with
  | lambda f => exact keeps_callLambda K hrun f args span
  | native f => exact keeps_native K f args span

/-! ### Forms -/

theorem keeps_evalDefineFunction (operands : List Form) (span : Span) (e : FrameId) :
    Keeps R e (evalDefineFunction run operands span e) := by
  unfold evalDefineFunction
  split
  · split
    · exact keeps_malformed K _ _
    · exact keeps_bind K (keeps_paramsOf K _ _) fun names =>
        keeps_bind K (keeps_makeLambda K _ _ _ _) fun value =>
          keeps_bind K (keeps_assign K _ value) fun _ => keeps_pure K _
  · exact keeps_malformed K _ _

theorem keeps_evalFunction (operands : List Form) (span : Span) (e : FrameId) :
    Keeps R e (evalFunction run operands span e) := by
  unfold evalFunction
  split
  · exact keeps_bind K (keeps_paramsOf K _ _) fun names => keeps_makeLambda K _ _ _ _
  · exact keeps_malformed K _ _

mutual

/-- **Every form keeps the relation** if the bodies of called functions do. -/
theorem keeps_evalForm (hrun : KeepsBody R run) : ∀ (form : Form) (e : FrameId),
    Keeps R e (evalForm run form e)
  | .atom _ (.number x), e => by unfold evalForm; exact keeps_pure K _
  | .atom _ (.string s), e => by unfold evalForm; exact keeps_pure K _
  | .atom _ (.keyword name), e => by unfold evalForm; exact keeps_pure K _
  | .atom span (.symbol name), e => by unfold evalForm; exact keeps_lookup K _ _
  | .vector _ items, e => by
    unfold evalForm
    exact keeps_bind K (keeps_evalAll hrun items e) fun values => keeps_pure K _
  | .map _ entries, e => by unfold evalForm; exact keeps_evalEntries hrun entries [] e
  | .list _ [], e => by unfold evalForm; exact keeps_pure K _
  | .list span (head :: operands), e => by
    unfold evalForm
    split
    · exact keeps_evalDefine hrun operands span e
    · exact keeps_evalDefineFunction K operands span e
    · exact keeps_evalBindLocals hrun operands span e
    · exact keeps_evalChoose hrun operands span e
    · exact keeps_evalSequence hrun operands .nil e
    · exact keeps_evalFunction K operands span e
    · refine keeps_bind K (keeps_evalForm hrun head e) fun value => ?_
      split
      · exact keeps_bind K (keeps_evalAll hrun operands e) fun args => keeps_call K hrun _ args span
      · exact keeps_fail K _ _

theorem keeps_evalAll (hrun : KeepsBody R run) : ∀ (forms : List Form) (e : FrameId),
    Keeps R e (evalAll run forms e)
  | [], e => by unfold evalAll; exact keeps_pure K _
  | form :: rest, e => by
    unfold evalAll
    exact keeps_bind K (keeps_evalForm hrun form e) fun value =>
      keeps_bind K (keeps_evalAll hrun rest e) fun values => keeps_pure K _

theorem keeps_evalEntries (hrun : KeepsBody R run) : ∀ (entries : List (Form × Form))
    (found : Dict Value) (e : FrameId), Keeps R e (evalEntries run entries found e)
  | [], found, e => by unfold evalEntries; exact keeps_pure K _
  | (keyForm, valueForm) :: rest, found, e => by
    unfold evalEntries
    exact keeps_bind K (keeps_evalForm hrun keyForm e) fun keyValue =>
      keeps_bind K (keeps_evalForm hrun valueForm e) fun value =>
        keeps_bind K (keeps_mapKey K keyValue _) fun key =>
          keeps_evalEntries hrun rest (found.insert key value) e

theorem keeps_evalDefine (hrun : KeepsBody R run) (operands : List Form) (span : Span) (e : FrameId) :
    Keeps R e (evalDefine run operands span e) := by
  unfold evalDefine
  split
  · next nameForm valueForm =>
    split
    · exact keeps_malformed K _ _
    · exact keeps_bind K (keeps_evalForm hrun valueForm e) fun value =>
        keeps_bind K (keeps_assign K _ value) fun _ => keeps_pure K _
  · exact keeps_malformed K _ _

theorem keeps_evalBindLocals (hrun : KeepsBody R run) (operands : List Form) (span : Span) (e : FrameId) :
    Keeps R e (evalBindLocals run operands span e) := by
  unfold evalBindLocals
  split
  · next bindingsSpan bindings body =>
    split
    · exact keeps_malformed K _ _
    · intro s
      -- the bindings and the body run in the frame made just before
      exact K.inner (keeps_bind K (keeps_evalBindings hrun bindings s.scopes.next)
        (fun _ => keeps_evalForm hrun body s.scopes.next) (s.enclose e []))
  · exact keeps_malformed K _ _
  · exact keeps_malformed K _ _

theorem keeps_evalBindings (hrun : KeepsBody R run) : ∀ (bindings : List Form) (e : FrameId),
    Keeps R e (evalBindings run bindings e)
  | nameForm :: valueForm :: rest, e => by
    unfold evalBindings
    split
    · exact keeps_malformed K _ _
    · exact keeps_bind K (keeps_evalForm hrun valueForm e) fun value =>
        keeps_bind K (keeps_assign K _ value) fun _ => keeps_evalBindings hrun rest e
  | [], e => by unfold evalBindings; exact keeps_pure K _
  | [_], e => by unfold evalBindings; exact keeps_pure K _

theorem keeps_evalChoose (hrun : KeepsBody R run) (operands : List Form) (span : Span) (e : FrameId) :
    Keeps R e (evalChoose run operands span e) := by
  unfold evalChoose
  split
  · next condition consequent =>
    refine keeps_bind K (keeps_evalForm hrun condition e) fun value => ?_
    split
    · exact keeps_evalForm hrun consequent e
    · exact keeps_pure K _
  · next condition consequent alternate =>
    refine keeps_bind K (keeps_evalForm hrun condition e) fun value => ?_
    split
    · exact keeps_evalForm hrun consequent e
    · exact keeps_evalForm hrun alternate e
  · exact keeps_malformed K _ _

theorem keeps_evalSequence (hrun : KeepsBody R run) : ∀ (forms : List Form) (last : Value) (e : FrameId),
    Keeps R e (evalSequence run forms last e)
  | [], last, e => by unfold evalSequence; exact keeps_pure K _
  | form :: rest, last, e => by
    unfold evalSequence
    exact keeps_bind K (keeps_evalForm hrun form e) fun value => keeps_evalSequence hrun rest value e

end

/-- Bodies keep the relation, however much room there is for calls. -/
theorem keepsBody_bodyWithin (n : Nat) : KeepsBody R (bodyWithin n) := by
  induction n with
  | zero => intro f hf; cases hf
  | succ n ih =>
    intro f hf form e
    cases hf
    exact keeps_evalForm K ih form e

end

section

variable [HostNatives] {R : FrameId → Session → Session → Prop} (K : Kept R)
include K

/-- **Every evaluation keeps the relation.** -/
theorem keeps_evalWithin (n : Nat) (form : Form) (e : FrameId) : Keeps R e (evalWithin n form e) :=
  keeps_evalForm K (keepsBody_bodyWithin K n) form e

theorem keeps_eval (form : Form) (e : FrameId) : Keeps R e (Session.eval form e) :=
  fun s => keeps_evalWithin K s.room form e s

/-- **Every call keeps the relation**, in whichever frame it is made. -/
theorem keeps_apply (f : Function) (args : List Value) (span : Span) (e : FrameId) :
    Keeps R e (Session.apply f args span) :=
  fun s => keeps_call K (keepsBody_bodyWithin K s.room) f args span s

/-- Forms evaluated one after the other keep the relation. -/
theorem keeps_evalForms (forms : List Form) (last : Value) (e : FrameId) :
    Keeps R e (Session.evalForms forms last e) := by
  induction forms generalizing last with
  | nil => exact keeps_pure K _
  | cons form rest ih => exact keeps_bind K (keeps_eval K form e) ih

end

/-! ### The counter of nested calls -/

/-- The counter of nested calls and the settings of two sessions agree. -/
def SameLevel (s t : Session) : Prop := t.depth = s.depth ∧ t.settings = s.settings

theorem SameLevel.room_eq {s t : Session} (h : SameLevel s t) : t.room = s.room := by
  unfold Session.room; rw [h.1, h.2]

theorem sameLevel_perform (s : Session) (x : Effect) : SameLevel s (s.perform x) := by
  rw [s.perform_eq x]
  exact ⟨rfl, rfl⟩

end Eval

open Eval

/-- **The natives of the host hand the counter back**: whatever else they do to a session, the counter of nested
calls and the settings are as before. -/
def HostNatives.SparesCounter [HostNatives] : Prop :=
  ∀ key args span s, SameLevel s (left (HostNatives.run key args span) s)

/-- A host without natives has none that could touch the counter. -/
theorem sparesCounter_none : @HostNatives.SparesCounter .none := fun _ _ _ _ => ⟨rfl, rfl⟩

theorem Eval.kept_level [HostNatives] (hhost : HostNatives.SparesCounter) : Kept fun _ s t => SameLevel s t where
  refl _ _ := ⟨rfl, rfl⟩
  trans h h' := ⟨h'.1.trans h.1, h'.2.trans h.2⟩
  bind _ _ _ _ := ⟨rfl, rfl⟩
  made _ _ := ⟨rfl, rfl⟩
  effect _ x s := sameLevel_perform s x
  host _ := hhost
  inner h := h
  body _ _ h := ⟨by rw [h.1]; rfl, h.2⟩

end MusicLisp
