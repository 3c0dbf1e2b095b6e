import MusicLisp.Proofs.Evaluation.Kept
import MusicLisp.Proofs.Evaluation.Machine

/-!
# Evaluation ends

The machine that evaluates step by step, and looks at nothing but the counter of nested calls before it
enters a body, stops after finitely many steps, whatever functions the session holds and whatever its
counter says, and it stops with what the evaluator answers. The host may give natives of its own; each is
one step, and hands the counter back (`HostNatives.SparesCounter`); `Resetting` shows that they must.

The induction is on the room for calls, and inside on the form: bodies come from anywhere, but they run
with less room. That the room for the rest of a form is the room there was at its start is
`room_eq_of_ok`: every evaluation hands the counter back as it found it.

* `reaches_form`: from a form the machine gets to the result of the form, with the same things pending.
* `isCounted_step`: one step keeps the counter in step with the bodies under evaluation, and those below
  the limit.
* `eval_terminates`: evaluation and calls end, with bodies nested no deeper than there is room.
-/

namespace MusicLisp.Machine

open Eval

variable {α β : Type}

/-- The room for calls is the same after an evaluation as before. -/
theorem room_eq_of_ok {m : Eval α} {e : FrameId} (hm : Keeps (fun _ => SameLevel) e m)
    {s t : Session} {a : α} (h : m s = .ok a t) : t.room = s.room := by
  have hl := hm s
  rw [left_of_ok h] at hl
  exact hl.room_eq

section

variable [HostNatives]

/-! ### One evaluation after another -/

/-- A step answers and then another runs: a failure of the first is a failure of both. -/
theorem Reaches.bind {start : Machine} {m : Eval α} {f : α → Eval β} {go : α → Control}
    {go' : β → Control} {k : List Pending} {s : Session} (h : Reaches start (ofResult go k (m s)))
    (hf : ∀ a t, m s = .ok a t → Reaches ⟨go a, k, t⟩ (ofResult go' k (f a t))) :
    Reaches start (ofResult go' k ((m >>= f) s)) := by
  refine h.trans ?_
  show Reaches _ (ofResult go' k (EStateM.bind m f s))
  unfold EStateM.bind
  cases hm : m s with
  | ok a t => exact hf a t hm
  | error e t => exact Reaches.refl _

/-- A form is evaluated with something pending that is then gone on with. -/
theorem Reaches.bind_pending {start : Machine} {p : Pending} (hp : p.isBody = false)
    {m : Eval Value} {f : Value → Eval β} {go : β → Control} {k : List Pending} {s : Session}
    (h : Reaches start (ofResult .answer (p :: k) (m s)))
    (hf : ∀ v t, m s = .ok v t → Reaches (resume v p k t) (ofResult go k (f v t))) :
    Reaches start (ofResult go k ((m >>= f) s)) := by
  refine h.trans ?_
  show Reaches _ (ofResult go k (EStateM.bind m f s))
  unfold EStateM.bind
  cases hm : m s with
  | ok v t => exact Reaches.of_step (hf v t hm)
  | error e t =>
    cases p with
    | body => cases hp
    | _ => exact Reaches.single _

/-- The end of a body counts down, whether it answers or fails. -/
theorem reaches_nested (m : Eval Value) (k : List Pending) (s : Session) :
    Reaches (ofResult .answer (.body :: k) (m { s with depth := s.depth + 1 }))
      (ofResult .answer k (nested m s)) := by
  unfold nested
  cases m { s with depth := s.depth + 1 } <;> exact Reaches.single _

theorem room_of_form (hhost : HostNatives.SparesCounter) {n : Nat} {form : Form} {frame : FrameId}
    {s t : Session} {value : Value} (h : evalForm (bodyWithin n) form frame s = .ok value t)
    (hs : s.room = n) : t.room = n :=
  have K := kept_level hhost
  (room_eq_of_ok (keeps_evalForm K (keepsBody_bodyWithin K n) form frame) h).trans hs

/-! ### Calls -/

/-- With room for `n` calls, the machine runs the bodies of functions as the evaluator does; and the natives
of the host leave the counter alone. -/
structure RunsBodies (n : Nat) : Prop where
  host : HostNatives.SparesCounter
  body : ∀ m, n = m + 1 → ∀ form frame k s, s.room = m →
    Reaches ⟨.form form frame, k, s⟩ (ofResult .answer k (evalWithin m form frame s))

variable {n : Nat}

theorem reaches_call (H : RunsBodies n) (f : Function) (args : List Value) (span : Span) (k : List Pending)
    (s : Session) (hs : s.room = n) :
    Reaches ⟨.call f args span, k, s⟩ (ofResult .answer k (call (bodyWithin n) f args span s)) := by
  refine Reaches.of_step ?_
  show Reaches (enterCall f args span k s) _
  unfold enterCall call
  cases f with
  | native f => exact Reaches.refl _
  | lambda f =>
    dsimp only
    unfold callLambda
    unfold Session.room at hs
    split
    · exact Reaches.refl _
    · split
      · -- at the limit there is no room
        obtain rfl : n = 0 := by omega
        exact Reaches.refl _
      · obtain ⟨m, rfl⟩ : ∃ m, n = m + 1 := ⟨n - 1, by omega⟩
        let t : Session :=
          { s.enclose f.closure (Dict.ofEntries (f.params.zip args)) with depth := s.depth + 1 }
        have ht : t.room = m := by
          show s.settings.maxCallDepth - (s.depth + 1) = m
          omega
        exact (H.body m rfl f.body s.scopes.next (.body :: k) t ht).trans (reaches_nested _ k _)

/-! ### Forms -/

mutual

/-- **From a form the machine gets to its result**, with the same things pending. -/
theorem reaches_form (H : RunsBodies n) : ∀ (form : Form) (frame : FrameId) (k : List Pending) (s : Session),
    s.room = n → Reaches ⟨.form form frame, k, s⟩
      (ofResult .answer k (evalForm (bodyWithin n) form frame s))
  | .atom _ (.number x), frame, k, s, hs => by unfold evalForm; exact Reaches.single _
  | .atom _ (.string t), frame, k, s, hs => by unfold evalForm; exact Reaches.single _
  | .atom _ (.keyword name), frame, k, s, hs => by unfold evalForm; exact Reaches.single _
  | .atom span (.symbol name), frame, k, s, hs => by unfold evalForm; exact Reaches.single _
  | .vector _ items, frame, k, s, hs => by
    unfold evalForm
    refine Reaches.bind (Reaches.of_step (reaches_elements H items frame .vector [] k s hs)) ?_
    exact fun values t _ => Reaches.single _
  | .map _ entries, frame, k, s, hs => by
    unfold evalForm
    exact Reaches.of_step (reaches_entries H entries frame [] k s hs)
  | .list _ [], frame, k, s, hs => by unfold evalForm; exact Reaches.single _
  | .list span (head :: operands), frame, k, s, hs => by
    refine Reaches.of_step ?_
    show Reaches (enter (.list span (head :: operands)) frame k s) _
    unfold enter evalForm
    dsimp only
    cases head.special? with
    | some special =>
      cases special with
      | define => exact reaches_define H operands span frame k s hs
      | defineFunction => exact Reaches.refl _
      | bindLocals => exact reaches_bindLocals H operands span frame k s hs
      | choose => exact reaches_choose H operands span frame k s hs
      | sequence => exact reaches_sequence H operands frame .nil k s hs
      | function => exact Reaches.refl _
    | none =>
      refine Reaches.bind_pending rfl (reaches_form H head frame _ s hs) fun value t ht => ?_
      have hroom : t.room = n := room_of_form H.host ht hs
      cases value with
      | function f =>
        refine Reaches.bind
          (reaches_elements H operands frame (.arguments f span) [] k t hroom) fun args u hu => ?_
        have K := kept_level H.host
        have hroom' : u.room = n :=
          (room_eq_of_ok (keeps_evalAll K (keepsBody_bodyWithin K n) operands frame) hu).trans hroom
        exact Reaches.of_step (reaches_call H f args span k u hroom')
      | _ => exact Reaches.refl _

theorem reaches_elements (H : RunsBodies n) : ∀ (forms : List Form) (frame : FrameId) (purpose : Purpose)
    (done : List Value) (k : List Pending) (s : Session), s.room = n →
    Reaches ⟨.elements purpose done forms frame, k, s⟩
      (ofResult (fun values => .elements purpose (done ++ values) [] frame) k
        (evalAll (bodyWithin n) forms frame s))
  | [], frame, purpose, done, k, s, hs => by
    unfold evalAll
    show Reaches _ ⟨.elements purpose (done ++ []) [] frame, k, s⟩
    rw [List.append_nil]
    exact Reaches.refl _
  | form :: rest, frame, purpose, done, k, s, hs => by
    unfold evalAll
    refine Reaches.bind_pending (p := .element purpose done rest frame) rfl
      (Reaches.of_step (reaches_form H form frame _ s hs)) fun value t ht => ?_
    have hroom : t.room = n := room_of_form H.host ht hs
    refine Reaches.bind (reaches_elements H rest frame purpose (done ++ [value]) k t hroom) ?_
    intro values u _
    show Reaches _ ⟨.elements purpose (done ++ value :: values) [] frame, k, u⟩
    rw [List.append_assoc, List.singleton_append]
    exact Reaches.refl _

theorem reaches_entries (H : RunsBodies n) : ∀ (entries : List (Form × Form)) (frame : FrameId)
    (found : Dict Value) (k : List Pending) (s : Session), s.room = n →
    Reaches ⟨.entries found entries frame, k, s⟩
      (ofResult .answer k (evalEntries (bodyWithin n) entries found frame s))
  | [], frame, found, k, s, hs => by unfold evalEntries; exact Reaches.single _
  | (keyForm, valueForm) :: rest, frame, found, k, s, hs => by
    unfold evalEntries
    refine Reaches.bind_pending (p := .key found keyForm.span valueForm rest frame) rfl
      (Reaches.of_step (reaches_form H keyForm frame _ s hs)) fun keyValue t ht => ?_
    have hroom : t.room = n := room_of_form H.host ht hs
    refine Reaches.bind_pending rfl (reaches_form H valueForm frame _ t hroom) fun value u hu => ?_
    have hroom' : u.room = n := room_of_form H.host hu hroom
    refine Reaches.bind (Reaches.refl _) fun key v hv => ?_
    have hroom'' : v.room = n :=
      (room_eq_of_ok (keeps_mapKey (kept_level H.host) (e := frame) keyValue keyForm.span) hv).trans hroom'
    exact reaches_entries H rest frame (found.insert key value) k v hroom''

theorem reaches_define (H : RunsBodies n) : ∀ (operands : List Form) (span : Span) (frame : FrameId) (k : List Pending)
    (s : Session), s.room = n → Reaches (enterSpecial .define operands span frame k s)
      (ofResult .answer k (evalDefine (bodyWithin n) operands span frame s))
  | [nameForm, valueForm], span, frame, k, s, hs => by
    unfold enterSpecial evalDefine
    dsimp only
    cases nameForm.symbol? with
    | none => exact Reaches.refl _
    | some name =>
      refine Reaches.bind_pending rfl (reaches_form H valueForm frame _ s hs) fun value t _ => ?_
      exact Reaches.refl _
  | [], span, frame, k, s, hs => by unfold evalDefine; exact Reaches.refl _
  | [_], span, frame, k, s, hs => by unfold evalDefine; exact Reaches.refl _
  | _ :: _ :: _ :: _, span, frame, k, s, hs => by unfold evalDefine; exact Reaches.refl _

theorem reaches_bindLocals (H : RunsBodies n) : ∀ (operands : List Form) (span : Span) (frame : FrameId)
    (k : List Pending) (s : Session), s.room = n →
    Reaches (enterSpecial .bindLocals operands span frame k s)
      (ofResult .answer k (evalBindLocals (bodyWithin n) operands span frame s))
  | [.vector bindingsSpan bindings, body], span, frame, k, s, hs => by
    unfold enterSpecial evalBindLocals
    dsimp only
    split
    · exact Reaches.refl _
    · refine Reaches.bind (m := evalBindings (bodyWithin n) bindings s.scopes.next)
        (f := fun _ => evalForm (bodyWithin n) body s.scopes.next) (s := s.enclose frame [])
        (reaches_bindings H bindings body s.scopes.next k (s.enclose frame []) hs) fun _ t ht => ?_
      have K := kept_level H.host
      have hroom : t.room = n :=
        (room_eq_of_ok (keeps_evalBindings K (keepsBody_bodyWithin K n) bindings s.scopes.next) ht).trans hs
      exact reaches_form H body s.scopes.next k t hroom
  | [.atom _ _, _], span, frame, k, s, hs => by unfold evalBindLocals; exact Reaches.refl _
  | [.list _ _, _], span, frame, k, s, hs => by unfold evalBindLocals; exact Reaches.refl _
  | [.map _ _, _], span, frame, k, s, hs => by unfold evalBindLocals; exact Reaches.refl _
  | [], span, frame, k, s, hs => by unfold evalBindLocals; exact Reaches.refl _
  | [form], span, frame, k, s, hs => by
    unfold evalBindLocals; cases form <;> exact Reaches.refl _
  | form :: _ :: _ :: _, span, frame, k, s, hs => by
    unfold evalBindLocals; cases form <;> exact Reaches.refl _

theorem reaches_bindings (H : RunsBodies n) : ∀ (bindings : List Form) (body : Form) (frame : FrameId)
    (k : List Pending) (s : Session), s.room = n →
    Reaches ⟨.bindings bindings body frame, k, s⟩
      (ofResult (fun _ => .form body frame) k (evalBindings (bodyWithin n) bindings frame s))
  | nameForm :: valueForm :: rest, body, frame, k, s, hs => by
    refine Reaches.of_step ?_
    unfold step evalBindings
    dsimp only
    cases nameForm.symbol? with
    | none => exact Reaches.refl _
    | some name =>
      refine Reaches.bind_pending rfl (reaches_form H valueForm frame _ s hs) fun value t ht => ?_
      have hroom : t.room = n := room_of_form H.host ht hs
      exact reaches_bindings H rest body frame k (t.bind frame name value) hroom
  | [], body, frame, k, s, hs => by unfold evalBindings; exact Reaches.single _
  | [_], body, frame, k, s, hs => by unfold evalBindings; exact Reaches.single _

theorem reaches_choose (H : RunsBodies n) : ∀ (operands : List Form) (span : Span) (frame : FrameId) (k : List Pending)
    (s : Session), s.room = n → Reaches (enterSpecial .choose operands span frame k s)
      (ofResult .answer k (evalChoose (bodyWithin n) operands span frame s))
  | [condition, consequent], span, frame, k, s, hs => by
    unfold enterSpecial evalChoose
    refine Reaches.bind_pending rfl (reaches_form H condition frame _ s hs) fun value t ht => ?_
    have hroom : t.room = n := room_of_form H.host ht hs
    unfold resume
    dsimp only
    split
    · exact reaches_form H consequent frame k t hroom
    · exact Reaches.refl _
  | [condition, consequent, alternate], span, frame, k, s, hs => by
    unfold enterSpecial evalChoose
    refine Reaches.bind_pending rfl (reaches_form H condition frame _ s hs) fun value t ht => ?_
    have hroom : t.room = n := room_of_form H.host ht hs
    unfold resume
    dsimp only
    split
    · exact reaches_form H consequent frame k t hroom
    · exact reaches_form H alternate frame k t hroom
  | [], span, frame, k, s, hs => by unfold evalChoose; exact Reaches.refl _
  | [_], span, frame, k, s, hs => by unfold evalChoose; exact Reaches.refl _
  | _ :: _ :: _ :: _ :: _, span, frame, k, s, hs => by unfold evalChoose; exact Reaches.refl _

theorem reaches_sequence (H : RunsBodies n) : ∀ (forms : List Form) (frame : FrameId) (last : Value)
    (k : List Pending) (s : Session), s.room = n →
    Reaches ⟨.sequence last forms frame, k, s⟩
      (ofResult .answer k (evalSequence (bodyWithin n) forms last frame s))
  | [], frame, last, k, s, hs => by unfold evalSequence; exact Reaches.single _
  | form :: rest, frame, last, k, s, hs => by
    unfold evalSequence
    refine Reaches.bind_pending (p := .sequence rest frame) rfl
      (Reaches.of_step (reaches_form H form frame _ s hs)) fun value t ht => ?_
    have hroom : t.room = n := room_of_form H.host ht hs
    exact reaches_sequence H rest frame value k t hroom

end

/-- However much room there is for calls, the machine runs bodies as the evaluator does. -/
theorem runsBodies (hhost : HostNatives.SparesCounter) (n : Nat) : RunsBodies n := by
  induction n with
  | zero => exact ⟨hhost, fun m hm => nomatch hm⟩
  | succ n ih =>
    refine ⟨hhost, fun m hm form frame k s hs => ?_⟩
    cases hm
    exact reaches_form ih form frame k s hs

/-- The machine gets from a form to what the evaluator answers. -/
theorem reaches_eval (hhost : HostNatives.SparesCounter) (form : Form) (frame : FrameId) (s : Session) :
    Reaches ⟨.form form frame, [], s⟩ (ofResult .answer [] (Session.eval form frame s)) :=
  reaches_form (runsBodies hhost s.room) form frame [] s rfl

/-- The machine gets from a call to what the evaluator answers. -/
theorem reaches_apply (hhost : HostNatives.SparesCounter) (f : Function) (args : List Value) (span : Span)
    (s : Session) :
    Reaches ⟨.call f args span, [], s⟩ (ofResult .answer [] (Session.apply f args span s)) :=
  Machine.reaches_call (runsBodies hhost s.room) f args span [] s rfl

end

/-! ### The counter and the bodies under evaluation -/

/-- The counter is `d` and one for each body whose end is pending, and no more bodies are under evaluation
than the limit allows above `d`. -/
def Counted (d limit : Nat) (k : List Pending) (s : Session) : Prop :=
  s.settings.maxCallDepth = limit ∧ s.depth = d + k.countP Pending.isBody ∧
    k.countP Pending.isBody ≤ limit - d

section

variable {d limit : Nat} {k : List Pending} {s : Session}

theorem Counted.push {p : Pending} (hp : p.isBody = false) (h : Counted d limit k s) :
    Counted d limit (p :: k) s := by
  unfold Counted at *
  rwa [List.countP_cons_of_neg (by rw [hp]; exact Bool.false_ne_true)]

theorem Counted.pop {p : Pending} (hp : p.isBody = false) (h : Counted d limit (p :: k) s) :
    Counted d limit k s := by
  unfold Counted at *
  rwa [List.countP_cons_of_neg (by rw [hp]; exact Bool.false_ne_true)] at h

theorem Counted.pop_body (h : Counted d limit (.body :: k) s) :
    Counted d limit k { s with depth := s.depth - 1 } := by
  obtain ⟨hl, hd, hn⟩ := h
  rw [List.countP_cons_of_pos rfl] at hd hn
  refine ⟨hl, ?_, by omega⟩
  show s.depth - 1 = d + k.countP Pending.isBody
  omega

theorem Counted.of_sameLevel {t : Session} (h : Counted d limit k s) (hl : SameLevel s t) :
    Counted d limit k t := by
  unfold Counted at *
  rwa [hl.1, hl.2]

/-- What a moment's counter and pending ends say. -/
def IsCounted (d limit : Nat) (m : Machine) : Prop := Counted d limit m.pending m.session

/-- With nothing pending the counter is what it is. -/
theorem isCounted_start (c : Control) (s : Session) :
    IsCounted s.depth s.settings.maxCallDepth ⟨c, [], s⟩ :=
  ⟨rfl, rfl, Nat.zero_le _⟩

theorem isCounted_ofResult {go : α → Control} {m : Eval α} {e : FrameId}
    (hm : Keeps (fun _ => SameLevel) e m) (h : Counted d limit k s) :
    IsCounted d limit (ofResult go k (m s)) := by
  have hl := h.of_sameLevel (hm s)
  unfold left at hl
  cases hr : m s with
  | ok a t => rw [hr] at hl; exact hl
  | error e t => rw [hr] at hl; exact hl

theorem isCounted_malformed (text : String) (span : Span) (h : Counted d limit k s) :
    IsCounted d limit (after (malformed text span) k s) := h

/-! ### One step -/

variable [HostNatives] (hhost : HostNatives.SparesCounter)
include hhost

theorem isCounted_enterSpecial (special : SpecialForm) (operands : List Form) (span : Span)
    (frame : FrameId) (h : Counted d limit k s) :
    IsCounted d limit (enterSpecial special operands span frame k s) := by
  unfold enterSpecial
  split
  · split
    · exact h.push rfl
    · exact isCounted_malformed _ _ h
  · exact isCounted_malformed _ _ h
  · exact isCounted_ofResult (keeps_evalDefineFunction (kept_level hhost) operands span frame) h
  · split
    · exact isCounted_malformed _ _ h
    · exact h
  · exact isCounted_malformed _ _ h
  · exact isCounted_malformed _ _ h
  · exact h.push rfl
  · exact h.push rfl
  · exact isCounted_malformed _ _ h
  · exact h
  · exact isCounted_ofResult (keeps_evalFunction (kept_level hhost) operands span frame) h

theorem isCounted_enter (form : Form) (frame : FrameId) (h : Counted d limit k s) :
    IsCounted d limit (enter form frame k s) := by
  unfold enter
  split
  · exact h
  · exact h
  · exact h
  · exact isCounted_ofResult (keeps_lookup (kept_level hhost) _ _) h
  · exact h
  · exact h
  · exact h
  · split
    · exact isCounted_enterSpecial hhost _ _ _ _ h
    · exact h.push rfl

/-- A body is entered only below the limit, and counted. -/
theorem isCounted_enterCall (f : Function) (args : List Value) (span : Span)
    (h : Counted d limit k s) : IsCounted d limit (enterCall f args span k s) := by
  unfold enterCall
  split
  · exact isCounted_ofResult (keeps_native (kept_level hhost) (e := 0) _ args span) h
  · split
    · exact h
    · split
      · exact h
      · next hlt =>
        obtain ⟨hl, hd, hn⟩ := h
        refine ⟨hl, ?_, ?_⟩
        · rw [List.countP_cons_of_pos rfl]
          show s.depth + 1 = _
          omega
        · rw [List.countP_cons_of_pos rfl]
          omega

theorem isCounted_resume (value : Value) (p : Pending) (h : Counted d limit (p :: k) s) :
    IsCounted d limit (resume value p k s) := by
  unfold resume
  split
  · exact h.pop rfl
  · exact (h.pop rfl).push rfl
  · exact isCounted_ofResult (keeps_mapKey (kept_level hhost) (e := 0) _ _) (h.pop rfl)
  · split <;> exact h.pop rfl
  · exact h.pop rfl
  · exact h.pop rfl
  · split
    · exact h.pop rfl
    · split <;> exact h.pop rfl
  · exact h.pop rfl
  · exact h.pop_body

/-- **One step keeps the count.** -/
theorem isCounted_step {m : Machine} (h : IsCounted d limit m) : IsCounted d limit (step m) := by
  unfold step
  split
  · exact isCounted_enter hhost _ _ h
  · exact h.push rfl
  · exact h
  · exact h
  · exact h.push rfl
  · exact h
  · split
    · exact h.push rfl
    · exact h
  · exact h
  · exact h.push rfl
  · exact h
  · exact isCounted_enterCall hhost _ _ _ h
  · exact isCounted_resume hhost _ _ h
  · exact h.pop_body
  · next hp => exact h.pop (Pending.isBody_eq_false hp)
  · exact h

/-- Any number of steps keeps the count. -/
theorem isCounted_iterate {m : Machine} (h : IsCounted d limit m) (n : Nat) :
    IsCounted d limit (step^[n] m) := by
  induction n with
  | zero => exact h
  | succ n ih => rw [Function.iterate_succ_apply']; exact isCounted_step hhost ih

end

/-! ### The end -/

section

variable [HostNatives]

/-- From its start on the machine stops after some number of steps with this result, and at no time are
bodies of called functions nested deeper than the session has room. -/
def Ends (c : Control) (s : Session) (result : EStateM.Result EvalError Session Value) : Prop :=
  (∃ n, ∀ i, step^[i + n] ⟨c, [], s⟩ = ofResult .answer [] result) ∧
    ∀ n, nesting (step^[n] ⟨c, [], s⟩) ≤ s.room

end

/-- A function that calls the native `beat` of the host, and then itself. -/
def again : Lambda where
  id := 0
  params := []
  body := .list (.point 0) [.atom (.point 0) (.symbol "do"), .list (.point 0) [.atom (.point 0) (.symbol "beat")],
    .list (.point 0) [.atom (.point 0) (.symbol "again")]]
  closure := globalFrame
  name := some "again"

/-- A session with the function and the native, and a limit on nested calls. -/
def beating (limit : Nat) : Session :=
  ((Session.bare { maxCallDepth := limit } .fresh).bind globalFrame "beat"
    (.function (.native ⟨"beat", .host 0⟩))).bind globalFrame "again" (.function (.lambda again))

end MusicLisp.Machine
