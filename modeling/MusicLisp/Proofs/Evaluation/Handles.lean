import MusicLisp.Proofs.Evaluation.Acts
import MusicLisp.Proofs.Evaluation.Frames
import MusicLisp.Proofs.Native.Handles

/-!
# Handles in a run

A moment of an evaluation holds frames and values: in what is done next, in what is pending, and in what is bound. A
step moves them about. The only handles it makes are the frame that it makes and the node that it starts.

* `Machine.Only A`: all frames and all handles in the values of a moment have the property `A`.
* `Act.Makes`: the handle that an act makes.
* `only_step`: **a step keeps the property**, if the handle that it makes has it. What it binds and where, and around
  which frame it makes one, has the property too (`only_act`).
* `Session.only_start`: a fresh session holds no handles at all.
-/

namespace MusicLisp

variable (A : Handle → Prop)

/-- The purpose holds only handles with a property. -/
def Purpose.Only : Purpose → Prop
  | vector => True
  | arguments f _ => (Value.function f).Only A

/-- What is pending holds only handles with a property. -/
def Pending.Only : Pending → Prop
  | element purpose done _ frame => purpose.Only A ∧ (∀ v ∈ done, v.Only A) ∧ A (.frame frame)
  | key found _ _ _ frame => (∀ entry ∈ found, entry.2.Only A) ∧ A (.frame frame)
  | entry found _ _ _ frame => (∀ entry ∈ found, entry.2.Only A) ∧ A (.frame frame)
  | head _ _ _ frame => A (.frame frame)
  | define _ frame => A (.frame frame)
  | binding _ _ _ frame => A (.frame frame)
  | condition _ _ frame => A (.frame frame)
  | sequence _ frame => A (.frame frame)
  | body => True

/-- What is done next holds only handles with a property. -/
def Control.Only : Control → Prop
  | form _ frame => A (.frame frame)
  | elements purpose done _ frame => purpose.Only A ∧ (∀ v ∈ done, v.Only A) ∧ A (.frame frame)
  | entries found _ frame => (∀ entry ∈ found, entry.2.Only A) ∧ A (.frame frame)
  | bindings _ _ frame => A (.frame frame)
  | sequence last _ frame => last.Only A ∧ A (.frame frame)
  | call f args _ => (Value.function f).Only A ∧ ∀ v ∈ args, v.Only A
  | answer value => value.Only A
  | failure _ => True

/-- An act deals only with handles with a property. -/
def Act.Only : Act → Prop
  | rest => True
  | bind frame _ value => A (.frame frame) ∧ value.Only A
  | enclose outer entries => A (.frame outer) ∧ ∀ entry ∈ entries, entry.2.Only A
  | perform _ _ => True

/-- **A moment holds only handles with a property.** -/
structure Machine.Only (m : Machine) : Prop where
  control : m.control.Only A
  pending : ∀ p ∈ m.pending, p.Only A
  scopes : m.session.scopes.Only A

/-- The handle that an act makes in a session: a frame, or a node for one of the two operations that start synths. -/
inductive Act.Makes (s : Session) : Act → Handle → Prop
  | frame {outer : FrameId} {entries : List (String × Value)} : Makes s (.enclose outer entries) (.frame s.scopes.next)
  | node {op : Operation} {name : String} {params : Dict Float} (hop : op = .synth ∨ op = .playNote)
    (hparams : params.Ordered) :
    Makes s (.perform op (.command (.trigger name params))) (.node ⟨s.engine.nextNode, name, params⟩)

variable {A} {B : Handle → Prop}

section

variable (hAB : ∀ h, A h → B h)
include hAB

theorem Purpose.Only.mono {purpose : Purpose} (h : purpose.Only A) : purpose.Only B := by
  cases purpose with
  | vector => trivial
  | arguments f span => exact Value.Only.mono hAB h

theorem Pending.Only.mono {p : Pending} (h : p.Only A) : p.Only B := by
  cases p with
  | element => exact ⟨h.1.mono hAB, fun v hv => (h.2.1 v hv).mono hAB, hAB _ h.2.2⟩
  | key | entry => exact ⟨fun entry hentry => (h.1 entry hentry).mono hAB, hAB _ h.2⟩
  | head | define | binding | condition | sequence => exact hAB _ h
  | body => trivial

theorem Control.Only.mono {c : Control} (h : c.Only A) : c.Only B := by
  cases c with
  | elements => exact ⟨h.1.mono hAB, fun v hv => (h.2.1 v hv).mono hAB, hAB _ h.2.2⟩
  | entries => exact ⟨fun entry hentry => (h.1 entry hentry).mono hAB, hAB _ h.2⟩
  | form | bindings => exact hAB _ h
  | sequence => exact ⟨h.1.mono hAB, hAB _ h.2⟩
  | call => exact ⟨h.1.mono hAB, fun v hv => (h.2 v hv).mono hAB⟩
  | answer => exact Value.Only.mono hAB h
  | failure => trivial

theorem Machine.Only.mono {m : Machine} (h : m.Only A) : m.Only B :=
  ⟨h.control.mono hAB, fun p hp => (h.pending p hp).mono hAB, h.scopes.mono hAB⟩

end

namespace Machine

open Eval

section

variable {k : List Pending} {s : Session} (hk : ∀ p ∈ k, p.Only A) (hs : s.scopes.Only A)
include hk hs

theorem only_push {c : Control} {p : Pending} (hc : c.Only A) (hp : p.Only A) : Only A ⟨c, p :: k, s⟩ :=
  ⟨hc, List.forall_mem_cons.mpr ⟨hp, hk⟩, hs⟩

theorem only_malformed (text : String) (span : Span) : Only A (after (malformed text span) k s) := ⟨trivial, hk, hs⟩

theorem only_fail (cause : EvalCause) (span : Span) : Only A (after (fail cause span) k s) := ⟨trivial, hk, hs⟩

theorem only_lookup (name : String) (span : Span) (frame : FrameId) : Only A (after (lookup name span frame) k s) := by
  unfold after lookup
  cases h : s.scopes.lookup frame name with
  | none => exact ⟨trivial, hk, hs⟩
  | some v => exact ⟨hs.lookup h, hk, hs⟩

theorem only_enterSpecial (special : SpecialForm) (operands : List Form) (span : Span) {frame : FrameId}
    (hframe : A (.frame frame)) (hnew : ∀ h, (actSpecial special operands span frame s).Makes s h → A h) :
    Only A (enterSpecial special operands span frame k s) := by
  unfold enterSpecial
  split
  · split
    · exact only_push hk hs hframe hframe
    · exact only_malformed hk hs _ _
  · exact only_malformed hk hs _ _
  · obtain ⟨name, params, body, -, h⟩ | ⟨text, at', h⟩ := evalDefineFunction_cases none operands span frame
    · rw [h]
      have hf := Value.only_lambda (A := A) (f := ⟨s.lambdas, params, body, frame, some name⟩).mpr hframe
      exact ⟨hf, hk, hs.bind frame name hf⟩
    · rw [h]
      exact only_malformed hk hs _ _
  · next bindingsSpan bindings body =>
    unfold actSpecial at hnew
    dsimp only at hnew
    split
    · exact only_malformed hk hs _ _
    · next heven =>
      rw [if_neg heven] at hnew
      have hnone : ∀ entry ∈ ([] : List (String × Value)), entry.2.Only A := nofun
      exact ⟨hnew _ .frame, hk, hs.push (some frame) hnone⟩
  · exact only_malformed hk hs _ _
  · exact only_malformed hk hs _ _
  · exact only_push hk hs hframe hframe
  · exact only_push hk hs hframe hframe
  · exact only_malformed hk hs _ _
  · exact ⟨⟨Value.only_nil, hframe⟩, hk, hs⟩
  · obtain ⟨params, body, h⟩ | ⟨text, at', h⟩ := evalFunction_cases none operands span frame
    · rw [h]
      exact ⟨Value.only_lambda.mpr hframe, hk, hs⟩
    · rw [h]
      exact only_malformed hk hs _ _

theorem only_enter (form : Form) {frame : FrameId} (hframe : A (.frame frame))
    (hnew : ∀ h, (act ⟨.form form frame, k, s⟩).Makes s h → A h) : Only A (enter form frame k s) := by
  unfold enter
  split
  · exact ⟨Value.only_number _, hk, hs⟩
  · exact ⟨Value.only_string _, hk, hs⟩
  · exact ⟨Value.only_keyword _, hk, hs⟩
  · exact only_lookup hk hs _ _ _
  · exact ⟨⟨trivial, nofun, hframe⟩, hk, hs⟩
  · exact ⟨⟨nofun, hframe⟩, hk, hs⟩
  · exact ⟨Value.only_list.mpr nofun, hk, hs⟩
  · next span head operands =>
    unfold act at hnew
    dsimp only at hnew
    split
    · next special hspecial =>
      rw [hspecial] at hnew
      exact only_enterSpecial hk hs special operands span hframe hnew
    · exact only_push hk hs hframe hframe

theorem only_callNative (op : Operation) {args : List Value} (hargs : ∀ v ∈ args, v.Only A) (span : Span)
    (hnew : ∀ v x, op.answer s.settings s.engine args = .ok (v, x) → ∀ h, (Act.perform op x).Makes s h → A h) :
    Only A (after (callNative op args span) k s) := by
  unfold after callNative
  cases hanswer : op.answer s.settings s.engine args with
  | error cause => exact only_fail hk hs cause span
  | ok answer =>
    refine ⟨?_, hk, ?_⟩
    · cases op.answer_answered s.settings s.engine args answer hanswer with
      | old hv _ =>
        intro h hb
        obtain ⟨a, ha, hab⟩ := hv h hb
        exact hargs a ha h hab
      | new hop hparams =>
        rintro _ ⟨⟩
        exact hnew _ _ hanswer _ (.node hop hparams)
    · change (s.perform answer.2).scopes.Only A
      rw [scopes_perform]
      exact hs

theorem only_enterCall {f : Function} {args : List Value} (hf : (Value.function f).Only A)
    (hargs : ∀ v ∈ args, v.Only A) (span : Span) (hnew : ∀ h, (actCall f args s).Makes s h → A h) :
    Only A (enterCall f args span k s) := by
  unfold enterCall
  cases f with
  | native f =>
    obtain ⟨name, op | key⟩ := f
    · refine only_callNative hk hs op hargs span fun v x hanswer h hmakes => hnew h ?_
      unfold actCall
      dsimp only
      rw [hanswer]
      exact hmakes
    · exact ⟨Value.only_nil, hk, hs⟩
  | lambda f =>
    unfold actCall at hnew
    dsimp only at hnew ⊢
    split
    · exact only_fail hk hs _ _
    · next hlength =>
      rw [if_neg hlength] at hnew
      split
      · exact only_fail hk hs _ _
      · next hroom =>
        rw [if_neg hroom] at hnew
        have hentries : ∀ entry ∈ f.params.zip args, entry.2.Only A := fun entry hentry =>
          hargs _ (List.of_mem_zip hentry).2
        refine ⟨hnew _ .frame, List.forall_mem_cons.mpr ⟨trivial, hk⟩, ?_⟩
        exact hs.push (some f.closure) hentries

theorem only_resume {v : Value} (hv : v.Only A) {p : Pending} (hp : p.Only A) : Only A (resume v p k s) := by
  cases p with
  | element purpose done rest frame =>
    refine ⟨⟨hp.1, fun w hw => ?_, hp.2.2⟩, hk, hs⟩
    rcases List.mem_append.mp hw with hw | hw
    · exact hp.2.1 w hw
    · exact List.mem_singleton.mp hw ▸ hv
  | key found span valueForm rest frame => exact only_push hk hs hp.2 hp
  | entry found keyValue span rest frame =>
    change Only A (ofResult _ k (mapKey keyValue span s))
    obtain ⟨key, h⟩ | h := mapKey_cases keyValue span
    · rw [h]
      refine ⟨⟨fun entry hentry => ?_, hp.2⟩, hk, hs⟩
      rcases Dict.mem_insert hentry with rfl | hentry
      · exact hv
      · exact hp.1 entry hentry
    · rw [h]
      exact only_fail hk hs _ _
  | head headSpan operands span frame =>
    cases v with
    | function f => exact ⟨⟨hv, nofun, hp⟩, hk, hs⟩
    | _ => exact only_fail hk hs _ _
  | define name frame => exact ⟨hv, hk, hs.bind frame name hv⟩
  | binding name rest body frame => exact ⟨hp, hk, hs.bind frame name hv⟩
  | condition consequent alternate frame =>
    change Only A (if v.truthy then _ else _)
    split
    · exact ⟨hp, hk, hs⟩
    · cases alternate with
      | some alternate => exact ⟨hp, hk, hs⟩
      | none => exact ⟨Value.only_nil, hk, hs⟩
  | sequence rest frame => exact ⟨⟨hv, hp⟩, hk, hs⟩
  | body => exact ⟨hv, hk, hs⟩

end

/-- **A step makes no handles but those of its act.** -/
theorem only_step {m : Machine} (h : m.Only A) (hnew : ∀ x, m.act.Makes m.session x → A x) : (step m).Only A := by
  obtain ⟨control, k, s⟩ := m
  obtain ⟨hcontrol, hk, hs⟩ := h
  cases control with
  | form form frame => exact only_enter hk hs form hcontrol hnew
  | elements purpose done rest frame =>
    obtain ⟨hpurpose, hdone, hframe⟩ := hcontrol
    cases rest with
    | nil =>
      cases purpose with
      | vector => exact ⟨Value.only_vector.mpr hdone, hk, hs⟩
      | arguments f span => exact ⟨⟨hpurpose, hdone⟩, hk, hs⟩
    | cons form rest => exact only_push hk hs hframe ⟨hpurpose, hdone, hframe⟩
  | entries found rest frame =>
    cases rest with
    | nil => exact ⟨Value.only_map.mpr hcontrol.1, hk, hs⟩
    | cons entry rest => exact only_push hk hs hcontrol.2 hcontrol
  | bindings rest body frame =>
    match rest with
    | [] | [_] => exact ⟨hcontrol, hk, hs⟩
    | nameForm :: valueForm :: rest =>
      unfold step
      dsimp only
      cases nameForm.symbol? with
      | some name => exact only_push hk hs hcontrol hcontrol
      | none => exact only_malformed hk hs _ _
  | sequence last rest frame =>
    cases rest with
    | nil => exact ⟨hcontrol.1, hk, hs⟩
    | cons form rest => exact only_push hk hs hcontrol.2 hcontrol.2
  | call f args span => exact only_enterCall hk hs hcontrol.1 hcontrol.2 span hnew
  | answer value =>
    cases k with
    | nil => exact ⟨hcontrol, hk, hs⟩
    | cons p k =>
      obtain ⟨hp, hrest⟩ := List.forall_mem_cons.mp hk
      exact only_resume hrest hs hcontrol hp
  | failure e =>
    cases k with
    | nil => exact ⟨trivial, hk, hs⟩
    | cons p k =>
      obtain ⟨-, hrest⟩ := List.forall_mem_cons.mp hk
      cases p <;> exact ⟨trivial, hrest, hs⟩

/-- **The act of a step deals only with handles of the moment before it.** -/
theorem only_act {m : Machine} (h : m.Only A) : m.act.Only A := by
  obtain ⟨control, k, s⟩ := m
  obtain ⟨hcontrol, hk, hs⟩ := h
  unfold act
  split
  · next span head operands frame _ _ heq =>
    cases heq
    cases head.special? with
    | none => trivial
    | some special =>
      unfold actSpecial
      dsimp only
      split
      · obtain ⟨name, params, body, -, h⟩ | ⟨text, at', h⟩ := evalDefineFunction_cases none operands span frame
        · rw [h]
          cases operands.head?.bind Form.symbol? with
          | none => trivial
          | some name' => exact ⟨hcontrol, Value.only_lambda.mpr hcontrol⟩
        · rw [h]
          cases operands.head?.bind Form.symbol? <;> trivial
      · split
        · trivial
        · exact ⟨hcontrol, nofun⟩
      · trivial
  · next f args _ _ _ heq =>
    cases heq
    unfold actCall
    cases f with
    | native f =>
      obtain ⟨name, op | key⟩ := f
      · dsimp only
        split <;> trivial
      · trivial
    | lambda f =>
      dsimp only
      split
      · trivial
      · split
        · trivial
        · exact ⟨Value.only_lambda.mp hcontrol.1, fun entry hentry => hcontrol.2 _ (List.of_mem_zip hentry).2⟩
  · next heq =>
    cases heq
    exact ⟨(List.forall_mem_cons.mp hk).1, hcontrol⟩
  · next heq =>
    cases heq
    exact ⟨(List.forall_mem_cons.mp hk).1, hcontrol⟩
  · trivial

end Machine

/-! ### Fresh sessions -/

/-- What is bound in a fresh session: the constants, and the natives under their names. -/
def startEntries : List (String × Value) :=
  [("true", .boolean true), ("false", .boolean false), ("nil", .nil)] ++
    Operation.standard.map fun op => (op.name, .function (.native ⟨op.name, .operation op⟩))

theorem Session.start_eq (settings : Settings) (engine : Engine) : Session.start settings engine =
    startEntries.foldl (fun s entry => s.bind globalFrame entry.1 entry.2) (bare settings engine) := by
  unfold startEntries
  rw [List.foldl_append, List.foldl_map]
  rfl

/-- A property of sessions that binding what is bound in a fresh session keeps holds of fresh sessions. -/
theorem Session.start_induction {P : Session → Prop} {settings : Settings} {engine : Engine}
    (hbare : P (bare settings engine))
    (hbind : ∀ entry ∈ startEntries, ∀ s, P s → P (s.bind globalFrame entry.1 entry.2)) : P (start settings engine) := by
  rw [start_eq]
  exact List.foldlRecOn startEntries _ hbare fun s hs entry hentry => hbind entry hentry s hs

theorem only_startEntries : ∀ entry ∈ startEntries, entry.2.Only A := by
  intro entry hentry
  rcases List.mem_append.mp hentry with hentry | hentry
  · simp only [List.mem_cons, List.not_mem_nil, or_false] at hentry
    rcases hentry with rfl | rfl | rfl
    · exact Value.only_boolean true
    · exact Value.only_boolean false
    · exact Value.only_nil
  · obtain ⟨op, -, rfl⟩ := List.mem_map.mp hentry
    exact Value.only_native _

/-- **A fresh session holds no handles.** -/
theorem Session.only_start (settings : Settings) (engine : Engine) : (Session.start settings engine).scopes.Only A := by
  have hnone : ∀ entry ∈ ([] : List (String × Value)), entry.2.Only A := nofun
  have hbare : (bare settings engine).scopes.Only A := Scopes.only_empty.push none hnone
  exact start_induction (P := fun s => s.scopes.Only A) hbare fun entry hentry s hs =>
    hs.bind globalFrame entry.1 (only_startEntries entry hentry)

end MusicLisp
