import MusicLisp.Proofs.Evaluation.Acts
import MusicLisp.Proofs.Evaluation.Depth
import MusicLisp.Proofs.Evaluation.Matching

/-!
# Runs and their records

The steps of a run put things on record, such as the names that were bound or what the engine was asked for. What is
on record at the end of an evaluation is then as well determined as its result.

* `Machine.Runs`: some number of steps leads from one moment to another and puts this on record. A run to an end has
  one record (`Runs.unique`), and what is kept by every step holds after a run (`Runs.keeps`).
* `Host.start?`, `Host.End`: the moments at which the machine starts and ends what a host asks of a session. A text
  that cannot be read is not taken up.
* `Host.Records`: what a call of the host puts on record. **Every call has one record** (`existsUnique_records`).
-/

namespace MusicLisp

namespace Machine

open Eval

variable {α : Type} {note : Machine → List α} {a b c : Machine} {log log' : List α}

/-- What the steps put on record one after the other. -/
def trace (note : Machine → List α) : Nat → Machine → List α
  | 0, _ => []
  | n + 1, m => note m ++ trace note n (step m)

/-- **Some number of steps leads from one moment to another** and puts this on record. -/
def Runs (note : Machine → List α) (a : Machine) (log : List α) (b : Machine) : Prop :=
  ∃ n, step^[n] a = b ∧ trace note n a = log

theorem trace_add (i j : Nat) (m : Machine) : trace note (i + j) m = trace note i m ++ trace note j (step^[i] m) := by
  induction i generalizing m with
  | zero => rw [Nat.zero_add]; rfl
  | succ i ih =>
    rw [Nat.succ_add, trace, trace, ih, List.append_assoc]
    rfl

/-- A moment that stays as it is and has nothing to record never puts anything on record. -/
theorem trace_fixed (hb : step b = b) (hnote : note b = []) (n : Nat) : trace note n b = [] := by
  induction n with
  | zero => rfl
  | succ n ih => rw [trace, hb, ih, hnote, List.append_nil]

namespace Runs

theorem reaches (h : Runs note a log b) : Reaches a b := by
  obtain ⟨n, hn, -⟩ := h
  exact ⟨n, hn⟩

theorem exists_of_reaches (h : Reaches a b) : ∃ log, Runs note a log b := by
  obtain ⟨n, hn⟩ := h
  exact ⟨_, n, hn, rfl⟩

/-- **A run to an end has one record.** -/
theorem unique (h : Runs note a log b) (h' : Runs note a log' b) (hb : step b = b) (hnote : note b = []) :
    log = log' := by
  obtain ⟨i, hi, rfl⟩ := h
  obtain ⟨j, hj, rfl⟩ := h'
  rcases Nat.le_total i j with hle | hle
  · obtain ⟨d, rfl⟩ := Nat.exists_eq_add_of_le hle
    rw [trace_add, hi, trace_fixed hb hnote, List.append_nil]
  · obtain ⟨d, rfl⟩ := Nat.exists_eq_add_of_le hle
    rw [trace_add, hj, trace_fixed hb hnote, List.append_nil]

/-- **What is kept from step to step**, about the moment and all that is on record by then, is kept by a run. -/
theorem keeps {I : List α → Machine → Prop} (hstep : ∀ record m, I record m → I (record ++ note m) (step m))
    (h : Runs note a log b) {record : List α} (ha : I record a) : I (record ++ log) b := by
  obtain ⟨n, rfl, rfl⟩ := h
  induction n generalizing a record with
  | zero =>
    rw [trace, List.append_nil]
    exact ha
  | succ n ih =>
    rw [trace, ← List.append_assoc]
    exact ih (hstep record a ha)

end Runs

/-- From forms one after the other the machine gets to what the evaluator answers. -/
theorem reaches_evalForms (forms : List Form) (last : Value) (frame : FrameId) (s : Session) :
    Reaches ⟨.sequence last forms frame, [], s⟩ (ofResult .answer [] (Session.evalForms forms last frame s)) := by
  induction forms generalizing last s with
  | nil => exact .single _
  | cons form rest ih =>
    refine Reaches.of_step ?_
    have H := runsBodies sparesCounter_none s.room
    exact Reaches.bind_pending (p := .sequence rest frame) rfl
      (reaches_form H form frame [.sequence rest frame] s rfl) fun value t _ => ih value t

end Machine

/-! ### Calls of a host -/

namespace Host

open Machine Eval

/-- The moment at which the machine takes up a call. -/
def start? : Host → Session → Option Machine
  | evaluate source, s =>
    match readForms source with
    | .ok forms => some ⟨.sequence .nil forms globalFrame, [], s.ready forms⟩
    | .error _ => none
  | eval form frame, s => some ⟨.form form frame, [], s⟩
  | apply f args span, s => some ⟨.call f args span, [], s⟩

/-- What a step answers, if it does. -/
def answerOf? : EStateM.Result EvalError Session Value → Option Value
  | .ok v _ => some v
  | .error _ _ => none

/-- What the session answers to a call, if it does. -/
def answer? : Host → Session → Option Value
  | evaluate source, s => (s.evaluate source).1.result.toOption
  | eval form frame, s => answerOf? (Session.eval form frame s)
  | apply f args span, s => answerOf? (Session.apply f args span s)

/-- **The moment at which a call ends**, with the frames and the engine that it leaves and with what it answers. -/
structure End (call : Host) (s : Session) (m : Machine) : Prop where
  fixed : step m = m
  rest : m.act = .rest
  scopes : m.session.scopes = (call.run s).scopes
  engine : m.session.engine = (call.run s).engine
  answer : ∀ v, call.answer? s = some v → m.control = .answer v

theorem start?_evaluate_of_ok {source : String} {forms : List Form} (h : readForms source = .ok forms) (s : Session) :
    (evaluate source).start? s = some ⟨.sequence .nil forms globalFrame, [], s.ready forms⟩ := by
  change (match readForms source with | .ok forms => _ | .error _ => none) = _
  rw [h]

theorem start?_evaluate_of_error {source : String} {e : ReadError} (h : readForms source = .error e) (s : Session) :
    (evaluate source).start? s = none := by
  change (match readForms source with | .ok forms => _ | .error _ => none) = _
  rw [h]

theorem session_ofResult (m : Eval Value) (s : Session) : (ofResult .answer [] (m s)).session = left m s := by
  unfold left
  cases m s <;> rfl

theorem control_ofResult {r : EStateM.Result EvalError Session Value} {v : Value} (h : answerOf? r = some v) :
    (ofResult .answer [] r).control = .answer v := by
  cases r with
  | ok w t =>
    cases h
    rfl
  | error e t => cases h

/-- A text that can be read leaves the frames and the engine that its forms leave, and answers what they answer. -/
theorem close_cases (r : EStateM.Result EvalError Session Value) :
    (ofResult .answer [] r).session.scopes = (Session.close r).2.scopes ∧
      (ofResult .answer [] r).session.engine = (Session.close r).2.engine ∧
      (Session.close r).1.result.toOption = answerOf? r := by
  cases r <;> exact ⟨rfl, rfl, rfl⟩

/-- **What is taken up comes to an end.** -/
theorem exists_end {call : Host} {s : Session} {m : Machine} (h : call.start? s = some m) :
    ∃ e, Reaches m e ∧ call.End s e := by
  have hend : ∀ r, (ofResult .answer [] r).session.scopes = (call.run s).scopes →
      (ofResult .answer [] r).session.engine = (call.run s).engine → call.answer? s = answerOf? r →
      call.End s (ofResult .answer [] r) := fun r hscopes hengine hanswer =>
    ⟨step_ofResult_nil r, act_ofResult_nil r, hscopes, hengine, fun v hv => control_ofResult (hanswer ▸ hv)⟩
  cases call with
  | evaluate source =>
    cases hread : readForms source with
    | error e => cases (start?_evaluate_of_error hread s).symm.trans h
    | ok forms =>
      obtain rfl := Option.some.inj ((start?_evaluate_of_ok hread s).symm.trans h)
      obtain ⟨hscopes, hengine, hanswer⟩ := close_cases (Session.evalForms forms .nil globalFrame (s.ready forms))
      rw [← Session.evaluate_of_ok hread] at hscopes hengine hanswer
      exact ⟨_, reaches_evalForms forms .nil globalFrame _, hend _ hscopes hengine hanswer⟩
  | eval form frame =>
    obtain rfl := Option.some.inj h
    have hsession := session_ofResult (Session.eval form frame) s
    exact ⟨_, reaches_eval sparesCounter_none form frame s, hend _ (congrArg _ hsession) (congrArg _ hsession) rfl⟩
  | apply f args span =>
    obtain rfl := Option.some.inj h
    have hsession := session_ofResult (Session.apply f args span) s
    exact ⟨_, reaches_apply sparesCounter_none f args span s, hend _ (congrArg _ hsession) (congrArg _ hsession) rfl⟩

/-- A text that cannot be read is answered by nothing and changes neither the frames nor the engine. -/
theorem of_start?_eq_none {call : Host} {s : Session} (h : call.start? s = none) :
    (call.run s).scopes = s.scopes ∧ (call.run s).engine = s.engine ∧ call.answer? s = none := by
  cases call with
  | evaluate source =>
    cases hread : readForms source with
    | ok forms => cases (start?_evaluate_of_ok hread s).symm.trans h
    | error e =>
      change (s.evaluate source).2.scopes = _ ∧ (s.evaluate source).2.engine = _ ∧
        (s.evaluate source).1.result.toOption = none
      unfold Session.evaluate Session.run
      rw [hread]
      exact ⟨rfl, rfl, rfl⟩
  | eval | apply => cases h

section

variable {α : Type} (note : Machine → List α)

/-- **What a call of the host puts on record.** -/
inductive Records (call : Host) (s : Session) : List α → Prop
  | unread (hstart : call.start? s = none) : Records call s []
  | run {m e : Machine} {log : List α} (hstart : call.start? s = some m) (hend : call.End s e)
    (hrun : Runs note m log e) : Records call s log

variable {note} (hnote : ∀ m : Machine, m.act = .rest → note m = [])
include hnote

/-- **Every call of the host has one record**, if nothing is on record for a step that does nothing. -/
theorem existsUnique_records (call : Host) (s : Session) : ∃! log, call.Records note s log := by
  cases hstart : call.start? s with
  | none =>
    refine ⟨[], .unread hstart, fun log h => ?_⟩
    cases h with
    | unread => rfl
    | run hstart' => cases hstart.symm.trans hstart'
  | some m =>
    obtain ⟨e, hreaches, hend⟩ := exists_end hstart
    obtain ⟨log, hrun⟩ : ∃ log, Runs note m log e := Runs.exists_of_reaches hreaches
    refine ⟨log, .run hstart hend hrun, fun log' h => ?_⟩
    cases h with
    | unread hstart' => cases hstart.symm.trans hstart'
    | @run m' e' _ hstart' hend' hrun' =>
      cases hstart.symm.trans hstart'
      obtain rfl : e' = e := hrun'.reaches.eq_of_fixed hend'.fixed hreaches hend.fixed
      exact hrun'.unique hrun hend.fixed (hnote e' hend.rest)

end

end Host

end MusicLisp
