import MusicLisp.Proofs.Evaluation.Moves
import MusicLisp.Proofs.Evaluation.Termination
import Mathlib.Data.Nat.Find

/-!
# Raising the limit on nested calls

Two evaluations of the same, in sessions that differ in the limit alone, go step by step alike up to a call that
the lower limit refuses. From there on the one gives up what is pending, and the other only adds to what was
printed and sent.

* `step_withLimit`: a step that is not refused is the same under a higher limit.
* `lockstep`: so is a run of such steps. `ends_withLimit` compares the ends of two runs by looking for the first
  call that is refused.
* `conservative_withLimit`: a result other than a refusal is the same under a higher limit, and what was printed
  and sent up to a refusal comes first in what is printed and sent under a higher limit.
-/

namespace MusicLisp

/-- The session with another limit on nested calls. -/
def Session.withLimit (limit : Nat) (s : Session) : Session :=
  { s with settings := { s.settings with maxCallDepth := limit } }

theorem Operation.answer_withLimit (limit : Nat) (settings : Settings) (engine : Engine) (op : Operation)
    (args : List Value) :
    op.answer { settings with maxCallDepth := limit } engine args = op.answer settings engine args := by
  cases op <;> rfl

theorem Session.perform_withLimit (limit : Nat) (s : Session) (x : Effect) :
    (s.withLimit limit).perform x = (s.perform x).withLimit limit := by
  cases x with
  | print line =>
    have hlog : (s.withLimit limit).settings.logPrinted = s.settings.logPrinted := rfl
    unfold perform
    dsimp only
    rw [hlog]
    split <;> rfl
  | none | sleep seconds | command c | setTempo bpm => rfl

namespace Machine

open Eval

/-- The moment under another limit on nested calls. -/
def withLimit (limit : Nat) (m : Machine) : Machine := { m with session := m.session.withLimit limit }

/-- A call is tried that the limit refuses. -/
def AtLimit (m : Machine) : Prop := ∃ f args span, m.control = .call (.lambda f) args span ∧
  args.length = f.params.length ∧ m.session.settings.maxCallDepth ≤ m.session.depth

/-! ### One step -/

section

variable (limit : Nat) (k : List Pending) (s : Session)

theorem callNative_withLimit (op : Operation) (args : List Value) (span : Span) :
    after (callNative op args span) k (s.withLimit limit) =
      (after (callNative op args span) k s).withLimit limit := by
  have hanswer := op.answer_withLimit limit s.settings s.engine args
  unfold after callNative
  dsimp only [Session.withLimit]
  rw [hanswer]
  cases op.answer s.settings s.engine args with
  | error cause => rfl
  | ok answer => exact congrArg (Machine.mk _ k) (s.perform_withLimit limit answer.2)

theorem lookup_withLimit (name : String) (span : Span) (frame : FrameId) :
    after (lookup name span frame) k (s.withLimit limit) =
      (after (lookup name span frame) k s).withLimit limit := by
  have hscopes : (s.withLimit limit).scopes = s.scopes := rfl
  unfold after lookup
  rw [hscopes]
  cases s.scopes.lookup frame name <;> rfl

theorem mapKey_withLimit (go : String → Control) (value : Value) (span : Span) :
    ofResult go k (mapKey value span (s.withLimit limit)) =
      (ofResult go k (mapKey value span s)).withLimit limit := by
  obtain ⟨key, h⟩ | h := mapKey_cases value span <;> rw [h] <;> rfl

theorem enterSpecial_withLimit (special : SpecialForm) (operands : List Form) (span : Span)
    (frame : FrameId) : enterSpecial special operands span frame k (s.withLimit limit) =
      (enterSpecial special operands span frame k s).withLimit limit := by
  unfold enterSpecial
  split
  · split <;> rfl
  · rfl
  · obtain ⟨name, params, body, -, h⟩ | ⟨text, at', h⟩ :=
      evalDefineFunction_cases none operands span frame <;> rw [h] <;> rfl
  · split <;> rfl
  · rfl
  · rfl
  · rfl
  · rfl
  · rfl
  · rfl
  · obtain ⟨params, body, h⟩ | ⟨text, at', h⟩ := evalFunction_cases none operands span frame <;>
      rw [h] <;> rfl

theorem enter_withLimit (form : Form) (frame : FrameId) :
    enter form frame k (s.withLimit limit) = (enter form frame k s).withLimit limit := by
  unfold enter
  split
  · rfl
  · rfl
  · rfl
  · exact lookup_withLimit _ _ _ _ _ _
  · rfl
  · rfl
  · rfl
  · split
    · exact enterSpecial_withLimit _ _ _ _ _ _ _
    · rfl

theorem resume_withLimit (value : Value) (p : Pending) :
    resume value p k (s.withLimit limit) = (resume value p k s).withLimit limit := by
  unfold resume
  split
  · rfl
  · rfl
  · exact mapKey_withLimit _ _ _ _ _ _
  · split <;> rfl
  · rfl
  · rfl
  · split
    · rfl
    · split <;> rfl
  · rfl
  · rfl

theorem enterCall_withLimit (f : Function) (args : List Value) (span : Span)
    (hle : s.settings.maxCallDepth ≤ limit) (hm : ¬ AtLimit ⟨.call f args span, k, s⟩) :
    enterCall f args span k (s.withLimit limit) = (enterCall f args span k s).withLimit limit := by
  cases f with
  | native f =>
    obtain ⟨name, op | key⟩ := f
    · exact callNative_withLimit _ _ _ op args span
    · rfl
  | lambda f =>
    unfold enterCall
    dsimp only
    split
    · rfl
    · next hargs =>
      have hroom : s.depth < s.settings.maxCallDepth :=
        Nat.lt_of_not_le fun hfull => hm ⟨f, args, span, rfl, of_not_not hargs, hfull⟩
      have hroom' : ¬ (s.withLimit limit).settings.maxCallDepth ≤ (s.withLimit limit).depth :=
        Nat.not_le_of_lt (Nat.lt_of_lt_of_le hroom hle)
      rw [if_neg hroom', if_neg (Nat.not_le_of_lt hroom)]
      rfl

end

/-- **A step that is not refused** is the same under a higher limit. -/
theorem step_withLimit {limit : Nat} {m : Machine} (hle : m.session.settings.maxCallDepth ≤ limit)
    (hm : ¬ AtLimit m) : step (m.withLimit limit) = (step m).withLimit limit := by
  obtain ⟨c, k, s⟩ := m
  cases c with
  | form form frame => exact enter_withLimit _ _ _ _ _
  | elements purpose done rest frame =>
    cases rest with
    | nil => cases purpose <;> rfl
    | cons form rest => rfl
  | entries found rest frame => cases rest <;> rfl
  | bindings rest body frame =>
    match rest with
    | [] | [_] => rfl
    | nameForm :: valueForm :: rest =>
      unfold step withLimit
      dsimp only
      cases nameForm.symbol? <;> rfl
  | sequence last rest frame => cases rest <;> rfl
  | call f args span => exact enterCall_withLimit _ _ _ _ _ _ hle hm
  | answer value =>
    cases k with
    | nil => rfl
    | cons p k => exact resume_withLimit _ _ _ _ _
  | failure e =>
    cases k with
    | nil => rfl
    | cons p k => cases p <;> rfl

/-! ### Runs -/

theorem Move.settings_eq {m m' : Machine} (h : Move m m') : m'.session.settings = m.session.settings := by
  cases h with
  | calm h => exact h.level.2
  | enter | refuse | leave | unwind | stay => rfl

theorem Move.precedes {m m' : Machine} (h : Move m m') : m.session.Precedes m'.session := by
  cases h with
  | calm h => exact h.record
  | enter | refuse | leave | unwind | stay => exact ⟨List.prefix_refl _, List.prefix_refl _⟩

theorem settings_iterate (m : Machine) (n : Nat) :
    (step^[n] m).session.settings = m.session.settings := by
  induction n with
  | zero => rfl
  | succ n ih =>
    rw [Function.iterate_succ_apply']
    exact (step_move _).settings_eq.trans ih

/-- What was printed and sent stays. -/
theorem precedes_iterate (m : Machine) (n : Nat) : m.session.Precedes (step^[n] m).session := by
  induction n with
  | zero => exact .refl _
  | succ n ih =>
    rw [Function.iterate_succ_apply']
    exact ih.trans (step_move _).precedes

/-- A failure stays what it is, and nothing is printed or sent after it. -/
theorem failure_step {m : Machine} {e : EvalError} (h : m.control = .failure e) :
    (step m).control = .failure e ∧ (step m).session.Precedes m.session := by
  obtain ⟨c, k, s⟩ := m
  subst h
  cases k with
  | nil => exact ⟨rfl, .refl s⟩
  | cons p k =>
    cases p <;> exact ⟨rfl, List.prefix_refl _, List.prefix_refl _⟩

theorem failure_iterate {m : Machine} {e : EvalError} (h : m.control = .failure e) (n : Nat) :
    (step^[n] m).control = .failure e ∧ (step^[n] m).session.Precedes m.session := by
  induction n with
  | zero => exact ⟨h, .refl _⟩
  | succ n ih =>
    rw [Function.iterate_succ_apply']
    obtain ⟨hc, hp⟩ := failure_step ih.1
    exact ⟨hc, hp.trans ih.2⟩

/-- At the limit the call is refused, and the session stays as it is. -/
theorem AtLimit.step {m : Machine} (h : AtLimit m) : Refused (step m) ∧ (step m).session = m.session := by
  obtain ⟨f, args, span, hc, hargs, hfull⟩ := h
  obtain ⟨c, k, s⟩ := m
  subst hc
  have hstep : Machine.step ⟨.call (.lambda f) args span, k, s⟩ =
      ⟨.failure ⟨.callDepthExceeded s.settings.maxCallDepth, span⟩, k, s⟩ := by
    unfold Machine.step enterCall
    dsimp only
    rw [if_neg (not_not_intro hargs), if_pos hfull]
    rfl
  rw [hstep]
  exact ⟨⟨_, _, rfl⟩, rfl⟩

section

variable {limit : Nat} {m : Machine}

/-- **Two runs go alike** as long as no call is refused. -/
theorem lockstep (hle : m.session.settings.maxCallDepth ≤ limit) {n : Nat}
    (h : ∀ i < n, ¬ AtLimit (step^[i] m)) : step^[n] (m.withLimit limit) = (step^[n] m).withLimit limit := by
  induction n with
  | zero => rfl
  | succ n ih =>
    rw [Function.iterate_succ_apply', Function.iterate_succ_apply',
      ih fun i hi => h i (Nat.lt_succ_of_lt hi)]
    refine step_withLimit ?_ (h n (Nat.lt_succ_self n))
    rw [settings_iterate]
    exact hle

/-- **Two runs to their ends** are alike, or the one with the lower limit is refused a call. -/
theorem ends_withLimit {a b : Machine} (hle : m.session.settings.maxCallDepth ≤ limit)
    (ha : Reaches m a) (hfa : step a = a) (hb : Reaches (m.withLimit limit) b) (hfb : step b = b) :
    b = a.withLimit limit ∨ Refused a ∧ a.session.Precedes b.session := by
  classical
  by_cases h : ∃ i, AtLimit (step^[i] m)
  · -- The first call that is refused: what was printed and sent up to it is all there is in the one run.
    have hlimit := Nat.find_spec h
    have hbefore : ∀ i < Nat.find h, ¬ AtLimit (step^[i] m) := fun i hi => Nat.find_min h hi
    generalize Nat.find h = i at hlimit hbefore
    obtain ⟨⟨n, span, hfail⟩, hsession⟩ := hlimit.step
    obtain ⟨k, rfl⟩ := Reaches.of_fixed ha hfa (.trans ⟨i, rfl⟩ (.single (step^[i] m)))
    obtain ⟨hrefused, hdone⟩ := failure_iterate hfail k
    rw [hsession] at hdone
    refine .inr ⟨⟨n, span, hrefused⟩, hdone.trans ?_⟩
    obtain ⟨l, rfl⟩ := Reaches.of_fixed hb hfb ⟨i, lockstep hle hbefore⟩
    have hmore := precedes_iterate ((step^[i] m).withLimit limit) l
    exact ⟨hmore.printed, hmore.sent⟩
  · have hnever : ∀ i, ¬ AtLimit (step^[i] m) := fun i hi => h ⟨i, hi⟩
    obtain ⟨n, rfl⟩ := ha
    refine .inl (hb.eq_of_fixed hfb ⟨n, lockstep hle fun i _ => hnever i⟩ ?_)
    rw [step_withLimit ((settings_iterate m n).symm ▸ hle) (hnever n), hfa]

end

end Machine

/-! ### Evaluations -/

open Eval in
/-- **A higher limit changes nothing but refusals.** Where the lower limit refuses a call, what is printed and
sent up to then comes first in what is printed and sent under the higher one. -/
structure Conservative (limit : Nat) (m : Eval Value) (s : Session) : Prop where
  answered : ∀ value t, m s = .ok value t → m (s.withLimit limit) = .ok value (t.withLimit limit)
  failed : ∀ cause span t, m s = .error ⟨cause, span⟩ t → (∀ n, cause ≠ .callDepthExceeded n) →
    m (s.withLimit limit) = .error ⟨cause, span⟩ (t.withLimit limit)
  refused : ∀ n span t, m s = .error ⟨.callDepthExceeded n, span⟩ t →
    s.Precedes t ∧ t.Precedes (left m (s.withLimit limit))

open Machine Eval in
theorem conservative_of_reaches {m : Eval Value} {c : Control} {s : Session} {limit : Nat}
    (hle : s.settings.maxCallDepth ≤ limit) (hm : ∀ s, Reaches ⟨c, [], s⟩ (ofResult .answer [] (m s))) :
    Conservative limit m s := by
  have hends := ends_withLimit (m := ⟨c, [], s⟩) hle (hm s) (step_ofResult_nil _)
    (hm (s.withLimit limit)) (step_ofResult_nil _)
  refine ⟨fun value t h => ?_, fun cause span t h hcause => ?_, fun n span t h => ?_⟩
  · rw [h] at hends
    obtain heq | ⟨⟨_, _, hrefused⟩, _⟩ := hends
    · have hsame : ofResult .answer [] (m (s.withLimit limit)) =
          ofResult .answer [] (.ok value (t.withLimit limit)) := heq
      exact ofResult_answer_injective hsame
    · cases hrefused
  · rw [h] at hends
    obtain heq | ⟨⟨n, _, hrefused⟩, _⟩ := hends
    · have hsame : ofResult .answer [] (m (s.withLimit limit)) =
          ofResult .answer [] (.error ⟨cause, span⟩ (t.withLimit limit)) := heq
      exact ofResult_answer_injective hsame
    · cases hrefused
      exact absurd rfl (hcause n)
  · have hdone : s.Precedes (ofResult .answer [] (m s)).session := by
      obtain ⟨k, hk⟩ := hm s
      rw [← hk]
      exact precedes_iterate ⟨c, [], s⟩ k
    have hleft : (ofResult .answer [] (m (s.withLimit limit))).session = left m (s.withLimit limit) := by
      unfold left
      cases m (s.withLimit limit) <;> rfl
    rw [h] at hends hdone
    refine ⟨hdone, ?_⟩
    rw [← hleft]
    obtain heq | ⟨_, hmore⟩ := hends
    · rw [heq]
      exact ⟨List.prefix_refl _, List.prefix_refl _⟩
    · exact hmore

/-- **Raising the limit on nested calls is conservative**, for every form in every frame and for every call. -/
theorem conservative_withLimit {s : Session} {limit : Nat} (hle : s.settings.maxCallDepth ≤ limit) :
    (∀ form frame, Conservative limit (Session.eval form frame) s) ∧
      ∀ f args span, Conservative limit (Session.apply f args span) s :=
  ⟨fun form frame => conservative_of_reaches hle (Machine.reaches_eval sparesCounter_none form frame),
    fun f args span => conservative_of_reaches hle (Machine.reaches_apply sparesCounter_none f args span)⟩

open Eval in
/-- A call inside `(do (print "a") ((fn [] (print "b"))))` is refused where no call has room, after the first line;
with room for one call both lines are printed. -/
theorem conservative_withLimit_one : ∃ (s : Session) (form : Form), s.settings.maxCallDepth = 0 ∧
    (∃ span t, Session.eval form 0 s = .error ⟨.callDepthExceeded 0, span⟩ t) ∧
    (left (Session.eval form 0) s).printed = #["\"a\""] ∧
    (left (Session.eval form 0) (s.withLimit 1)).printed = #["\"a\"", "\"b\""] ∧
    Conservative 1 (Session.eval form 0) s := by
  let at' := Span.point
  refine ⟨(Session.bare { maxCallDepth := 0 } .fresh).withNatives [.print],
    .list (at' 0) [.atom (at' 1) (.symbol "do"),
      .list (at' 2) [.atom (at' 3) (.symbol "print"), .atom (at' 4) (.string "a")],
      .list (at' 5) [.list (at' 6) [.atom (at' 7) (.symbol "fn"), .vector (at' 8) [],
        .list (at' 9) [.atom (at' 10) (.symbol "print"), .atom (at' 11) (.string "b")]]]],
    rfl, ⟨_, _, by with_unfolding_all rfl⟩, by decide +kernel, by decide +kernel, ?_⟩
  exact (conservative_withLimit (Nat.zero_le 1)).1 _ _

end MusicLisp
