import MusicLisp.Evaluation
import MusicLisp.Proofs.Evaluation.Moves
import MusicLisp.Proofs.Evaluation.Termination

/-!
# The counter of nested calls

The counter is in balance: an evaluation hands it back as it found it, by an answer or by a failure, and all the
way it is what it was at the start and one for each body of a called function under evaluation.

* `Balanced`: what this says about the steps of an evaluation. A body is entered only by a call at a moment when
  the counter is below the limit, and calls are refused only at moments when it is at the limit.
* `Host`: what a host does with a session, call after call.
* `depth_balanced`: evaluations are balanced, and the counter is zero between the calls of a host.
-/

namespace MusicLisp

namespace Machine

open Eval

/-- **The evaluation that starts with `c` keeps the counter in balance** on its way to the result. -/
structure Balanced (c : Control) (s : Session) (result : EStateM.Result EvalError Session Value) : Prop where
  reaches : Reaches ⟨c, [], s⟩ (ofResult .answer [] result)
  depth_eq : ∀ m, Reaches ⟨c, [], s⟩ m → m.session.depth = s.depth + nesting m
  depth_le : ∀ m, Reaches ⟨c, [], s⟩ m → m.session.depth ≤ s.settings.maxCallDepth
  entered : ∀ m, Reaches ⟨c, [], s⟩ m → nesting m < nesting (step m) → ∃ f args span,
    m.control = .call (.lambda f) args span ∧ step m = enterBody f args m.pending m.session ∧
      (step m).session.depth = s.depth + nesting (step m) ∧
      (step m).session.depth ≤ s.settings.maxCallDepth
  refused : ∀ m, Reaches ⟨c, [], s⟩ m → ¬ Refused m → Refused (step m) → ∃ f args span,
    m.control = .call (.lambda f) args span ∧ args.length = f.params.length ∧
      m.session.depth = s.settings.maxCallDepth

theorem Move.entered {m m' : Machine} (h : Move m m') (hn : nesting m < nesting m') : ∃ f args span,
    m.control = .call (.lambda f) args span ∧ m' = enterBody f args m.pending m.session := by
  cases h with
  | calm h => exact absurd h.nesting (Nat.ne_of_gt hn)
  | enter hm _ _ => exact ⟨_, _, _, hm, rfl⟩
  | refuse | stay => exact absurd hn (Nat.lt_irrefl _)
  | leave hm =>
    unfold nesting at hn
    rw [hm, List.countP_cons_of_pos rfl] at hn
    exact absurd hn (Nat.not_lt.mpr (Nat.le_succ _))
  | unwind hm hp =>
    unfold nesting at hn
    rw [hm, List.countP_cons_of_neg (by rw [hp]; exact Bool.false_ne_true)] at hn
    exact absurd hn (Nat.lt_irrefl _)

theorem Move.refused {m m' : Machine} (h : Move m m') (hm : ¬ Refused m) (hm' : Refused m') :
    ∃ f args span, m.control = .call (.lambda f) args span ∧ args.length = f.params.length ∧
      m.session.settings.maxCallDepth ≤ m.session.depth := by
  cases h with
  | calm h => exact absurd hm' h.passed
  | enter =>
    obtain ⟨_, _, h⟩ := hm'
    cases h
  | refuse hc hargs hfull => exact ⟨_, _, _, hc, hargs, hfull⟩
  | leave | unwind | stay => exact absurd hm' hm

section

variable {c : Control} {s : Session}

theorem counted_of_reaches {m : Machine} (h : Reaches ⟨c, [], s⟩ m) :
    Counted s.depth s.settings.maxCallDepth m.pending m.session := by
  obtain ⟨n, rfl⟩ := h
  exact isCounted_iterate sparesCounter_none (isCounted_start c s) n

theorem depth_le_of_reaches {m : Machine} (hs : s.depth ≤ s.settings.maxCallDepth)
    (h : Reaches ⟨c, [], s⟩ m) : m.session.depth ≤ s.settings.maxCallDepth := by
  obtain ⟨-, hd, hn⟩ := counted_of_reaches h
  omega

theorem balanced_of_reaches {result : EStateM.Result EvalError Session Value}
    (hs : s.depth ≤ s.settings.maxCallDepth) (h : Reaches ⟨c, [], s⟩ (ofResult .answer [] result)) :
    Balanced c s result where
  reaches := h
  depth_eq m hm := (counted_of_reaches hm).2.1
  depth_le m hm := depth_le_of_reaches hs hm
  entered m hm hn := by
    obtain ⟨f, args, span, hc, hstep⟩ := (step_move m).entered hn
    have hnext : Reaches ⟨c, [], s⟩ (step m) := hm.trans (.single m)
    exact ⟨f, args, span, hc, hstep, (counted_of_reaches hnext).2.1, depth_le_of_reaches hs hnext⟩
  refused m hm hm' hstep := by
    obtain ⟨f, args, span, hc, hargs, hfull⟩ := (step_move m).refused hm' hstep
    have hle := depth_le_of_reaches hs hm
    rw [(counted_of_reaches hm).1] at hfull
    exact ⟨f, args, span, hc, hargs, Nat.le_antisymm hle hfull⟩

end

end Machine

/-! ### Between the calls of a host -/

/-- **What a host does with a session:** it evaluates a text, a form in a frame, or a call. -/
inductive Host where
  | evaluate (source : String)
  | eval (form : Form) (frame : FrameId)
  | apply (f : Function) (args : List Value) (span : Span)

namespace Host

open Eval

/-- The session after it. -/
def run : Host → Session → Session
  | evaluate source, s => (s.evaluate source).2
  | eval form frame, s => left (Session.eval form frame) s
  | apply f args span, s => left (Session.apply f args span) s

/-- The session after one thing after the other. -/
def runAll (calls : List Host) (s : Session) : Session := calls.foldl (fun s call => call.run s) s

/-- A text is evaluated at the depth it finds. -/
theorem depth_run_text (source : String) (s : Session) : (s.run source).2.depth = s.depth := by
  unfold Session.run
  cases readForms source with
  | error e => rfl
  | ok forms =>
    have hlevel :=
      keeps_evalForms (kept_level sparesCounter_none) forms .nil globalFrame (s.note (.parsed forms.length))
    unfold left at hlevel
    dsimp only
    cases h : Session.evalForms forms .nil globalFrame (s.note (.parsed forms.length)) with
    | ok value t => rw [h] at hlevel; exact hlevel.1
    | error e t => rw [h] at hlevel; exact hlevel.1

theorem depth_noteResult (result : Except ProgramError Value) (s : Session) :
    (s.noteResult result).depth = s.depth := by
  cases result <;> rfl

theorem depth_evaluate (source : String) (s : Session) : (s.evaluate source).2.depth = 0 := by
  change ((s.clearPrinted.resetDepth.run source).2.noteResult _).clearPrinted.depth = 0
  exact (depth_noteResult _ _).trans (depth_run_text source s.clearPrinted.resetDepth)

theorem depth_run {s : Session} (hs : s.depth = 0) (call : Host) : (call.run s).depth = 0 := by
  cases call with
  | evaluate source => exact depth_evaluate source s
  | eval form frame => exact (keeps_eval (kept_level sparesCounter_none) form frame s).1.trans hs
  | apply f args span => exact (keeps_apply (kept_level sparesCounter_none) f args span 0 s).1.trans hs

theorem depth_runAll {s : Session} (hs : s.depth = 0) (calls : List Host) : (runAll calls s).depth = 0 := by
  induction calls generalizing s with
  | nil => exact hs
  | cons call rest ih => exact ih (depth_run hs call)

theorem resetDepth_eq_self {s : Session} (hs : s.depth = 0) : s.resetDepth = s := by
  unfold Session.resetDepth
  rw [← hs]

end Host

open Machine Eval in
/-- **The counter of nested calls is in balance.** -/
theorem depth_balanced {s : Session} (hs : s.depth ≤ s.settings.maxCallDepth) :
    (∀ form frame, (left (Session.eval form frame) s).depth = s.depth ∧
      Balanced (.form form frame) s (Session.eval form frame s)) ∧
    (∀ f args span, (left (Session.apply f args span) s).depth = s.depth ∧
      Balanced (.call f args span) s (Session.apply f args span s)) ∧
    ∀ settings engine (calls : List Host), (Host.runAll calls (.start settings engine)).depth = 0 ∧
      (Host.runAll calls (.start settings engine)).resetDepth =
        Host.runAll calls (.start settings engine) := by
  refine ⟨fun form frame => ⟨?_, ?_⟩, fun f args span => ⟨?_, ?_⟩, fun settings engine calls => ?_⟩
  · exact (keeps_eval (kept_level sparesCounter_none) form frame s).1
  · exact balanced_of_reaches hs (reaches_eval sparesCounter_none form frame s)
  · exact (keeps_apply (kept_level sparesCounter_none) f args span 0 s).1
  · exact balanced_of_reaches hs (reaches_apply sparesCounter_none f args span s)
  · have hzero := Host.depth_runAll (s := .start settings engine) rfl calls
    exact ⟨hzero, Host.resetDepth_eq_self hzero⟩

open Machine Eval in
/-- The call of `(fn [] [])` in a session at its limit is refused at the counter it is tried at. -/
theorem depth_balanced_at_limit : ∃ (s : Session) (form : Form),
    s.depth = 1 ∧ s.settings.maxCallDepth = 1 ∧
    (∃ t, Session.eval form 0 s = .error ⟨.callDepthExceeded 1, ⟨0, 12⟩⟩ t) ∧
    (left (Session.eval form 0) s).depth = 1 ∧ Balanced (.form form 0) s (Session.eval form 0 s) := by
  refine ⟨{ Session.bare { maxCallDepth := 1 } .fresh with depth := 1 },
    .list ⟨0, 12⟩ [.list ⟨1, 11⟩ [.atom ⟨2, 4⟩ (.symbol "fn"), .vector ⟨5, 7⟩ [], .vector ⟨8, 10⟩ []]],
    rfl, rfl, ⟨_, rfl⟩, ?_⟩
  exact (depth_balanced (Nat.le_refl 1)).1 _ _

end MusicLisp
