import MusicLisp.Proofs.Evaluation.Termination
import MusicLisp.Proofs.Scopes.Bindings

/-!
# A native that sets the counter back

That evaluation ends rests on the natives of the host: they hand the counter of nested calls back. A native that sets it
to zero lets a function call itself for ever, whatever the limit is, if it allows a call at all.

* `not_reaches_of_progress`: moments that only lead to others of their sort never lead to an end.
* `beating_turn`: one call of the function `again` leads to the next, in a session like the one before.
* `not_reaches_resetting`: so the function never comes to an end under a host whose natives set the counter back.
-/

namespace MusicLisp.Machine

open Eval

/-- A host whose natives set the counter back. -/
abbrev resetting : HostNatives where
  run _ _ _ s := .ok .nil s.resetDepth

section

variable [HostNatives]

/-- If moments of a sort lead to others of that sort, and none of them is an end, then there is no end from there. -/
theorem not_reaches_of_progress {P : Machine → Prop} (hprogress : ∀ m, P m → ∃ n, P (step^[n + 1] m))
    (hopen : ∀ result, ¬ P (ofResult .answer [] result)) {m : Machine} (h : P m)
    (result : EStateM.Result EvalError Session Value) : ¬ Reaches m (ofResult .answer [] result) := by
  have hlater : ∀ n, ∃ i, P (step^[i + n] m) := by
    intro n
    induction n with
    | zero => exact ⟨0, h⟩
    | succ n ih =>
      obtain ⟨i, hi⟩ := ih
      obtain ⟨j, hj⟩ := hprogress _ hi
      refine ⟨j + i, ?_⟩
      rwa [← Function.iterate_add_apply, show j + 1 + (i + n) = j + i + (n + 1) by omega] at hj
  rintro ⟨n, hn⟩
  obtain ⟨i, hi⟩ := hlater n
  rw [Function.iterate_add_apply, hn, Function.iterate_fixed (step_ofResult_nil result)] at hi
  exact hopen result hi

/-- A call of a name without arguments, when the name stands for a function. -/
theorem reaches_call_name {span span' : Span} {name : String} {frame : FrameId} {f : Function} {s : Session}
    (hspecial : (Form.atom span' (.symbol name)).special? = none)
    (hlookup : s.scopes.lookup frame name = some (.function f)) (k : List Pending) :
    Reaches ⟨.form (.list span [.atom span' (.symbol name)]) frame, k, s⟩ ⟨.call f [] span, k, s⟩ := by
  refine Reaches.of_step ?_
  show Reaches (enter (.list span [.atom span' (.symbol name)]) frame k s) _
  unfold enter
  dsimp only
  rw [hspecial]
  refine Reaches.of_step ?_
  show Reaches (after (lookup name span' frame) (.head span' [] span frame :: k) s) _
  have hvalue : lookup name span' frame s = .ok (.function f) s := by
    unfold lookup
    rw [hlookup]
  unfold after
  rw [hvalue]
  exact ⟨2, rfl⟩

end

/-- **The session is as at a call of the function**: nothing is counted, and its two names are bound. -/
structure Beating (limit : Nat) (s : Session) : Prop where
  limit : s.settings.maxCallDepth = limit + 1
  depth : s.depth = 0
  beat : s.scopes.bound? globalFrame "beat" = some (.function (.native ⟨"beat", .host 0⟩))
  again : s.scopes.bound? globalFrame "again" = some (.function (.lambda again))

theorem beating_start (limit : Nat) : Beating limit (beating (limit + 1)) where
  limit := rfl
  depth := rfl
  beat := by with_unfolding_all rfl
  again := by with_unfolding_all rfl

/-- After the function has called the native, all is as it was but for a frame. -/
theorem Beating.enclose {limit : Nat} {s : Session} (hs : Beating limit s) :
    Beating limit (s.enclose globalFrame []).resetDepth where
  limit := hs.limit
  depth := rfl
  beat := Scopes.bound?_enclose hs.beat globalFrame []
  again := Scopes.bound?_enclose hs.again globalFrame []

/-- **One call leads to the next.** The native has the counter set back before it. -/
theorem beating_turn {limit : Nat} {s : Session} (hs : Beating limit s) (span : Span) (k : List Pending) :
    ∃ n span' k' t, Beating limit t ∧
      (@step resetting)^[n + 1] ⟨.call (.lambda again) [] span, k, s⟩ = ⟨.call (.lambda again) [] span', k', t⟩ := by
  let _ : HostNatives := resetting
  let frame := s.scopes.next
  let inside : Session := { s.enclose globalFrame [] with depth := s.depth + 1 }
  have hbeat : inside.scopes.lookup frame "beat" = some (.function (.native ⟨"beat", .host 0⟩)) :=
    Scopes.lookup_enclose hs.beat
  have hagain : inside.resetDepth.scopes.lookup frame "again" = some (.function (.lambda again)) :=
    Scopes.lookup_enclose hs.again
  have henter : step ⟨.call (.lambda again) [] span, k, s⟩ = ⟨.form again.body frame, .body :: k, inside⟩ := by
    show enterCall (.lambda again) [] span k s = _
    unfold enterCall
    dsimp only
    rw [if_neg (by simp [again]), if_neg (by rw [hs.limit, hs.depth]; omega)]
    rfl
  have hreaches : Reaches ⟨.form again.body frame, .body :: k, inside⟩
      ⟨.call (.lambda again) [] (.point 0), .sequence [] frame :: .body :: k, inside.resetDepth⟩ := by
    refine .trans ⟨2, by with_unfolding_all rfl⟩ ?_
    refine .trans (reaches_call_name (by with_unfolding_all rfl) hbeat _) ?_
    -- the native is one step, and then the counter is at zero though a body is pending
    exact .trans ⟨3, rfl⟩ (reaches_call_name (by with_unfolding_all rfl) hagain _)
  obtain ⟨n, hn⟩ := hreaches
  refine ⟨n, .point 0, .sequence [] frame :: .body :: k, inside.resetDepth, hs.enclose, ?_⟩
  rw [Function.iterate_succ_apply, henter, hn]

/-- **The function never comes to an end** under a host whose natives set the counter back, whatever the limit on
calls, if it allows one. -/
theorem not_reaches_resetting (limit : Nat) (result : EStateM.Result EvalError Session Value) :
    ¬ @Reaches resetting ⟨.call (.lambda again) [] (.point 0), [], beating (limit + 1)⟩
      (ofResult .answer [] result) := by
  let _ : HostNatives := resetting
  let P (m : Machine) : Prop := ∃ span k t, Beating limit t ∧ m = ⟨.call (.lambda again) [] span, k, t⟩
  have hprogress : ∀ m, P m → ∃ n, P (step^[n + 1] m) := by
    rintro _ ⟨span, k, s, hs, rfl⟩
    obtain ⟨n, span', k', t, ht, hn⟩ := beating_turn hs span k
    exact ⟨n, span', k', t, ht, hn⟩
  have hopen : ∀ result, ¬ P (ofResult .answer [] result) := by
    rintro (⟨v, s⟩ | ⟨e, s⟩) ⟨_, _, _, -, h⟩ <;> cases h
  exact not_reaches_of_progress hprogress hopen ⟨_, _, _, beating_start limit, rfl⟩ result

end MusicLisp.Machine
