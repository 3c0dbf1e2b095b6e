import MusicLisp.Proofs.Evaluation.Kept
import MusicLisp.Proofs.Scopes.Bindings

/-!
# Which frames an evaluation writes

A form binds names in the frame it is evaluated in and in frames made meanwhile, and nowhere else. A
called function gets a frame of its own, so a call writes no frame that was there before it.

* `Scopes.GrownAt e s t`: from `s` to `t` only the frame `e` and new frames may differ; `e` keeps what is
  around it and every name it binds.
* `eval_writes_own_frame`: evaluation grows the frames at its own frame, and calls only add frames.
-/

namespace MusicLisp

/-- The frames `t` come from the frames `s` by binding names in the frame `e` and making frames. -/
structure Scopes.GrownAt (e : FrameId) (s t : Scopes) : Prop where
  size_le : s.frames.size ≤ t.frames.size
  others : ∀ i < s.frames.size, i ≠ e → t.frames[i]? = s.frames[i]?
  own : ∀ frame, s.frames[e]? = some frame → ∃ frame', t.frames[e]? = some frame' ∧
    frame'.outer = frame.outer ∧ frame.bindings.names ⊆ frame'.bindings.names

theorem Dict.names_subset_insert {α : Type} (name : String) (value : α) (d : Dict α) :
    d.names ⊆ (d.insert name value).names := by
  induction d with
  | nil => exact List.nil_subset _
  | cons entry rest ih =>
    obtain ⟨key, old⟩ := entry
    unfold Dict.insert
    split
    · exact List.subset_cons_self _ _
    · split
      · next same => subst same; exact List.Subset.refl _
      · exact List.cons_subset_cons _ ih

namespace Scopes

namespace GrownAt

variable {e : FrameId} {s t u : Scopes}

theorem refl (e : FrameId) (s : Scopes) : GrownAt e s s :=
  ⟨Nat.le_refl _, fun _ _ _ => rfl, fun frame h => ⟨frame, h, rfl, List.Subset.refl _⟩⟩

theorem trans (h : GrownAt e s t) (h' : GrownAt e t u) : GrownAt e s u := by
  refine ⟨Nat.le_trans h.size_le h'.size_le, fun i hi hne => ?_, fun frame hf => ?_⟩
  · rw [h'.others i (Nat.lt_of_lt_of_le hi h.size_le) hne, h.others i hi hne]
  · obtain ⟨frame₁, hf₁, ho₁, hn₁⟩ := h.own frame hf
    obtain ⟨frame₂, hf₂, ho₂, hn₂⟩ := h'.own frame₁ hf₁
    exact ⟨frame₂, hf₂, ho₂.trans ho₁, List.Subset.trans hn₁ hn₂⟩

theorem bind (e : FrameId) (name : String) (value : Value) (s : Scopes) :
    GrownAt e s (s.bind e name value) := by
  refine ⟨?_, fun i _ hne => ?_, fun frame hf => ?_⟩
  · exact Nat.le_of_eq (next_bind s e name value).symm
  · rw [frames_bind, if_neg (Ne.symm hne)]
  · rw [frames_bind, if_pos rfl, hf]
    exact ⟨_, rfl, rfl, Dict.names_subset_insert name value frame.bindings⟩

/-- What goes on in a frame just made leaves the frames before it as they were. -/
theorem of_enclose {outer : FrameId} {bindings : Dict Value}
    (h : GrownAt s.next (s.enclose outer bindings) t) (e : FrameId) : GrownAt e s t := by
  have hsize : (s.enclose outer bindings).frames.size = s.frames.size + 1 := next_enclose s outer bindings
  have hold : ∀ i < s.frames.size, t.frames[i]? = s.frames[i]? := by
    intro i hi
    rw [h.others i (by omega) (Nat.ne_of_lt hi), frames_enclose s outer bindings hi]
  refine ⟨by have := h.size_le; omega, fun i hi _ => hold i hi, fun frame hf => ?_⟩
  have he : e < s.frames.size := (Array.getElem?_eq_some_iff.mp hf).1
  exact ⟨frame, by rw [hold e he, hf], rfl, List.Subset.refl _⟩

/-- Frames grown at a frame that is not there are the old ones with others after them. -/
theorem isPrefix (h : GrownAt s.next s t) : s.frames.toList <+: t.frames.toList := by
  rw [List.prefix_iff_getElem?]
  intro i hi
  rw [Array.length_toList] at hi
  rw [Array.getElem?_toList, h.others i hi (Nat.ne_of_lt hi), Array.getElem?_eq_getElem hi,
    Array.getElem_toList]

end GrownAt

end Scopes

namespace Eval

theorem scopes_perform (s : Session) (x : Effect) : (s.perform x).scopes = s.scopes := by
  rw [s.perform_eq x]

theorem kept_grownAt : Kept fun e s t => s.scopes.GrownAt e t.scopes where
  refl e s := .refl e s.scopes
  trans h h' := h.trans h'
  bind e name value s := .bind e name value s.scopes
  made e s := .refl e s.scopes
  effect e x s := by rw [scopes_perform]; exact .refl e s.scopes
  host e _ _ _ s := .refl e s.scopes
  inner h := h.of_enclose _
  body _ _ h := h.of_enclose _

/-- **Evaluation writes only its own frame**, whether it answers or fails: every frame that was there
before, other than its own, is as it was, its own keeps the frame around it and the names bound in it,
and all else is in new frames. A call leaves every frame that was there before as it was. -/
theorem eval_writes_own_frame (s : Session) :
    (∀ form e, s.scopes.GrownAt e (left (Session.eval form e) s).scopes) ∧
    ∀ f args span, s.scopes.frames.toList <+: (left (Session.apply f args span) s).scopes.frames.toList :=
  ⟨fun form e => keeps_eval kept_grownAt form e s, fun f args span =>
    -- a frame not yet made stands for the caller's, so that no old frame is exempt
    (keeps_apply kept_grownAt f args span s.scopes.next s).isPrefix⟩

end Eval

end MusicLisp
