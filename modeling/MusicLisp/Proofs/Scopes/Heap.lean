import MusicLisp.Proofs.Value.Handles

/-!
# The frames and their history

Frames are made and names are bound in them, over and over. What is bound in the end is told by what was bound when.

* `Scopes.WellFormed`: an outer frame is made before the frame it encloses, and the functions that are bound were made
  in frames that are there.
* `Write`, `latest`: the bindings that were made one after the other, and the last one of a name in a frame.
* `Scopes.Follows`: well formed frames in which a name is bound to what it was bound to last. Making a frame, around
  bindings or on its own, and binding a name go along with it (`Follows.push`, `Follows.bind`).
* `Scopes.Path`: a frame and those around it, from the inside out. The numbers on a path only go down, so it is finite
  and comes to no frame twice; every frame has one (`WellFormed.exists_path`), and **look-up finds the first frame of
  it that has the name** (`WellFormed.lookup_path`).
-/

namespace MusicLisp

/-! ### Histories -/

/-- **A name was bound in a frame.** -/
structure Write where
  frame : FrameId
  name : String
  value : Value

/-- **What a name was bound to last in a frame**, if it ever was. -/
def latest (history : List Write) (i : FrameId) (name : String) : Option Value :=
  (history.findRev? fun w => w.frame == i && w.name == name).map Write.value

theorem latest_append (history log : List Write) (i : FrameId) (name : String) :
    latest (history ++ log) i name = (latest log i name).or (latest history i name) := by
  unfold latest
  rw [List.findRev?_eq_find?_reverse, List.findRev?_eq_find?_reverse, List.findRev?_eq_find?_reverse,
    List.reverse_append, List.find?_append, Option.map_or]

theorem latest_singleton (w : Write) (i : FrameId) (name : String) :
    latest [w] i name = if w.frame = i ∧ w.name = name then some w.value else none := by
  unfold latest
  rw [List.findRev?_eq_find?_reverse]
  by_cases h : w.frame = i ∧ w.name = name
  · simp [h]
  · simp [h]

/-- The bindings of a new frame, one after the other. -/
def writesIn (i : FrameId) (entries : List (String × Value)) : List Write :=
  entries.map fun entry => ⟨i, entry.1, entry.2⟩

theorem latest_writesIn (i j : FrameId) (entries : List (String × Value)) (name : String) :
    latest (writesIn i entries) j name = if j = i then Dict.get? name (Dict.ofEntries entries) else none := by
  unfold latest writesIn
  rw [Dict.get?_ofEntries, List.findRev?_eq_find?_reverse, List.findRev?_eq_find?_reverse, ← List.map_reverse,
    List.find?_map, Option.map_map]
  by_cases h : j = i
  · subst h
    simp [Function.comp_def]
  · have hne : ¬ i = j := fun heq => h heq.symm
    simp [Function.comp_def, h, hne]

/-! ### Well formed frames -/

namespace Scopes

/-- A handle to a frame that is there; nodes are not looked at. -/
def Made (s : Scopes) : Handle → Prop
  | .frame e => e < s.next
  | .node _ => True

/-- **Well formed frames**: each around frame was made before the frame it is around, each name stands in a frame once,
and all functions that are bound were made in frames that are there. -/
structure WellFormed (s : Scopes) : Prop where
  outer : ∀ i outer, s.outer? i = some outer → outer < i
  ordered : ∀ (i : FrameId) (frame : Frame), s.frames[i]? = some frame → frame.bindings.Ordered
  closures : s.Only s.Made

/-- **The frames that this history leaves**: well formed, with each name bound to what it was bound to last. -/
structure Follows (history : List Write) (s : Scopes) : Prop where
  wellFormed : s.WellFormed
  bound : ∀ i name, s.bound? i name = latest history i name

variable {s : Scopes} {history : List Write}

theorem made_bind (e : FrameId) (name : String) (v : Value) : (s.bind e name v).Made = s.Made := by
  funext h
  unfold Made
  rw [next_bind]

theorem made_push (frame : Frame) (h : Handle) (hh : s.Made h) : (s.push frame).Made h := by
  cases h with
  | frame e =>
    unfold Made at hh ⊢
    rw [next_push]
    exact Nat.lt_succ_of_lt hh
  | node => trivial

theorem Follows.bind (h : s.Follows history) {e : FrameId} (he : e < s.next) (name : String) {v : Value}
    (hv : v.Only s.Made) : (s.bind e name v).Follows (history ++ [⟨e, name, v⟩]) where
  wellFormed := {
    outer := fun i outer houter => h.wellFormed.outer i outer (by rwa [outer?_bind] at houter)
    ordered := by
      intro i frame hframe
      rw [frames_bind] at hframe
      split at hframe
      · obtain ⟨frame', hframe', rfl⟩ := Option.map_eq_some_iff.mp hframe
        exact (h.wellFormed.ordered i frame' hframe').insert name v
      · exact h.wellFormed.ordered i frame hframe
    closures := by
      rw [made_bind]
      exact h.wellFormed.closures.bind e name hv }
  bound i other := by
    rw [bound?_bind, latest_append, latest_singleton, h.bound]
    by_cases hw : e = i ∧ name = other
    · have hi : i < s.next := hw.1 ▸ he
      simp [hw, hi]
    · simp [hw]

/-- A new frame, on its own or inside one that is there, that binds these entries one after the other. -/
theorem Follows.push (h : s.Follows history) {outer : Option FrameId} (houter : ∀ o, outer = some o → o < s.next)
    {entries : List (String × Value)} (hentries : ∀ entry ∈ entries, entry.2.Only s.Made) :
    (s.push ⟨outer, Dict.ofEntries entries⟩).Follows (history ++ writesIn s.next entries) where
  wellFormed := {
    outer := by
      intro i o ho
      rw [outer?_push] at ho
      split at ho
      · next hi => exact hi ▸ houter o ho
      · exact h.wellFormed.outer i o ho
    ordered := by
      intro i frame hframe
      unfold Scopes.push at hframe
      rw [Array.getElem?_push] at hframe
      split at hframe
      · obtain rfl := Option.some.inj hframe
        exact Dict.ordered_ofEntries entries
      · exact h.wellFormed.ordered i frame hframe
    closures := (h.wellFormed.closures.mono (made_push _)).push outer fun entry hentry =>
      (hentries entry hentry).mono (made_push _) }
  bound i name := by
    rw [bound?_push, latest_append, latest_writesIn, ← h.bound]
    by_cases hi : i = s.next
    · -- nothing was bound in the frame before it was made
      have hnone : s.bound? i name = none := bound?_eq_none s (Nat.le_of_eq hi.symm) name
      rw [if_pos hi, if_pos hi, hnone, Option.or_none]
    · rw [if_neg hi, if_neg hi, Option.none_or]

/-! ### Paths -/

/-- **A frame and those around it**, from the inside out. -/
inductive Path (s : Scopes) : FrameId → List FrameId → Prop
  | root {i : FrameId} (hi : i < s.next) (h : s.outer? i = none) : Path s i [i]
  | inner {i outer : FrameId} {path : List FrameId} (h : s.outer? i = some outer) (hpath : Path s outer path) :
    Path s i (i :: path)

/-- A frame is on its own path, and no frame on it is later. -/
theorem WellFormed.le_of_mem_path (h : s.WellFormed) {i : FrameId} {path : List FrameId} (hpath : s.Path i path) :
    ∀ j ∈ path, j ≤ i := by
  induction hpath with
  | root hi _ =>
    intro j hj
    exact Nat.le_of_eq (List.mem_singleton.mp hj)
  | @inner i outer path houter _ ih =>
    intro j hj
    have hlt := h.outer i outer houter
    rcases List.mem_cons.mp hj with rfl | hj
    · exact Nat.le_refl j
    · exact Nat.le_of_lt (Nat.lt_of_le_of_lt (ih j hj) hlt)

/-- **The numbers on a path go down.** -/
theorem WellFormed.pairwise_path (h : s.WellFormed) {i : FrameId} {path : List FrameId} (hpath : s.Path i path) :
    path.Pairwise (· > ·) := by
  induction hpath with
  | root => exact List.pairwise_singleton _ _
  | @inner i outer path houter hpath ih =>
    refine List.pairwise_cons.mpr ⟨fun j hj => ?_, ih⟩
    exact Nat.lt_of_le_of_lt (h.le_of_mem_path hpath j hj) (h.outer i outer houter)

theorem WellFormed.exists_path (h : s.WellFormed) {i : FrameId} (hi : i < s.next) : ∃ path, s.Path i path := by
  induction i using Nat.strongRecOn with
  | ind i ih =>
    cases houter : s.outer? i with
    | none => exact ⟨[i], .root hi houter⟩
    | some outer =>
      have hlt := h.outer i outer houter
      obtain ⟨path, hpath⟩ := ih outer hlt (Nat.lt_trans hlt hi)
      exact ⟨i :: path, .inner houter hpath⟩

/-- **Look-up finds the first frame on the path** that has the name. -/
theorem WellFormed.lookup_path (h : s.WellFormed) {i : FrameId} {path : List FrameId} (hpath : s.Path i path)
    (name : String) : s.lookup i name = path.findSome? fun j => s.bound? j name := by
  induction hpath with
  | @root i hi houter =>
    rw [lookup_step, houter]
    cases hbound : s.bound? i name <;> simp [hbound]
  | @inner i outer path houter hpath ih =>
    have hlt := h.outer i outer houter
    rw [lookup_step, houter, List.findSome?_cons, ← ih]
    cases hbound : s.bound? i name <;> simp [Option.filter, hlt]

end Scopes

end MusicLisp
