import Mathlib.Data.List.Basic
import MusicLisp.Scopes

/-!
# What is bound where

All that evaluation learns of the frames comes from three questions: how many there are, which one is around a frame
(`outer?`), and what a name is bound to in a frame itself (`bound?`).

* `bound?_bind`, `bound?_push`, `outer?_bind`, `outer?_push`: what making a frame and binding a name do to the answers.
* `lookup_step`: look-up is asking the frame, then the one around it. So it depends on the answers alone
  (`lookup_congr`), and what it finds is bound in some frame (`exists_bound?`).
* `has_eq_isSome`, `mem_names_iff`: the three walks along a chain agree.
-/

namespace MusicLisp

/-! ### Dictionaries -/

namespace Dict

variable {α : Type} {name : String} {d : Dict α}

theorem mem_of_get? {a : α} (h : get? name d = some a) : (name, a) ∈ d := by
  induction d with
  | nil => cases h
  | cons entry rest ih =>
    obtain ⟨key, value⟩ := entry
    unfold get? at h
    split at h
    · next same =>
      obtain rfl := Option.some.inj h
      exact same ▸ List.mem_cons_self
    · exact List.mem_cons_of_mem _ (ih h)

theorem any_eq_isSome_get? (name : String) (d : Dict α) :
    (d.any fun entry => entry.1 == name) = (get? name d).isSome := by
  induction d with
  | nil => rfl
  | cons entry rest ih =>
    obtain ⟨key, value⟩ := entry
    rw [List.any_cons, ih, get?]
    by_cases h : key = name
    · simp [h]
    · simp [h]

theorem mem_names_iff : name ∈ d.names ↔ (get? name d).isSome := by
  rw [← any_eq_isSome_get?]
  simp [names]

theorem get?_foldl_insert (entries : List (String × α)) (d : Dict α) (name : String) :
    get? name (entries.foldl (fun d entry => insert entry.1 entry.2 d) d) =
      ((entries.findRev? fun entry => entry.1 == name).map Prod.snd).or (get? name d) := by
  induction entries generalizing d with
  | nil => simp
  | cons entry rest ih =>
    rw [List.foldl_cons, ih, get?_insert, List.findRev?]
    cases h : rest.findRev? fun entry => entry.1 == name with
    | some found => simp
    | none =>
      by_cases same : entry.1 = name
      · simp [same]
      · simp [same]

/-- Of the entries with a name the last one counts. -/
theorem get?_ofEntries (entries : List (String × α)) (name : String) :
    get? name (ofEntries entries) = (entries.findRev? fun entry => entry.1 == name).map Prod.snd := by
  unfold ofEntries
  rw [get?_foldl_insert]
  simp [get?]

theorem mem_of_get?_ofEntries {entries : List (String × α)} {a : α} (h : get? name (ofEntries entries) = some a) :
    (name, a) ∈ entries := by
  rw [get?_ofEntries] at h
  obtain ⟨entry, hentry, rfl⟩ := Option.map_eq_some_iff.mp h
  rw [List.findRev?_eq_find?_reverse] at hentry
  have hname : entry.1 = name := by simpa using List.find?_some hentry
  exact hname ▸ List.mem_reverse.mp (List.mem_of_find?_eq_some hentry)

theorem mem_names_ofEntries {entries : List (String × α)} :
    name ∈ (ofEntries entries).names ↔ name ∈ entries.map Prod.fst := by
  rw [mem_names_iff, get?_ofEntries, Option.isSome_map, List.findRev?_eq_find?_reverse, List.find?_isSome]
  simp

end Dict

namespace Scopes

/-- The frame around a frame. -/
def outer? (s : Scopes) (i : FrameId) : Option FrameId := s.frames[i]?.bind Frame.outer

/-- **What a name is bound to in a frame itself.** -/
def bound? (s : Scopes) (i : FrameId) (name : String) : Option Value :=
  s.frames[i]?.bind fun frame => Dict.get? name frame.bindings

variable (s : Scopes)

/-! ### Making frames and binding names -/

theorem frames_bind (e : FrameId) (name : String) (value : Value) (i : FrameId) :
    (s.bind e name value).frames[i]? =
      if e = i then (s.frames[i]?).map fun f => { f with bindings := f.bindings.insert name value }
      else s.frames[i]? := by
  unfold bind; rw [Array.getElem?_modify]

theorem frames_enclose (outer : FrameId) (bindings : Dict Value) {i : FrameId}
    (hi : i < s.frames.size) : (s.enclose outer bindings).frames[i]? = s.frames[i]? := by
  unfold enclose push; rw [Array.getElem?_push, if_neg (Nat.ne_of_lt hi)]

@[simp] theorem next_bind (e : FrameId) (name : String) (value : Value) : (s.bind e name value).next = s.next :=
  Array.size_modify

@[simp] theorem next_push (frame : Frame) : (s.push frame).next = s.next + 1 := Array.size_push _

@[simp] theorem next_enclose (outer : FrameId) (bindings : Dict Value) : (s.enclose outer bindings).next = s.next + 1 :=
  Array.size_push _

@[simp] theorem outer?_bind (e : FrameId) (name : String) (value : Value) (i : FrameId) :
    (s.bind e name value).outer? i = s.outer? i := by
  unfold outer?
  rw [frames_bind]
  split
  · rw [Option.bind_map]
    rfl
  · rfl

theorem outer?_push (frame : Frame) (i : FrameId) :
    (s.push frame).outer? i = if i = s.next then frame.outer else s.outer? i := by
  unfold outer? push next
  rw [Array.getElem?_push]
  split <;> rfl

/-- Binding a name changes what that name is bound to in that frame, if the frame is there. -/
theorem bound?_bind (e : FrameId) (name : String) (value : Value) (i : FrameId) (other : String) :
    (s.bind e name value).bound? i other =
      if (e = i ∧ name = other) ∧ i < s.next then some value else s.bound? i other := by
  unfold bound?
  rw [frames_bind]
  by_cases hi : i < s.next
  · rw [Array.getElem?_eq_getElem hi]
    by_cases he : e = i
    · simp [he, hi, Dict.get?_insert]
    · simp [he]
  · rw [Array.getElem?_eq_none (Nat.le_of_not_lt hi)]
    simp [hi]

theorem bound?_push (frame : Frame) (i : FrameId) (name : String) :
    (s.push frame).bound? i name = if i = s.next then Dict.get? name frame.bindings else s.bound? i name := by
  unfold bound? push next
  rw [Array.getElem?_push]
  split <;> rfl

theorem bound?_eq_none {i : FrameId} (h : s.next ≤ i) (name : String) : s.bound? i name = none := by
  unfold bound?
  rw [Array.getElem?_eq_none h]
  rfl

theorem outer?_eq_none {i : FrameId} (h : s.next ≤ i) : s.outer? i = none := by
  unfold outer?
  rw [Array.getElem?_eq_none h]
  rfl

/-! ### Look-up -/

/-- **Look-up asks the frame itself, then the frame around it.** -/
theorem lookup_step (id : FrameId) (name : String) : s.lookup id name =
    (s.bound? id name).or (((s.outer? id).filter fun outer => outer < id).bind fun outer => s.lookup outer name) := by
  unfold bound? outer?
  rw [lookup, chain]
  cases s.frames[id]? with
  | none => rfl
  | some frame =>
    dsimp only [Option.bind_some]
    cases frame.outer with
    | none => cases h : Dict.get? name frame.bindings <;> simp [h]
    | some outer =>
      by_cases hlt : outer < id
      · cases h : Dict.get? name frame.bindings <;> simp [h, hlt, lookup, Option.filter]
      · cases h : Dict.get? name frame.bindings <;> simp [h, hlt, Option.filter]

variable {s}

/-- Look-up depends only on which frames are around each other and what the name is bound to in them. -/
theorem lookup_congr {t : Scopes} {name : String} (houter : ∀ i, t.outer? i = s.outer? i)
    (hbound : ∀ i, t.bound? i name = s.bound? i name) (id : FrameId) : t.lookup id name = s.lookup id name := by
  induction id using Nat.strongRecOn with
  | ind id ih =>
    rw [lookup_step, lookup_step, houter, hbound]
    congr 1
    cases h : (s.outer? id).filter fun outer => outer < id with
    | none => rfl
    | some outer =>
      have hlt : outer < id := by simpa using (Option.filter_eq_some_iff.mp h).2
      exact ih outer hlt

/-- A frame in which a name is bound is there. -/
theorem lt_next_of_bound? {i : FrameId} {name : String} {v : Value} (h : s.bound? i name = some v) : i < s.next := by
  refine Nat.lt_of_not_le fun hle => ?_
  rw [bound?_eq_none s hle] at h
  cases h

/-- What is bound in a frame stays bound there when another frame is made. -/
theorem bound?_enclose {i : FrameId} {name : String} {v : Value} (h : s.bound? i name = some v) (outer : FrameId)
    (bindings : Dict Value) : (s.enclose outer bindings).bound? i name = some v := by
  unfold enclose
  rw [bound?_push, if_neg (Nat.ne_of_lt (lt_next_of_bound? h)), h]

/-- An empty frame sees what is bound in the frame around it. -/
theorem lookup_enclose {i : FrameId} {name : String} {v : Value} (h : s.bound? i name = some v) :
    (s.enclose i []).lookup s.next name = some v := by
  have houter : (s.enclose i []).outer? s.next = some i := by
    unfold enclose
    rw [outer?_push, if_pos rfl]
  have hbound : (s.enclose i []).bound? s.next name = none := by
    unfold enclose
    rw [bound?_push, if_pos rfl]
    rfl
  have hlt : decide (i < s.next) = true := decide_eq_true (lt_next_of_bound? h)
  rw [lookup_step, houter, hbound, Option.none_or, Option.filter_some, if_pos hlt, Option.bind_some, lookup_step,
    bound?_enclose h, Option.some_or]

/-- What a name stands for is bound to it in some frame. -/
theorem exists_bound? {id : FrameId} {name : String} {v : Value} (h : s.lookup id name = some v) :
    ∃ i, s.bound? i name = some v := by
  induction id using Nat.strongRecOn with
  | ind id ih =>
    rw [lookup_step] at h
    rcases Option.or_eq_some_iff.mp h with hv | ⟨-, hv⟩
    · exact ⟨id, hv⟩
    · obtain ⟨outer, houter, hv⟩ := Option.bind_eq_some_iff.mp hv
      have hlt : outer < id := by simpa using (Option.filter_eq_some_iff.mp houter).2
      exact ih outer hlt hv

/-! ### The other two walks -/

theorem has_eq_isSome (id : FrameId) (name : String) : s.has id name = (s.lookup id name).isSome := by
  unfold has lookup
  induction s.chain id with
  | nil => rfl
  | cons frame frames ih =>
    rw [List.any_cons, List.findSome?_cons, ih, Dict.any_eq_isSome_get?]
    cases Dict.get? name frame.bindings with
    | none => rfl
    | some v => rfl

theorem mem_names_iff {id : FrameId} {name : String} : name ∈ s.names id ↔ s.has id name := by
  unfold names has
  rw [Dict.mem_names_ofEntries]
  simp [Dict.mem_names_iff, Dict.any_eq_isSome_get?]

end Scopes

end MusicLisp
