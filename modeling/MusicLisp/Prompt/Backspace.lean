import MusicLisp.Span
import MusicLisp.Text.Cluster

/-!
# Backspaces in input

Input may hold backspaces, as when a program types for its user. Each takes away the cluster before it
that is still there, and itself; one with nothing before it only itself. The text is the input without
all of that.

* `withoutBackspaces_eq_self`: input that holds no backspace is the text as it stands.
-/

namespace MusicLisp.Prompt

/-- Input gone through so far: the characters kept, the last first, and the size of each cluster kept,
the last first. -/
structure Typed where
  kept : List Char
  sizes : List Nat
deriving Repr, Inhabited

/-- Drops whole characters from the front while their bytes are within `count`. -/
def dropBytes (count : Nat) : List Char → List Char
  | [] => []
  | c :: rest => if c.utf8Size ≤ count then dropBytes (count - c.utf8Size) rest else c :: rest

namespace Typed

/-- Nothing gone through. -/
def start : Typed := ⟨[], []⟩

/-- Goes through a cluster. The size of a cluster is noted in one byte: of a cluster of 256 bytes or more,
a backspace takes away only as many bytes at its end as that byte says. -/
def cluster (t : Typed) (cs : List Char) : Typed :=
  if cs = ['\x08'] then
    match t.sizes with
    | [] => t
    | size :: sizes => ⟨dropBytes size t.kept, sizes⟩
  else ⟨cs.reverse ++ t.kept, byteLength cs % 256 :: t.sizes⟩

end Typed

/-- **Input without its backspaces** and what they take away. -/
def withoutBackspaces (input : List Char) : List Char :=
  ((Text.clusters input).foldl Typed.cluster .start).kept.reverse

theorem kept_foldl_cluster (clusters : List (List Char)) (h : ∀ cs ∈ clusters, '\x08' ∉ cs) (t : Typed) :
    (clusters.foldl Typed.cluster t).kept = clusters.flatten.reverse ++ t.kept := by
  induction clusters generalizing t with
  | nil => simp
  | cons cs rest ih =>
    have differ : cs ≠ ['\x08'] := fun same => h cs List.mem_cons_self (same ▸ List.mem_singleton_self _)
    rw [List.foldl_cons, ih fun cs mem => h cs (List.mem_cons_of_mem _ mem)]
    simp [Typed.cluster, differ]

/-- **Input that holds no backspace is the text as it stands.** -/
theorem withoutBackspaces_eq_self {input : List Char} (h : '\x08' ∉ input) :
    withoutBackspaces input = input := by
  unfold withoutBackspaces
  rw [kept_foldl_cluster _ fun cs mem has =>
    h (Text.flatten_clusters input ▸ List.mem_flatten.mpr ⟨cs, mem, has⟩)]
  simp [Text.flatten_clusters, Typed.start]

example : withoutBackspaces ['a', 'e', '\u0301', '\x08', 'b'] = ['a', 'b'] := by decide +kernel

end MusicLisp.Prompt
