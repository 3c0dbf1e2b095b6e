/-!
# Ordered dictionaries

A dictionary is a list of named entries in increasing order of their names, each name once. Names are
compared character by character, which is also the order of their bytes.

* `get?_insert`: what `insert` does to look-up.
* `Ordered.insert`, `ordered_ofEntries`: the order is kept, so a name stands in a dictionary once.
-/

namespace MusicLisp

/-- Entries by name, in increasing order of the names. -/
abbrev Dict (α : Type) := List (String × α)

namespace Dict

variable {α : Type}

/-- The names strictly increase. -/
def Ordered (d : Dict α) : Prop := d.Pairwise fun a b => a.1 < b.1

/-- The value under a name. -/
def get? (name : String) : Dict α → Option α
  | [] => none
  | (key, value) :: rest => if key = name then some value else get? name rest

/-- Puts a value under a name, in place of the one already there. -/
def insert (name : String) (value : α) : Dict α → Dict α
  | [] => [(name, value)]
  | (key, old) :: rest =>
    if name < key then (name, value) :: (key, old) :: rest
    else if key = name then (name, value) :: rest
    else (key, old) :: insert name value rest

/-- The dictionary of a list of entries; of two entries with one name the later stays. -/
def ofEntries (entries : List (String × α)) : Dict α :=
  entries.foldl (fun d entry => insert entry.1 entry.2 d) []

/-- The names, in increasing order. -/
def names (d : Dict α) : List String := d.map Prod.fst

theorem get?_insert (name : String) (value : α) (d : Dict α) (other : String) :
    get? other (insert name value d) = if name = other then some value else get? other d := by
  induction d with
  | nil => simp [insert, get?]
  | cons entry rest ih =>
    obtain ⟨key, old⟩ := entry
    unfold insert
    split
    · simp [get?]
    · split
      · next h => subst h; by_cases h : key = other <;> simp [get?, h]
      · by_cases h : key = other <;> by_cases h' : name = other <;> simp_all [get?]

theorem mem_insert {name : String} {value : α} {d : Dict α} {entry : String × α}
    (h : entry ∈ insert name value d) : entry = (name, value) ∨ entry ∈ d := by
  induction d with
  | nil => exact Or.inl (List.mem_singleton.mp h)
  | cons first rest ih =>
    obtain ⟨key, old⟩ := first
    unfold insert at h
    split at h
    · exact List.mem_cons.mp h
    · split at h
      · rcases List.mem_cons.mp h with h | h
        · exact Or.inl h
        · exact Or.inr (List.mem_cons_of_mem _ h)
      · rcases List.mem_cons.mp h with h | h
        · exact Or.inr (h ▸ List.mem_cons_self)
        · exact (ih h).imp id (List.mem_cons_of_mem _)

/-- **Putting a value under a name keeps the names in order.** -/
theorem Ordered.insert {d : Dict α} (h : Ordered d) (name : String) (value : α) :
    Ordered (Dict.insert name value d) := by
  induction d with
  | nil => exact List.pairwise_singleton _ _
  | cons first rest ih =>
    obtain ⟨key, old⟩ := first
    obtain ⟨below, ordered⟩ := List.pairwise_cons.mp h
    unfold Dict.insert
    split
    · next lt =>
      refine List.pairwise_cons.mpr ⟨fun entry mem => ?_, h⟩
      rcases List.mem_cons.mp mem with rfl | mem
      · exact lt
      · exact String.lt_trans lt (below entry mem)
    · next notLt =>
      split
      · next same => exact List.pairwise_cons.mpr ⟨fun entry mem => same ▸ below entry mem, ordered⟩
      · next differ =>
        refine List.pairwise_cons.mpr ⟨fun entry mem => ?_, ih ordered⟩
        rcases mem_insert mem with rfl | mem
        · rcases Std.lt_trichotomy key name with lt | same | gt
          · exact lt
          · exact absurd same differ
          · exact absurd gt notLt
        · exact below entry mem

theorem ordered_ofEntries (entries : List (String × α)) : Ordered (ofEntries entries) := by
  suffices ∀ d : Dict α, Ordered d →
      Ordered (entries.foldl (fun d entry => Dict.insert entry.1 entry.2 d) d) from
    this [] List.Pairwise.nil
  induction entries with
  | nil => exact fun _ h => h
  | cons entry rest ih => exact fun d h => ih _ (h.insert entry.1 entry.2)

end Dict

end MusicLisp
