import MusicLisp.Proofs.Scopes.Bindings

/-!
# The entries of a dictionary

* `Ordered.mem_iff_get?`: an ordered dictionary has just the entries that look-up finds.
* `mem_ofEntries_iff`: in the dictionary of a list of entries a name has the value of **its last entry**;
  `mem_ofEntries_filterMap_iff`: also where the entries come from the items of a list.
-/

namespace MusicLisp.Dict

variable {α : Type} {name : String} {a : α}

theorem Ordered.mem_iff_get? {d : Dict α} (h : d.Ordered) : (name, a) ∈ d ↔ get? name d = some a := by
  refine ⟨fun hmem => ?_, mem_of_get?⟩
  induction d with
  | nil => cases hmem
  | cons entry rest ih =>
    obtain ⟨key, value⟩ := entry
    obtain ⟨hbelow, hrest⟩ := List.pairwise_cons.mp h
    unfold get?
    rcases List.mem_cons.mp hmem with heq | hmem
    · cases heq
      exact if_pos rfl
    · rw [if_neg fun hkey : key = name => ?_]
      · exact ih hrest hmem
      · exact absurd (hbelow _ hmem) (hkey ▸ String.lt_irrefl key)

/-- A name has the value of its last entry. -/
theorem get?_ofEntries_eq_some_iff {entries : List (String × α)} : get? name (ofEntries entries) = some a ↔
    ∃ before after, entries = before ++ (name, a) :: after ∧ ∀ entry ∈ after, entry.1 ≠ name := by
  rw [get?_ofEntries, List.findRev?_eq_find?_reverse, Option.map_eq_some_iff]
  constructor
  · rintro ⟨⟨key, value⟩, hfind, rfl⟩
    obtain ⟨hkey, after, before, hsplit, hafter⟩ := List.find?_eq_some_iff_append.mp hfind
    obtain rfl : key = name := by simpa using hkey
    refine ⟨before.reverse, after.reverse, ?_, fun entry hentry => ?_⟩
    · simpa using List.reverse_eq_append_iff.mp hsplit
    · simpa using hafter entry (List.mem_reverse.mp hentry)
  · rintro ⟨before, after, rfl, hafter⟩
    refine ⟨(name, a), List.find?_eq_some_iff_append.mpr ⟨by simp, after.reverse, before.reverse, by simp, ?_⟩, rfl⟩
    intro entry hentry
    simpa using hafter entry (List.mem_reverse.mp hentry)

theorem mem_ofEntries_iff {entries : List (String × α)} : (name, a) ∈ ofEntries entries ↔
    ∃ before after, entries = before ++ (name, a) :: after ∧ ∀ entry ∈ after, entry.1 ≠ name := by
  rw [(ordered_ofEntries entries).mem_iff_get?, get?_ofEntries_eq_some_iff]

/-- Where entries come from items, the last item that gives the name an entry counts. -/
theorem mem_ofEntries_filterMap_iff {β : Type} {f : β → Option (String × α)} {items : List β} :
    (name, a) ∈ ofEntries (items.filterMap f) ↔
      ∃ before item after, items = before ++ item :: after ∧ f item = some (name, a) ∧
        ∀ later ∈ after, ∀ b, f later ≠ some (name, b) := by
  rw [mem_ofEntries_iff]
  constructor
  · rintro ⟨before, after, hsplit, hafter⟩
    obtain ⟨front, back, rfl, -, hback⟩ := List.filterMap_eq_append_iff.mp hsplit
    obtain ⟨skipped, item, rest, rfl, -, hitem, hrest⟩ := List.filterMap_eq_cons_iff.mp hback
    refine ⟨front ++ skipped, item, rest, (List.append_assoc _ _ _).symm, hitem, fun later hlater b hb => ?_⟩
    exact hafter (name, b) (hrest ▸ List.mem_filterMap.mpr ⟨later, hlater, hb⟩) rfl
  · rintro ⟨before, item, after, rfl, hitem, hafter⟩
    refine ⟨_, _, by rw [List.filterMap_append, List.filterMap_cons, hitem], ?_⟩
    rintro ⟨_, b⟩ hentry rfl
    obtain ⟨later, hlater, hb⟩ := List.mem_filterMap.mp hentry
    exact hafter later hlater b hb

end MusicLisp.Dict
