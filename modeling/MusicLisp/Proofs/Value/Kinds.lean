import MusicLisp.Proofs.Scopes.Bindings

/-!
# Kinds of values

Evaluation makes values out of others: it puts them into lists, vectors and maps, and takes them out again. What holds
of all values at the start and goes up and down with the structure of values then holds of those at the end.

* `Value.Kind`: simple data is of the kind, and a collection is just if what is in it is.
* `Scopes.All`: what is bound in some frame is of the kind. `lookup`, `bind` and `push` keep to it.
* `Value.Offers`, `Value.Confined`: a native stands somewhere in the value; all that do are for certain operations.
-/

namespace MusicLisp

namespace Value

/-- **A kind of values** that goes up and down with their structure. -/
structure Kind (V : Value → Prop) : Prop where
  number : ∀ x, V (.number x)
  string : ∀ s, V (.string s)
  keyword : ∀ name, V (.keyword name)
  boolean : ∀ b, V (.boolean b)
  nil : V .nil
  list : ∀ {items}, V (.list items) ↔ ∀ v ∈ items, V v
  vector : ∀ {items}, V (.vector items) ↔ ∀ v ∈ items, V v
  map : ∀ {entries}, V (.map entries) ↔ ∀ entry ∈ entries, V entry.2

/-- **The native stands somewhere in the value.** -/
inductive Offers (f : Native) : Value → Prop
  | native : Offers f (.function (.native f))
  | list {items : List Value} {v : Value} (hv : v ∈ items) (h : Offers f v) : Offers f (.list items)
  | vector {items : List Value} {v : Value} (hv : v ∈ items) (h : Offers f v) : Offers f (.vector items)
  | map {entries : List (String × Value)} {entry : String × Value} (hentry : entry ∈ entries)
    (h : Offers f entry.2) : Offers f (.map entries)

/-- **No native stands in the value** but for operations with a property. -/
def Confined (P : Operation → Prop) (v : Value) : Prop := ∀ f, v.Offers f → ∃ op, f.code = .operation op ∧ P op

variable {P : Operation → Prop}

theorem confined_native {f : Native} :
    Confined P (.function (.native f)) ↔ ∃ op, f.code = .operation op ∧ P op := by
  refine ⟨fun h => h f .native, ?_⟩
  rintro h _ ⟨⟩
  exact h

theorem confined_lambda (f : Lambda) : Confined P (.function (.lambda f)) := nofun

theorem confined_synthNode (node : SynthNode) : Confined P (.synthNode node) := nofun

theorem kind_confined (P : Operation → Prop) : Kind (Confined P) where
  number _ := nofun
  string _ := nofun
  keyword _ := nofun
  boolean _ := nofun
  nil := nofun
  list := by
    refine ⟨fun h v hv f hf => h f (.list hv hf), ?_⟩
    rintro h f (_ | ⟨hv, hf⟩)
    exact h _ hv f hf
  vector := by
    refine ⟨fun h v hv f hf => h f (.vector hv hf), ?_⟩
    rintro h f (_ | _ | ⟨hv, hf⟩)
    exact h _ hv f hf
  map := by
    refine ⟨fun h entry hentry f hf => h f (.map hentry hf), ?_⟩
    rintro h f (_ | _ | _ | ⟨hentry, hf⟩)
    exact h _ hentry f hf

end Value

namespace Scopes

variable {V W : Value → Prop} {s : Scopes}

/-- **What is bound in some frame** is of a kind. -/
def All (V : Value → Prop) (s : Scopes) : Prop := ∀ i name v, s.bound? i name = some v → V v

theorem All.mono (hVW : ∀ v, V v → W v) (h : s.All V) : s.All W := fun i name v hv => hVW v (h i name v hv)

theorem all_empty : empty.All V := by
  intro i name v hv
  cases (bound?_eq_none empty (Nat.zero_le i) name).symm.trans hv

theorem All.lookup (h : s.All V) {id : FrameId} {name : String} {v : Value} (hv : s.lookup id name = some v) :
    V v := by
  obtain ⟨i, hi⟩ := exists_bound? hv
  exact h i name v hi

theorem All.bind (h : s.All V) (e : FrameId) (name : String) {v : Value} (hv : V v) : (s.bind e name v).All V := by
  intro i other w hw
  rw [bound?_bind] at hw
  split at hw
  · exact Option.some.inj hw ▸ hv
  · exact h i other w hw

theorem All.push (h : s.All V) (outer : Option FrameId) {entries : List (String × Value)}
    (hentries : ∀ entry ∈ entries, V entry.2) : (s.push ⟨outer, Dict.ofEntries entries⟩).All V := by
  intro i name v hv
  rw [bound?_push] at hv
  split at hv
  · exact hentries _ (Dict.mem_of_get?_ofEntries hv)
  · exact h i name v hv

end Scopes

end MusicLisp
