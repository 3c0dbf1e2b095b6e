import MusicLisp.Proofs.Value.Kinds

/-!
# Handles in values

Values are data but for two things that they may hold on to: the frame that a function was made in, and a synth node.

* `Handle`, `Value.Bears`: a handle stands somewhere in a value.
* `Value.Only A`: the value bears no other handles than those with the property `A`. Values are put together and taken
  apart without making handles, so this is a kind of values (`kind_only`).
* `Scopes.Only A`: the same of all values that are bound in some frame.
-/

namespace MusicLisp

/-- **What a value can hold on to.** -/
inductive Handle where
  | frame (e : FrameId)
  | node (node : SynthNode)

namespace Value

/-- **The handle stands somewhere in the value.** -/
inductive Bears : Handle → Value → Prop
  | closure (f : Lambda) : Bears (.frame f.closure) (.function (.lambda f))
  | node (node : SynthNode) : Bears (.node node) (.synthNode node)
  | list {h : Handle} {items : List Value} {v : Value} (hv : v ∈ items) (hb : Bears h v) : Bears h (.list items)
  | vector {h : Handle} {items : List Value} {v : Value} (hv : v ∈ items) (hb : Bears h v) : Bears h (.vector items)
  | map {h : Handle} {entries : List (String × Value)} {entry : String × Value} (hentry : entry ∈ entries)
    (hb : Bears h entry.2) : Bears h (.map entries)

/-- No other handles stand in the value than those with a property. -/
def Only (A : Handle → Prop) (v : Value) : Prop := ∀ h, v.Bears h → A h

variable {A B : Handle → Prop}

theorem Only.mono (hAB : ∀ h, A h → B h) {v : Value} (h : v.Only A) : v.Only B := fun x hx => hAB x (h x hx)

theorem only_lambda {f : Lambda} : Only A (.function (.lambda f)) ↔ A (.frame f.closure) := by
  refine ⟨fun h => h _ (.closure f), ?_⟩
  rintro h _ ⟨⟩
  exact h

theorem only_list {items : List Value} : Only A (.list items) ↔ ∀ v ∈ items, v.Only A := by
  refine ⟨fun h v hv x hx => h x (.list hv hx), ?_⟩
  rintro h x (_ | _ | ⟨hv, hx⟩)
  exact h _ hv x hx

theorem only_vector {items : List Value} : Only A (.vector items) ↔ ∀ v ∈ items, v.Only A := by
  refine ⟨fun h v hv x hx => h x (.vector hv hx), ?_⟩
  rintro h x (_ | _ | _ | ⟨hv, hx⟩)
  exact h _ hv x hx

theorem only_map {entries : List (String × Value)} : Only A (.map entries) ↔ ∀ entry ∈ entries, entry.2.Only A := by
  refine ⟨fun h entry hentry x hx => h x (.map hentry hx), ?_⟩
  rintro h x (_ | _ | _ | _ | ⟨hentry, hx⟩)
  exact h _ hentry x hx

/-- Natives and simple data bear no handle. -/
theorem only_native (f : Native) : Only A (.function (.native f)) := nofun

theorem only_number (x : Float) : Only A (.number x) := nofun

theorem only_string (s : String) : Only A (.string s) := nofun

theorem only_keyword (name : String) : Only A (.keyword name) := nofun

theorem only_boolean (b : Bool) : Only A (.boolean b) := nofun

theorem only_nil : Only A .nil := nofun

theorem kind_only (A : Handle → Prop) : Kind (Only A) :=
  ⟨only_number, only_string, only_keyword, only_boolean, only_nil, only_list, only_vector, only_map⟩

end Value

namespace Scopes

variable {A B : Handle → Prop} {s : Scopes}

/-- No other handles stand in what is bound than those with a property. -/
def Only (A : Handle → Prop) (s : Scopes) : Prop := ∀ i name v, s.bound? i name = some v → v.Only A

theorem Only.mono (hAB : ∀ h, A h → B h) (h : s.Only A) : s.Only B := All.mono (fun _ hv => hv.mono hAB) h

theorem only_empty : empty.Only A := all_empty

theorem Only.lookup (h : s.Only A) {id : FrameId} {name : String} {v : Value} (hv : s.lookup id name = some v) :
    v.Only A := All.lookup h hv

theorem Only.bind (h : s.Only A) (e : FrameId) (name : String) {v : Value} (hv : v.Only A) :
    (s.bind e name v).Only A := All.bind h e name hv

theorem Only.push (h : s.Only A) (outer : Option FrameId) {entries : List (String × Value)}
    (hentries : ∀ entry ∈ entries, entry.2.Only A) : (s.push ⟨outer, Dict.ofEntries entries⟩).Only A :=
  All.push h outer hentries

end Scopes

end MusicLisp
