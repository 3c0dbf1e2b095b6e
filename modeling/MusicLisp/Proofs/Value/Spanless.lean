import MusicLisp.Eval
import MusicLisp.Proofs.Form.Yield

/-!
# Values without spans

A function holds the body it was read with, spans and all. `Value.spanless` forgets the spans of the bodies in a
value, and which of the functions made so far each of them is. What else there is to see of a value stays:
`Value.text_spanless` says so for how it is shown.

* `Dict.mapValues`: a dictionary with all its values replaced. Look-up and `insert` go along with it.
* `Scopes.spanless`: frames are made spanless binding by binding. `lookup_spanless`, `bind_spanless` and
  `enclose_spanless` say that names stand for the same in them, up to spans.
-/

namespace MusicLisp

/-! ### Forms -/

namespace Form

@[simp] theorem span_bare (form : Form) : form.bare.span = .point 0 := by
  cases form <;> rfl

@[simp] theorem symbol?_bare (form : Form) : form.bare.symbol? = form.symbol? := by
  cases form with
  | atom _ a => cases a <;> rfl
  | list | vector | map => rfl

@[simp] theorem special?_bare (form : Form) : form.bare.special? = form.special? := by
  unfold special?
  rw [symbol?_bare]

@[simp] theorem length_bares (forms : List Form) : (bares forms).length = forms.length := by
  rw [bares_eq_map, List.length_map]

mutual

@[simp] theorem bare_bare : ∀ form : Form, form.bare.bare = form.bare
  | atom _ _ => rfl
  | list _ items => by simp only [bare, bares_bares items]
  | vector _ items => by simp only [bare, bares_bares items]
  | map _ entries => by simp only [bare, entryBares_entryBares entries]

@[simp] theorem bares_bares : ∀ forms : List Form, bares (bares forms) = bares forms
  | [] => rfl
  | form :: rest => by simp only [bares, bare_bare form, bares_bares rest]

@[simp] theorem entryBares_entryBares : ∀ entries : List (Form × Form),
    entryBares (entryBares entries) = entryBares entries
  | [] => rfl
  | (key, value) :: rest => by
    simp only [entryBares, bare_bare key, bare_bare value, entryBares_entryBares rest]

end

end Form

/-! ### Dictionaries -/

namespace Dict

variable {α β : Type} (f : α → β)

/-- The dictionary with each value replaced. -/
def mapValues (d : Dict α) : Dict β := d.map (Prod.map id f)

theorem get?_mapValues (name : String) (d : Dict α) : get? name (d.mapValues f) = (get? name d).map f := by
  induction d with
  | nil => rfl
  | cons entry rest ih =>
    obtain ⟨key, value⟩ := entry
    change (if key = name then some (f value) else get? name (mapValues f rest)) =
      (if key = name then some value else get? name rest).map f
    split
    · rfl
    · exact ih

theorem insert_mapValues (name : String) (value : α) (d : Dict α) :
    (d.mapValues f).insert name (f value) = (d.insert name value).mapValues f := by
  induction d with
  | nil => rfl
  | cons entry rest ih =>
    obtain ⟨key, old⟩ := entry
    change (if name < key then (name, f value) :: (key, f old) :: mapValues f rest
      else if key = name then (name, f value) :: mapValues f rest
      else (key, f old) :: insert name (f value) (mapValues f rest)) =
      mapValues f (if name < key then (name, value) :: (key, old) :: rest
        else if key = name then (name, value) :: rest else (key, old) :: insert name value rest)
    rw [ih]
    split
    · rfl
    · split <;> rfl

theorem ofEntries_mapValues (entries : List (String × α)) :
    ofEntries (mapValues f entries) = (ofEntries entries).mapValues f := by
  suffices ∀ d : Dict α, (mapValues f entries).foldl (fun d entry => insert entry.1 entry.2 d) (d.mapValues f) =
      (entries.foldl (fun d entry => insert entry.1 entry.2 d) d).mapValues f from this []
  induction entries with
  | nil => exact fun d => rfl
  | cons entry rest ih =>
    intro d
    change (mapValues f rest).foldl _ ((d.mapValues f).insert entry.1 (f entry.2)) = _
    rw [insert_mapValues]
    exact ih _

end Dict

/-! ### Values -/

/-- The function with the spans of its body forgotten, and which of all functions made it is. -/
def Lambda.spanless (f : Lambda) : Lambda := { f with id := 0, body := f.body.bare }

/-- A native has no body. -/
def Function.spanless : Function → Function
  | lambda f => lambda f.spanless
  | native f => native f

namespace Value

mutual

/-- **The value with the spans in the bodies of its functions forgotten.** -/
def spanless : Value → Value
  | function f => function f.spanless
  | list items => list (spanlessItems items)
  | vector items => vector (spanlessItems items)
  | map entries => map (spanlessEntries entries)
  | value => value

/-- The values of a list without spans. -/
def spanlessItems : List Value → List Value
  | [] => []
  | value :: rest => spanless value :: spanlessItems rest

/-- The entries of a map without spans. -/
def spanlessEntries : List (String × Value) → List (String × Value)
  | [] => []
  | (key, value) :: rest => (key, spanless value) :: spanlessEntries rest

end

theorem spanlessItems_eq_map (items : List Value) : spanlessItems items = items.map spanless := by
  induction items with
  | nil => rfl
  | cons value rest ih => rw [spanlessItems, ih]; rfl

theorem spanlessEntries_eq_mapValues (entries : Dict Value) :
    spanlessEntries entries = entries.mapValues spanless := by
  induction entries with
  | nil => rfl
  | cons entry rest ih => rw [spanlessEntries, ih]; rfl

end Value

@[simp] theorem Function.name?_spanless (f : Function) : f.spanless.name? = f.name? := by
  cases f <;> rfl

@[simp] theorem Function.spanless_spanless (f : Function) : f.spanless.spanless = f.spanless := by
  cases f with
  | lambda f => exact congrArg (fun body => lambda { f with id := 0, body }) (Form.bare_bare f.body)
  | native f => rfl

namespace Value

mutual

/-- **A value is shown** the same without its spans. -/
@[simp] theorem text_spanless : ∀ value : Value, value.spanless.text = value.text
  | function f => by simp only [spanless, text, Function.name?_spanless]
  | list items => by simp only [spanless, text, texts_spanlessItems items]
  | vector items => by simp only [spanless, text, texts_spanlessItems items]
  | map entries => by simp only [spanless, text, entryTexts_spanlessEntries entries]
  | number _ | string _ | keyword _ | boolean _ | nil | synthNode _ => rfl

theorem texts_spanlessItems : ∀ items : List Value, texts (spanlessItems items) = texts items
  | [] => rfl
  | value :: rest => by simp only [spanlessItems, texts, text_spanless value, texts_spanlessItems rest]

theorem entryTexts_spanlessEntries : ∀ entries : List (String × Value),
    entryTexts (spanlessEntries entries) = entryTexts entries
  | [] => rfl
  | (key, value) :: rest => by
    simp only [spanlessEntries, entryTexts, text_spanless value, entryTexts_spanlessEntries rest]

end

mutual

@[simp] theorem spanless_spanless : ∀ value : Value, value.spanless.spanless = value.spanless
  | function f => by simp only [spanless, Function.spanless_spanless]
  | list items => by simp only [spanless, spanlessItems_spanlessItems items]
  | vector items => by simp only [spanless, spanlessItems_spanlessItems items]
  | map entries => by simp only [spanless, spanlessEntries_spanlessEntries entries]
  | number _ | string _ | keyword _ | boolean _ | nil | synthNode _ => rfl

@[simp] theorem spanlessItems_spanlessItems : ∀ items : List Value,
    spanlessItems (spanlessItems items) = spanlessItems items
  | [] => rfl
  | value :: rest => by
    simp only [spanlessItems, spanless_spanless value, spanlessItems_spanlessItems rest]

@[simp] theorem spanlessEntries_spanlessEntries : ∀ entries : List (String × Value),
    spanlessEntries (spanlessEntries entries) = spanlessEntries entries
  | [] => rfl
  | (key, value) :: rest => by
    simp only [spanlessEntries, spanless_spanless value, spanlessEntries_spanlessEntries rest]

end

@[simp] theorem truthy_spanless (value : Value) : value.spanless.truthy = value.truthy := by
  cases value <;> rfl

@[simp] theorem number?_spanless (value : Value) : value.spanless.number? = value.number? := by
  cases value <;> rfl

@[simp] theorem name?_spanless (value : Value) : value.spanless.name? = value.name? := by
  cases value <;> rfl

end Value

/-! ### Frames -/

/-- The frame with its values spanless. -/
def Frame.spanless (frame : Frame) : Frame :=
  { frame with bindings := frame.bindings.mapValues Value.spanless }

theorem Dict.mapValues_spanless_spanless (d : Dict Value) :
    (d.mapValues Value.spanless).mapValues Value.spanless = d.mapValues Value.spanless := by
  simp only [← Value.spanlessEntries_eq_mapValues, Value.spanlessEntries_spanlessEntries]

@[simp] theorem Frame.spanless_spanless (frame : Frame) : frame.spanless.spanless = frame.spanless := by
  unfold Frame.spanless
  rw [Dict.mapValues_spanless_spanless]

namespace Scopes

/-- All frames with their values spanless. -/
def spanless (s : Scopes) : Scopes := ⟨s.frames.map Frame.spanless⟩

variable (s : Scopes)

@[simp] theorem spanless_spanless : s.spanless.spanless = s.spanless := by
  unfold spanless
  rw [Array.map_map]
  exact congrArg Scopes.mk (congrArg (fun f => s.frames.map f) (funext Frame.spanless_spanless))

@[simp] theorem next_spanless : s.spanless.next = s.next := Array.size_map

theorem getElem?_spanless (id : FrameId) : s.spanless.frames[id]? = (s.frames[id]?).map Frame.spanless :=
  Array.getElem?_map

theorem chain_spanless (id : FrameId) : s.spanless.chain id = (s.chain id).map Frame.spanless := by
  induction id using chain.induct s with
  | case1 id h =>
    rw [chain, chain, getElem?_spanless, h]
    rfl
  | case2 id frame h houter =>
    have houter' : frame.spanless.outer = none := houter
    rw [chain, chain, getElem?_spanless, h]
    simp only [Option.map_some, houter, houter', List.map_cons, List.map_nil]
  | case3 id frame h outer houter hlt ih =>
    have houter' : frame.spanless.outer = some outer := houter
    rw [chain, chain, getElem?_spanless, h]
    simp only [Option.map_some, houter, houter', if_pos hlt, ih, List.map_cons]
  | case4 id frame h outer houter hlt =>
    have houter' : frame.spanless.outer = some outer := houter
    rw [chain, chain, getElem?_spanless, h]
    simp only [Option.map_some, houter, houter', if_neg hlt, List.map_cons, List.map_nil]

/-- **A name stands for the same**, up to spans. -/
theorem lookup_spanless (id : FrameId) (name : String) :
    s.spanless.lookup id name = (s.lookup id name).map Value.spanless := by
  unfold lookup
  rw [chain_spanless]
  induction s.chain id with
  | nil => rfl
  | cons frame rest ih =>
    have hframe : Dict.get? name frame.spanless.bindings =
        (Dict.get? name frame.bindings).map Value.spanless := Dict.get?_mapValues _ _ _
    rw [List.map_cons, List.findSome?_cons, List.findSome?_cons, hframe]
    cases Dict.get? name frame.bindings with
    | some value => rfl
    | none => exact ih

theorem enclose_spanless (outer : FrameId) (bindings : Dict Value) :
    s.spanless.enclose outer (bindings.mapValues Value.spanless) = (s.enclose outer bindings).spanless := by
  unfold enclose push spanless
  rw [Array.map_push]
  rfl

theorem bind_spanless (frame : FrameId) (name : String) (value : Value) :
    s.spanless.bind frame name value.spanless = (s.bind frame name value).spanless := by
  unfold bind spanless
  refine congrArg Scopes.mk (Array.ext_getElem? fun i => ?_)
  rw [Array.getElem?_modify, Array.getElem?_map, Array.getElem?_map, Array.getElem?_modify]
  split
  · cases s.frames[i]? with
    | none => rfl
    | some f =>
      exact congrArg (fun bindings => some (Frame.mk f.outer bindings)) (Dict.insert_mapValues _ _ _ _)
  · rfl

end Scopes

end MusicLisp
