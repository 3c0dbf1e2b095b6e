import Mathlib.Data.List.Forall2
import MusicLisp.Eval
import MusicLisp.Proofs.Form.Yield

/-!
# Values that match

Two evaluations are often compared whose forms differ in some known way: they stand elsewhere in the source, or they
are the same and what matters is which text they come from. Such a way to differ is a relation between forms that
goes down to their parts (`Form.Matching`). Values match if they differ in nothing but the bodies of their functions,
and those are related; how, may depend on the numbers of the functions.

* `Value.Matches`: values that match are shown the same (`text_eq`).
* `Dict.Matches`, `Scopes.Matches`: the same names with values that match, and the same frames with such bindings.
  Look-up, `insert`, `bind` and `enclose` go along with it.
* `Scopes.matches_self_iff`: frames match themselves just if the bodies of all functions that stand in them
  (`Value.Holds`) are related to themselves.
* `Scopes.Matches.imp`, `Scopes.Matches.eq_of`: coarser relations, and equality.
-/

namespace MusicLisp

/-- **A relation between forms of the same shape** that goes down to their parts. -/
structure Form.Matching (R : Form → Form → Prop) : Prop where
  atom : ∀ {span a form}, R (.atom span a) form → ∃ span', form = .atom span' a
  list : ∀ {span items form}, R (.list span items) form →
    ∃ span' items', form = .list span' items' ∧ List.Forall₂ R items items'
  vector : ∀ {span items form}, R (.vector span items) form →
    ∃ span' items', form = .vector span' items' ∧ List.Forall₂ R items items'
  map : ∀ {span entries form}, R (.map span entries) form →
    ∃ span' entries', form = .map span' entries' ∧
      List.Forall₂ (fun entry entry' => R entry.1 entry'.1 ∧ R entry.2 entry'.2) entries entries'

theorem Form.Matching.symbol?_eq {R : Form → Form → Prop} (M : Form.Matching R) {form form' : Form}
    (h : R form form') : form.symbol? = form'.symbol? := by
  cases form with
  | atom span a =>
    obtain ⟨span', rfl⟩ := M.atom h
    cases a <;> rfl
  | list span items =>
    obtain ⟨span', items', rfl, -⟩ := M.list h
    rfl
  | vector span items =>
    obtain ⟨span', items', rfl, -⟩ := M.vector h
    rfl
  | map span entries =>
    obtain ⟨span', entries', rfl, -⟩ := M.map h
    rfl

theorem Form.Matching.special?_eq {R : Form → Form → Prop} (M : Form.Matching R) {form form' : Form}
    (h : R form form') : form.special? = form'.special? := by
  unfold Form.special?
  rw [M.symbol?_eq h]

/-! ### Dictionaries -/

namespace Dict

variable {α : Type} (A : α → α → Prop)

/-- The same names in the same order, with related values. -/
def Matches (d e : Dict α) : Prop := List.Forall₂ (fun x y => x.1 = y.1 ∧ A x.2 y.2) d e

variable {A} {d e : Dict α}

theorem Matches.get? (h : Matches A d e) (name : String) :
    Option.Rel A (Dict.get? name d) (Dict.get? name e) := by
  induction h with
  | nil => exact .none
  | @cons x y d e hxy _ ih =>
    obtain ⟨key, a⟩ := x
    obtain ⟨_, b⟩ := y
    obtain ⟨rfl, hab⟩ := hxy
    unfold Dict.get?
    split
    · exact .some hab
    · exact ih

theorem Matches.insert (h : Matches A d e) (name : String) {a b : α} (hab : A a b) :
    Matches A (d.insert name a) (e.insert name b) := by
  induction h with
  | nil => exact .cons ⟨rfl, hab⟩ .nil
  | @cons x y d e hxy htail ih =>
    obtain ⟨key, old⟩ := x
    obtain ⟨_, old'⟩ := y
    obtain ⟨rfl, hold⟩ := hxy
    unfold Dict.insert
    split
    · exact .cons ⟨rfl, hab⟩ (.cons ⟨rfl, hold⟩ htail)
    · split
      · exact .cons ⟨rfl, hab⟩ htail
      · exact .cons ⟨rfl, hold⟩ ih

/-- The same names given to related values one after the other. -/
theorem matches_ofEntries_zip (names : List String) {values values' : List α}
    (h : List.Forall₂ A values values') :
    Matches A (Dict.ofEntries (names.zip values)) (Dict.ofEntries (names.zip values')) := by
  suffices ∀ d e : Dict α, Matches A d e →
      Matches A ((names.zip values).foldl (fun d entry => Dict.insert entry.1 entry.2 d) d)
        ((names.zip values').foldl (fun d entry => Dict.insert entry.1 entry.2 d) e) from this [] [] .nil
  induction h generalizing names with
  | nil =>
    intro d e hde
    rwa [List.zip_nil_right]
  | cons hab _ ih =>
    intro d e hde
    cases names with
    | nil => exact hde
    | cons name names => exact ih names _ _ (hde.insert name hab)

end Dict

/-! ### Values -/

/-- The same function, with a related body; the relation may depend on the number of the function. -/
structure Lambda.Matches (R : Nat → Form → Form → Prop) (f g : Lambda) : Prop where
  id : f.id = g.id
  params : f.params = g.params
  body : R f.id f.body g.body
  closure : f.closure = g.closure
  name : f.name = g.name

namespace Value

mutual

/-- **Values that differ in nothing** but the bodies of their functions, which are related. -/
inductive Matches (R : Nat → Form → Form → Prop) : Value → Value → Prop
  | number (x : Float) : Matches R (.number x) (.number x)
  | string (s : String) : Matches R (.string s) (.string s)
  | keyword (name : String) : Matches R (.keyword name) (.keyword name)
  | boolean (b : Bool) : Matches R (.boolean b) (.boolean b)
  | nil : Matches R .nil .nil
  | native (f : Native) : Matches R (.function (.native f)) (.function (.native f))
  | lambda {f g : Lambda} (h : f.Matches R g) : Matches R (.function (.lambda f)) (.function (.lambda g))
  | list {xs ys : List Value} (h : List.Forall₂ (Matches R) xs ys) : Matches R (.list xs) (.list ys)
  | vector {xs ys : List Value} (h : List.Forall₂ (Matches R) xs ys) : Matches R (.vector xs) (.vector ys)
  | map {d e : List (String × Value)} (h : EntriesMatch R d e) : Matches R (.map d) (.map e)
  | synthNode (node : SynthNode) : Matches R (.synthNode node) (.synthNode node)

/-- Maps of the same keys with values that match. -/
inductive EntriesMatch (R : Nat → Form → Form → Prop) : List (String × Value) → List (String × Value) → Prop
  | nil : EntriesMatch R [] []
  | cons {key : String} {v w : Value} {d e : List (String × Value)} (hvalue : Matches R v w)
    (hrest : EntriesMatch R d e) : EntriesMatch R ((key, v) :: d) ((key, w) :: e)

end

variable {R : Nat → Form → Form → Prop}

theorem entriesMatch_iff {d e : Dict Value} : EntriesMatch R d e ↔ Dict.Matches (Matches R) d e := by
  constructor
  · intro h
    induction d generalizing e with
    | nil => cases h; exact .nil
    | cons entry d ih =>
      cases h with
      | cons hvalue hrest => exact .cons ⟨rfl, hvalue⟩ (ih hrest)
  · intro h
    induction h with
    | nil => exact .nil
    | @cons x y d e hxy _ ih =>
      obtain ⟨key, v⟩ := x
      obtain ⟨_, w⟩ := y
      obtain ⟨rfl, hvalue⟩ := hxy
      exact .cons hvalue ih

mutual

/-- **Values that match are shown the same.** -/
theorem Matches.text_eq : ∀ {v w : Value}, v.Matches R w → v.text = w.text
  | .number _, _, .number _ => rfl
  | .string _, _, .string _ => rfl
  | .keyword _, _, .keyword _ => rfl
  | .boolean _, _, .boolean _ => rfl
  | .nil, _, .nil => rfl
  | .function _, _, .native _ => rfl
  | .function _, _, .lambda h => congrArg (fun name => "<function " ++ Option.getD name "anonymous" ++ ">") h.name
  | .list _, _, .list h => by unfold text; rw [texts_eq h]
  | .vector _, _, .vector h => by unfold text; rw [texts_eq h]
  | .map _, _, .map h => by unfold text; rw [entryTexts_eq h]
  | .synthNode _, _, .synthNode _ => rfl

theorem texts_eq : ∀ {xs ys : List Value}, List.Forall₂ (Matches R) xs ys → texts xs = texts ys
  | [], _, .nil => rfl
  | _ :: _, _, .cons h hrest => by unfold texts; rw [Matches.text_eq h, texts_eq hrest]

theorem entryTexts_eq : ∀ {d e : List (String × Value)}, EntriesMatch R d e → entryTexts d = entryTexts e
  | [], _, .nil => rfl
  | _ :: _, _, .cons h hrest => by unfold entryTexts; rw [Matches.text_eq h, entryTexts_eq hrest]

end

namespace Matches

variable {v w : Value}

theorem truthy_eq (h : v.Matches R w) : v.truthy = w.truthy := by cases h <;> rfl

theorem number?_eq (h : v.Matches R w) : v.number? = w.number? := by cases h <;> rfl

/-- Data that holds no value matches itself. -/
theorem of_numbers (xs : List Float) : (Value.vector (xs.map .number)).Matches R (.vector (xs.map .number)) := by
  refine .vector ?_
  induction xs with
  | nil => exact .nil
  | cons x xs ih => exact .cons (.number x) ih

end Matches

end Value

/-! ### Coarser relations, and equality -/

theorem Lambda.Matches.imp {R S : Nat → Form → Form → Prop} (hRS : ∀ id form form', R id form form' → S id form form')
    {f g : Lambda} (h : f.Matches R g) : f.Matches S g := ⟨h.id, h.params, hRS _ _ _ h.body, h.closure, h.name⟩

theorem Lambda.Matches.eq_of {R : Nat → Form → Form → Prop} (hR : ∀ id form form', R id form form' → form' = form)
    {f g : Lambda} (h : f.Matches R g) : g = f := by
  obtain ⟨id, params, body, closure, name⟩ := f
  obtain ⟨id', params', body', closure', name'⟩ := g
  obtain ⟨rfl, rfl, hbody, rfl, rfl⟩ := h
  obtain rfl : body' = body := hR _ _ _ hbody
  rfl

namespace Value

section

variable {R S : Nat → Form → Form → Prop}

mutual

theorem Matches.imp (hRS : ∀ id form form', R id form form' → S id form form') :
    ∀ {v w : Value}, v.Matches R w → v.Matches S w
  | .number _, _, .number x => .number x
  | .string _, _, .string s => .string s
  | .keyword _, _, .keyword name => .keyword name
  | .boolean _, _, .boolean b => .boolean b
  | .nil, _, .nil => .nil
  | .function _, _, .native f => .native f
  | .function _, _, .lambda h => .lambda (h.imp hRS)
  | .list _, _, .list h => .list (forall₂_imp hRS h)
  | .vector _, _, .vector h => .vector (forall₂_imp hRS h)
  | .map _, _, .map h => .map (EntriesMatch.imp hRS h)
  | .synthNode _, _, .synthNode node => .synthNode node

theorem forall₂_imp (hRS : ∀ id form form', R id form form' → S id form form') :
    ∀ {xs ys : List Value}, List.Forall₂ (Matches R) xs ys → List.Forall₂ (Matches S) xs ys
  | [], _, .nil => .nil
  | _ :: _, _, .cons h hrest => .cons (Matches.imp hRS h) (forall₂_imp hRS hrest)

theorem EntriesMatch.imp (hRS : ∀ id form form', R id form form' → S id form form') :
    ∀ {d e : List (String × Value)}, EntriesMatch R d e → EntriesMatch S d e
  | [], _, .nil => .nil
  | _ :: _, _, .cons h hrest => .cons (Matches.imp hRS h) (EntriesMatch.imp hRS hrest)

end

end

section

variable {R : Nat → Form → Form → Prop}

mutual

/-- **Values that match by equality** are equal. -/
theorem Matches.eq_of (hR : ∀ id form form', R id form form' → form' = form) :
    ∀ {v w : Value}, v.Matches R w → w = v
  | .number _, _, .number _ => rfl
  | .string _, _, .string _ => rfl
  | .keyword _, _, .keyword _ => rfl
  | .boolean _, _, .boolean _ => rfl
  | .nil, _, .nil => rfl
  | .function _, _, .native _ => rfl
  | .function _, _, .lambda h => by rw [h.eq_of hR]
  | .list _, _, .list h => by rw [forall₂_eq_of hR h]
  | .vector _, _, .vector h => by rw [forall₂_eq_of hR h]
  | .map _, _, .map h => by rw [EntriesMatch.eq_of hR h]
  | .synthNode _, _, .synthNode _ => rfl

theorem forall₂_eq_of (hR : ∀ id form form', R id form form' → form' = form) :
    ∀ {xs ys : List Value}, List.Forall₂ (Matches R) xs ys → ys = xs
  | [], _, .nil => rfl
  | _ :: _, _, .cons h hrest => by rw [Matches.eq_of hR h, forall₂_eq_of hR hrest]

theorem EntriesMatch.eq_of (hR : ∀ id form form', R id form form' → form' = form) :
    ∀ {d e : List (String × Value)}, EntriesMatch R d e → e = d
  | [], _, .nil => rfl
  | _ :: _, _, .cons h hrest => by rw [Matches.eq_of hR h, EntriesMatch.eq_of hR hrest]

end

end

end Value

/-! ### Functions in a value -/

namespace Value

/-- **The function stands somewhere in the value.** -/
inductive Holds (f : Lambda) : Value → Prop
  | function : Holds f (.function (.lambda f))
  | list {items : List Value} {v : Value} (hv : v ∈ items) (h : Holds f v) : Holds f (.list items)
  | vector {items : List Value} {v : Value} (hv : v ∈ items) (h : Holds f v) : Holds f (.vector items)
  | map {entries : List (String × Value)} {entry : String × Value} (hentry : entry ∈ entries)
    (h : Holds f entry.2) : Holds f (.map entries)

variable {R : Nat → Form → Form → Prop}

mutual

theorem matches_self : ∀ (v : Value), (∀ f, v.Holds f → R f.id f.body f.body) → v.Matches R v
  | .number x, _ => .number x
  | .string s, _ => .string s
  | .keyword name, _ => .keyword name
  | .boolean b, _ => .boolean b
  | .nil, _ => .nil
  | .function (.native f), _ => .native f
  | .function (.lambda f), h => .lambda ⟨rfl, rfl, h f .function, rfl, rfl⟩
  | .list items, h => .list (forall₂_self items fun _ hv f hf => h f (.list hv hf))
  | .vector items, h => .vector (forall₂_self items fun _ hv f hf => h f (.vector hv hf))
  | .map entries, h => .map (entriesMatch_self entries fun _ hentry f hf => h f (.map hentry hf))
  | .synthNode node, _ => .synthNode node

theorem forall₂_self : ∀ (items : List Value), (∀ v ∈ items, ∀ f, v.Holds f → R f.id f.body f.body) →
    List.Forall₂ (Matches R) items items
  | [], _ => .nil
  | v :: rest, h => .cons (matches_self v (h v List.mem_cons_self))
    (forall₂_self rest fun w hw => h w (List.mem_cons_of_mem v hw))

theorem entriesMatch_self : ∀ (entries : List (String × Value)),
    (∀ entry ∈ entries, ∀ f, entry.2.Holds f → R f.id f.body f.body) → EntriesMatch R entries entries
  | [], _ => .nil
  | (key, v) :: rest, h => .cons (matches_self v (h (key, v) List.mem_cons_self))
    (entriesMatch_self rest fun entry hentry => h entry (List.mem_cons_of_mem _ hentry))

end

/-- **A value matches itself** if and only if the bodies of its functions are related to themselves. -/
theorem matches_self_iff {v : Value} : v.Matches R v ↔ ∀ f, v.Holds f → R f.id f.body f.body := by
  refine ⟨fun h f hf => ?_, matches_self v⟩
  induction hf with
  | function =>
    cases h with
    | lambda h => exact h.body
  | list hv _ ih =>
    cases h with
    | list h => exact ih (List.forall₂_same.mp h _ hv)
  | vector hv _ ih =>
    cases h with
    | vector h => exact ih (List.forall₂_same.mp h _ hv)
  | map hentry _ ih =>
    cases h with
    | map h => exact ih (List.forall₂_same.mp (entriesMatch_iff.mp h) _ hentry).2

end Value

/-! ### Frames -/

/-- A frame in the same place, with the same names bound to values that match. -/
structure Frame.Matches (R : Nat → Form → Form → Prop) (f g : Frame) : Prop where
  outer : f.outer = g.outer
  bindings : Dict.Matches (Value.Matches R) f.bindings g.bindings

/-- As many frames, and each of them matches. -/
structure Scopes.Matches (R : Nat → Form → Form → Prop) (s t : Scopes) : Prop where
  size : s.frames.size = t.frames.size
  frames : ∀ (i : FrameId) (f g : Frame), s.frames[i]? = some f → t.frames[i]? = some g → f.Matches R g

namespace Scopes.Matches

variable {R : Nat → Form → Form → Prop} {s t : Scopes} (h : s.Matches R t)
include h

theorem exists_frame {i : FrameId} {f : Frame} (hf : s.frames[i]? = some f) :
    ∃ g, t.frames[i]? = some g ∧ f.Matches R g := by
  have hi : i < t.frames.size := h.size ▸ (Array.getElem?_eq_some_iff.mp hf).1
  have hg := Array.getElem?_eq_getElem hi
  exact ⟨_, hg, h.frames i f _ hf hg⟩

theorem chain (id : FrameId) : List.Forall₂ (Frame.Matches R) (s.chain id) (t.chain id) := by
  induction id using chain.induct s with
  | case1 id hs =>
    have ht : t.frames[id]? = none :=
      Array.getElem?_eq_none_iff.mpr (h.size ▸ Array.getElem?_eq_none_iff.mp hs)
    rw [Scopes.chain, Scopes.chain, hs, ht]
    exact .nil
  | case2 id frame hs houter =>
    obtain ⟨g, ht, hg⟩ := h.exists_frame hs
    rw [Scopes.chain, Scopes.chain, hs, ht]
    simp only [houter, ← hg.outer]
    exact .cons hg .nil
  | case3 id frame hs outer houter hlt ih =>
    obtain ⟨g, ht, hg⟩ := h.exists_frame hs
    rw [Scopes.chain, Scopes.chain, hs, ht]
    simp only [houter, ← hg.outer, if_pos hlt]
    exact .cons hg ih
  | case4 id frame hs outer houter hlt =>
    obtain ⟨g, ht, hg⟩ := h.exists_frame hs
    rw [Scopes.chain, Scopes.chain, hs, ht]
    simp only [houter, ← hg.outer, if_neg hlt]
    exact .cons hg .nil

/-- **A name stands for values that match**, or for none in both. -/
theorem lookup (id : FrameId) (name : String) :
    Option.Rel (Value.Matches R) (s.lookup id name) (t.lookup id name) := by
  have hchain := h.chain id
  unfold Scopes.lookup
  generalize s.chain id = fs at hchain
  generalize t.chain id = gs at hchain
  induction hchain with
  | nil => exact .none
  | @cons f g fs gs hfg _ ih =>
    rw [List.findSome?_cons, List.findSome?_cons]
    have hget := hfg.bindings.get? name
    generalize Dict.get? name f.bindings = v at hget
    generalize Dict.get? name g.bindings = w at hget
    cases hget with
    | some hvw => exact .some hvw
    | none => exact ih

theorem next : s.next = t.next := h.size

theorem enclose (outer : FrameId) {d e : Dict Value} (hde : Dict.Matches (Value.Matches R) d e) :
    (s.enclose outer d).Matches R (t.enclose outer e) where
  size := by
    unfold Scopes.enclose push
    rw [Array.size_push, Array.size_push, h.size]
  frames i f g hf hg := by
    unfold Scopes.enclose push at hf hg
    rw [Array.getElem?_push] at hf hg
    rw [h.size] at hf
    split at hf
    · next hi =>
      rw [if_pos hi] at hg
      cases hf
      cases hg
      exact ⟨rfl, hde⟩
    · next hi =>
      rw [if_neg hi] at hg
      exact h.frames i f g hf hg

theorem bind (frame : FrameId) (name : String) {v w : Value} (hvw : v.Matches R w) :
    (s.bind frame name v).Matches R (t.bind frame name w) where
  size := by
    unfold Scopes.bind
    rw [Array.size_modify, Array.size_modify, h.size]
  frames i f g hf hg := by
    unfold Scopes.bind at hf hg
    rw [Array.getElem?_modify] at hf hg
    split at hf
    · next hi =>
      rw [if_pos hi] at hg
      obtain ⟨f', hf', rfl⟩ := Option.map_eq_some_iff.mp hf
      obtain ⟨g', hg', rfl⟩ := Option.map_eq_some_iff.mp hg
      have hfg := h.frames i f' g' hf' hg'
      exact ⟨hfg.outer, hfg.bindings.insert name hvw⟩
    · next hi =>
      rw [if_neg hi] at hg
      exact h.frames i f g hf hg

end Scopes.Matches

section

variable {R S : Nat → Form → Form → Prop} {s t : Scopes}

theorem Frame.Matches.imp (hRS : ∀ id form form', R id form form' → S id form form') {f g : Frame} (h : f.Matches R g) :
    f.Matches S g := ⟨h.outer, List.Forall₂.imp (fun _ _ h => ⟨h.1, h.2.imp hRS⟩) h.bindings⟩

theorem Scopes.Matches.imp (hRS : ∀ id form form', R id form form' → S id form form') (h : s.Matches R t) :
    s.Matches S t := ⟨h.size, fun i f g hf hg => (h.frames i f g hf hg).imp hRS⟩

theorem Frame.Matches.eq_of (hR : ∀ id form form', R id form form' → form' = form) {f g : Frame} (h : f.Matches R g) :
    g = f := by
  obtain ⟨outer, bindings⟩ := f
  obtain ⟨outer', bindings'⟩ := g
  obtain ⟨rfl, hbindings⟩ := h
  have heq : List.Forall₂ (fun x y : String × Value => x = y) bindings bindings' :=
    List.Forall₂.imp (fun x y hxy => Prod.ext hxy.1 (hxy.2.eq_of hR).symm) hbindings
  rw [List.forall₂_eq_eq_eq] at heq
  rw [heq]

/-- **Frames that match by equality** are equal. -/
theorem Scopes.Matches.eq_of (hR : ∀ id form form', R id form form' → form' = form) (h : s.Matches R t) : t = s := by
  obtain ⟨frames⟩ := s
  obtain ⟨frames'⟩ := t
  refine congrArg Scopes.mk (Array.ext h.size.symm fun i hi hi' => ?_)
  exact (h.frames i _ _ (Array.getElem?_eq_getElem hi') (Array.getElem?_eq_getElem hi)).eq_of hR

end

/-- The function stands somewhere in the frames. -/
def Scopes.Holds (s : Scopes) (f : Lambda) : Prop :=
  ∃ frame ∈ s.frames, ∃ entry ∈ frame.bindings, entry.2.Holds f

/-- **Frames match themselves** if and only if the bodies of all functions in them are related to themselves. -/
theorem Scopes.matches_self_iff {R : Nat → Form → Form → Prop} {s : Scopes} :
    s.Matches R s ↔ ∀ f, s.Holds f → R f.id f.body f.body := by
  constructor
  · rintro h f ⟨frame, hframe, entry, hentry, hf⟩
    obtain ⟨i, hi, rfl⟩ := Array.getElem_of_mem hframe
    have hbindings := (h.frames i _ _ (Array.getElem?_eq_getElem hi) (Array.getElem?_eq_getElem hi)).bindings
    exact Value.matches_self_iff.mp (List.forall₂_same.mp hbindings entry hentry).2 f hf
  · intro h
    refine ⟨rfl, fun i frame frame' hframe hframe' => ?_⟩
    cases hframe.symm.trans hframe'
    refine ⟨rfl, List.forall₂_same.mpr fun entry hentry => ⟨rfl, Value.matches_self_iff.mpr fun f hf => ?_⟩⟩
    exact h f ⟨frame, Array.mem_of_getElem? hframe, entry, hentry, hf⟩

end MusicLisp
