import Mathlib.Data.List.Forall2
import MusicLisp.Native
import MusicLisp.Proofs.Number.Equality

/-!
# Equality of values

The host compares values by their structure, the language with `=` only simple ones.

* `Agrees`: what the host takes to be the same, as a relation (`same_iff`).
* `Agrees.symm`, `Agrees.trans`: it is a partial equivalence.
* `HoldsNaN`: a `NaN` stands somewhere in the value, functions apart; `agrees_self_iff`: only such a value is not the
  same as itself.
* `same_equivalence`: these together, and `=` **in the language is equality of the host on simple values**.
-/

namespace MusicLisp

/-- **What functions are compared by:** one of the language by its number, a native by its name. -/
def Function.identity : Function → Nat ⊕ String
  | lambda f => .inl f.id
  | native f => .inr f.name

theorem Function.same_iff {f g : Function} : f.same g = true ↔ f.identity = g.identity := by
  cases f with
  | lambda f =>
    cases g with
    | lambda g => exact beq_iff_eq.trans ⟨congrArg Sum.inl, Sum.inl.inj⟩
    | native g => exact iff_of_false nofun nofun
  | native f =>
    cases g with
    | lambda g => exact iff_of_false nofun nofun
    | native g => exact beq_iff_eq.trans ⟨congrArg Sum.inr, Sum.inr.inj⟩

/-! ### Synth nodes -/

/-- Parameters with the same names and equal numbers. -/
def ParamsAgree (d e : Dict Float) : Prop := List.Forall₂ (fun p q => p.1 = q.1 ∧ (p.2 == q.2) = true) d e

theorem params_beq_iff {d e : Dict Float} : (d == e) = true ↔ ParamsAgree d e := by
  unfold ParamsAgree
  induction d generalizing e with
  | nil => cases e <;> simp
  | cons p d ih =>
    cases e with
    | nil => simp
    | cons q e =>
      rw [List.cons_beq_cons, Bool.and_eq_true, ih, List.forall₂_cons]
      exact and_congr_left fun _ => Bool.and_eq_true_iff.trans (and_congr_left fun _ => beq_iff_eq)

theorem ParamsAgree.symm {d e : Dict Float} (h : ParamsAgree d e) : ParamsAgree e d := by
  induction h with
  | nil => exact .nil
  | cons hpq _ ih => exact .cons ⟨hpq.1.symm, Double.beq_symm hpq.2⟩ ih

theorem ParamsAgree.trans {d e f : Dict Float} (h : ParamsAgree d e) (h' : ParamsAgree e f) : ParamsAgree d f := by
  induction h generalizing f with
  | nil => exact h'
  | cons hpq _ ih =>
    cases h' with
    | cons hqr hrest => exact .cons ⟨hpq.1.trans hqr.1, Double.beq_trans hpq.2 hqr.2⟩ (ih hrest)

theorem paramsAgree_self_iff {d : Dict Float} : ParamsAgree d d ↔ ∀ p ∈ d, p.2.isNaN = false := by
  unfold ParamsAgree
  rw [List.forall₂_same]
  exact forall₂_congr fun p _ => (and_iff_right rfl).trans Double.beq_self_iff

namespace SynthNode

variable {k m n : SynthNode}

theorem beq_iff : (m == n) = true ↔ m.id = n.id ∧ m.synth = n.synth ∧ ParamsAgree m.params n.params := by
  have heq : (m == n) = (m.id == n.id && (m.synth == n.synth && m.params == n.params)) := by
    cases m
    cases n
    rfl
  rw [heq, Bool.and_eq_true, Bool.and_eq_true, beq_iff_eq, beq_iff_eq, params_beq_iff]

theorem beq_symm (h : (m == n) = true) : (n == m) = true := by
  obtain ⟨hid, hsynth, hparams⟩ := beq_iff.mp h
  exact beq_iff.mpr ⟨hid.symm, hsynth.symm, hparams.symm⟩

theorem beq_trans (h : (k == m) = true) (h' : (m == n) = true) : (k == n) = true := by
  obtain ⟨hid, hsynth, hparams⟩ := beq_iff.mp h
  obtain ⟨hid', hsynth', hparams'⟩ := beq_iff.mp h'
  exact beq_iff.mpr ⟨hid.trans hid', hsynth.trans hsynth', hparams.trans hparams'⟩

theorem beq_self_iff : (n == n) = true ↔ ∀ p ∈ n.params, p.2.isNaN = false := by
  rw [beq_iff, paramsAgree_self_iff]
  exact (and_iff_right rfl).trans (and_iff_right rfl)

end SynthNode

namespace Value

/-! ### The relation -/

mutual

/-- **Values that are the same to the host.** -/
inductive Agrees : Value → Value → Prop
  | number {x y : Float} (h : (x == y) = true) : Agrees (.number x) (.number y)
  | string (s : String) : Agrees (.string s) (.string s)
  | keyword (name : String) : Agrees (.keyword name) (.keyword name)
  | boolean (b : Bool) : Agrees (.boolean b) (.boolean b)
  | nil : Agrees .nil .nil
  | function {f g : Function} (h : f.identity = g.identity) : Agrees (.function f) (.function g)
  | list {xs ys : List Value} (h : List.Forall₂ Agrees xs ys) : Agrees (.list xs) (.list ys)
  | vector {xs ys : List Value} (h : List.Forall₂ Agrees xs ys) : Agrees (.vector xs) (.vector ys)
  | map {d e : List (String × Value)} (h : EntriesAgree d e) : Agrees (.map d) (.map e)
  | synthNode {m n : SynthNode} (h : (m == n) = true) : Agrees (.synthNode m) (.synthNode n)

/-- Maps of the same keys with the same values. -/
inductive EntriesAgree : List (String × Value) → List (String × Value) → Prop
  | nil : EntriesAgree [] []
  | cons {key : String} {v w : Value} {d e : List (String × Value)} (hvalue : Agrees v w)
    (hrest : EntriesAgree d e) : EntriesAgree ((key, v) :: d) ((key, w) :: e)

end

mutual

theorem agrees_of_same : ∀ {v w : Value}, v.same w = true → v.Agrees w
  | .number _, w, h => by
    cases w with
    | number y => exact .number h
    | _ => cases h
  | .string s, w, h => by
    cases w with
    | string t =>
      obtain rfl := eq_of_beq h
      exact .string s
    | _ => cases h
  | .keyword s, w, h => by
    cases w with
    | keyword t =>
      obtain rfl := eq_of_beq h
      exact .keyword s
    | _ => cases h
  | .boolean a, w, h => by
    cases w with
    | boolean b =>
      obtain rfl := eq_of_beq h
      exact .boolean a
    | _ => cases h
  | .nil, w, h => by
    cases w with
    | nil => exact .nil
    | _ => cases h
  | .function _, w, h => by
    cases w with
    | function g => exact .function (Function.same_iff.mp h)
    | _ => cases h
  | .list xs, w, h => by
    cases w with
    | list ys => exact .list (forall₂_of_sameItems h)
    | _ => cases h
  | .vector xs, w, h => by
    cases w with
    | vector ys => exact .vector (forall₂_of_sameItems h)
    | _ => cases h
  | .map d, w, h => by
    cases w with
    | map e => exact .map (entriesAgree_of_sameEntries h)
    | _ => cases h
  | .synthNode _, w, h => by
    cases w with
    | synthNode n => exact .synthNode h
    | _ => cases h

theorem forall₂_of_sameItems : ∀ {xs ys : List Value}, sameItems xs ys = true → List.Forall₂ Agrees xs ys
  | [], [], _ => .nil
  | [], _ :: _, h => nomatch h
  | _ :: _, [], h => nomatch h
  | x :: xs, y :: ys, h => by
    obtain ⟨hvalue, hrest⟩ := Bool.and_eq_true_iff.mp h
    exact .cons (agrees_of_same hvalue) (forall₂_of_sameItems hrest)

theorem entriesAgree_of_sameEntries : ∀ {d e : List (String × Value)}, sameEntries d e = true → EntriesAgree d e
  | [], [], _ => .nil
  | [], _ :: _, h => nomatch h
  | _ :: _, [], h => nomatch h
  | (key, v) :: d, (key', w) :: e, h => by
    obtain ⟨hentry, hrest⟩ := Bool.and_eq_true_iff.mp h
    obtain ⟨hkey, hvalue⟩ := Bool.and_eq_true_iff.mp hentry
    obtain rfl := eq_of_beq hkey
    exact .cons (agrees_of_same hvalue) (entriesAgree_of_sameEntries hrest)

end

mutual

theorem same_of_agrees : ∀ {v w : Value}, v.Agrees w → v.same w = true
  | .number _, _, .number h => h
  | .string _, _, .string s => beq_self_eq_true s
  | .keyword _, _, .keyword name => beq_self_eq_true name
  | .boolean _, _, .boolean b => beq_self_eq_true b
  | .nil, _, .nil => rfl
  | .function _, _, .function h => Function.same_iff.mpr h
  | .list _, _, .list h => sameItems_of_forall₂ h
  | .vector _, _, .vector h => sameItems_of_forall₂ h
  | .map _, _, .map h => sameEntries_of_entriesAgree h
  | .synthNode _, _, .synthNode h => h

theorem sameItems_of_forall₂ : ∀ {xs ys : List Value}, List.Forall₂ Agrees xs ys → sameItems xs ys = true
  | [], _, .nil => rfl
  | _ :: _, _, .cons h hrest => Bool.and_eq_true_iff.mpr ⟨same_of_agrees h, sameItems_of_forall₂ hrest⟩

theorem sameEntries_of_entriesAgree : ∀ {d e : List (String × Value)}, EntriesAgree d e → sameEntries d e = true
  | [], _, .nil => rfl
  | (key, _) :: _, _, .cons h hrest => Bool.and_eq_true_iff.mpr
    ⟨Bool.and_eq_true_iff.mpr ⟨beq_self_eq_true key, same_of_agrees h⟩, sameEntries_of_entriesAgree hrest⟩

end

/-- **The host decides the relation.** -/
theorem same_iff {v w : Value} : v.same w = true ↔ v.Agrees w := ⟨agrees_of_same, same_of_agrees⟩

/-! ### A partial equivalence -/

mutual

theorem Agrees.symm : ∀ {v w : Value}, v.Agrees w → w.Agrees v
  | .number _, _, .number h => .number (Double.beq_symm h)
  | .string _, _, .string s => .string s
  | .keyword _, _, .keyword name => .keyword name
  | .boolean _, _, .boolean b => .boolean b
  | .nil, _, .nil => .nil
  | .function _, _, .function h => .function h.symm
  | .list _, _, .list h => .list (forall₂_symm h)
  | .vector _, _, .vector h => .vector (forall₂_symm h)
  | .map _, _, .map h => .map (EntriesAgree.symm h)
  | .synthNode _, _, .synthNode h => .synthNode (SynthNode.beq_symm h)

theorem forall₂_symm : ∀ {xs ys : List Value}, List.Forall₂ Agrees xs ys → List.Forall₂ Agrees ys xs
  | [], _, .nil => .nil
  | _ :: _, _, .cons h hrest => .cons (Agrees.symm h) (forall₂_symm hrest)

theorem EntriesAgree.symm : ∀ {d e : List (String × Value)}, EntriesAgree d e → EntriesAgree e d
  | [], _, .nil => .nil
  | _ :: _, _, .cons h hrest => .cons (Agrees.symm h) (EntriesAgree.symm hrest)

end

mutual

theorem Agrees.trans : ∀ {u v w : Value}, u.Agrees v → v.Agrees w → u.Agrees w
  | .number _, _, _, .number h, .number h' => .number (Double.beq_trans h h')
  | .string _, _, _, .string s, .string _ => .string s
  | .keyword _, _, _, .keyword name, .keyword _ => .keyword name
  | .boolean _, _, _, .boolean b, .boolean _ => .boolean b
  | .nil, _, _, .nil, .nil => .nil
  | .function _, _, _, .function h, .function h' => .function (h.trans h')
  | .list _, _, _, .list h, .list h' => .list (forall₂_trans h h')
  | .vector _, _, _, .vector h, .vector h' => .vector (forall₂_trans h h')
  | .map _, _, _, .map h, .map h' => .map (EntriesAgree.trans h h')
  | .synthNode _, _, _, .synthNode h, .synthNode h' => .synthNode (SynthNode.beq_trans h h')

theorem forall₂_trans : ∀ {xs ys zs : List Value},
    List.Forall₂ Agrees xs ys → List.Forall₂ Agrees ys zs → List.Forall₂ Agrees xs zs
  | [], _, _, .nil, .nil => .nil
  | _ :: _, _, _, .cons h hrest, .cons h' hrest' => .cons (Agrees.trans h h') (forall₂_trans hrest hrest')

theorem EntriesAgree.trans : ∀ {d e f : List (String × Value)}, EntriesAgree d e → EntriesAgree e f → EntriesAgree d f
  | [], _, _, .nil, .nil => .nil
  | _ :: _, _, _, .cons h hrest, .cons h' hrest' => .cons (Agrees.trans h h') (EntriesAgree.trans hrest hrest')

end

/-! ### Where it fails of a value and itself -/

/-- **A `NaN` stands somewhere in the value:** it is one, or it stands in an element, in an entry, or in a parameter of a
synth node. Functions are not entered. -/
inductive HoldsNaN : Value → Prop
  | number {x : Float} (h : x.isNaN = true) : HoldsNaN (.number x)
  | list {items : List Value} {v : Value} (hv : v ∈ items) (h : HoldsNaN v) : HoldsNaN (.list items)
  | vector {items : List Value} {v : Value} (hv : v ∈ items) (h : HoldsNaN v) : HoldsNaN (.vector items)
  | map {entries : List (String × Value)} {entry : String × Value} (hentry : entry ∈ entries)
    (h : HoldsNaN entry.2) : HoldsNaN (.map entries)
  | synthNode {node : SynthNode} {param : String × Float} (hparam : param ∈ node.params)
    (h : param.2.isNaN = true) : HoldsNaN (.synthNode node)

mutual

theorem agrees_self : ∀ (v : Value), ¬ v.HoldsNaN → v.Agrees v
  | .number _, h => .number (Double.beq_self_iff.mpr (Bool.eq_false_iff.mpr fun hx => h (.number hx)))
  | .string s, _ => .string s
  | .keyword name, _ => .keyword name
  | .boolean b, _ => .boolean b
  | .nil, _ => .nil
  | .function f, _ => .function (f := f) rfl
  | .list items, h => .list (forall₂_agrees_self items fun _ hv hn => h (.list hv hn))
  | .vector items, h => .vector (forall₂_agrees_self items fun _ hv hn => h (.vector hv hn))
  | .map entries, h => .map (entriesAgree_self entries fun _ hentry hn => h (.map hentry hn))
  | .synthNode _, h => .synthNode
    (SynthNode.beq_self_iff.mpr fun _ hp => Bool.eq_false_iff.mpr fun hx => h (.synthNode hp hx))

theorem forall₂_agrees_self : ∀ (items : List Value), (∀ v ∈ items, ¬ v.HoldsNaN) → List.Forall₂ Agrees items items
  | [], _ => .nil
  | v :: rest, h => .cons (agrees_self v (h v List.mem_cons_self))
    (forall₂_agrees_self rest fun w hw => h w (List.mem_cons_of_mem v hw))

theorem entriesAgree_self : ∀ (entries : List (String × Value)), (∀ entry ∈ entries, ¬ entry.2.HoldsNaN) →
    EntriesAgree entries entries
  | [], _ => .nil
  | (key, v) :: rest, h => .cons (agrees_self v (h (key, v) List.mem_cons_self))
    (entriesAgree_self rest fun entry hentry => h entry (List.mem_cons_of_mem (key, v) hentry))

end

theorem EntriesAgree.of_mem {entries : List (String × Value)} (h : EntriesAgree entries entries)
    {entry : String × Value} (hentry : entry ∈ entries) : entry.2.Agrees entry.2 := by
  induction entries with
  | nil => cases hentry
  | cons first rest ih =>
    cases h with
    | cons hvalue hrest =>
      rcases List.mem_cons.mp hentry with rfl | hentry
      · exact hvalue
      · exact ih hrest hentry

theorem HoldsNaN.not_agrees {v : Value} (h : v.HoldsNaN) : ¬ v.Agrees v := by
  intro hself
  induction h with
  | number hx =>
    cases hself with
    | number h => exact Bool.eq_false_iff.mp (Double.beq_self_iff.mp h) hx
  | list hv _ ih =>
    cases hself with
    | list h => exact ih (List.forall₂_same.mp h _ hv)
  | vector hv _ ih =>
    cases hself with
    | vector h => exact ih (List.forall₂_same.mp h _ hv)
  | map hentry _ ih =>
    cases hself with
    | map h => exact ih (h.of_mem hentry)
  | synthNode hparam hx =>
    cases hself with
    | synthNode h => exact Bool.eq_false_iff.mp (SynthNode.beq_self_iff.mp h _ hparam) hx

/-- **A value is the same as itself** exactly if no `NaN` stands in it. -/
theorem agrees_self_iff {v : Value} : v.Agrees v ↔ ¬ v.HoldsNaN :=
  ⟨fun h hn => hn.not_agrees h, agrees_self v⟩

/-! ### Equality in the language -/

/-- The values that `=` compares. -/
def Simple : Value → Prop
  | number _ | string _ | keyword _ | boolean _ | nil => True
  | function _ | list _ | vector _ | map _ | synthNode _ => False

theorem equalValues_iff {v w : Value} :
    Operation.equalValues v w = true ↔ v.same w = true ∧ v.Simple ∧ w.Simple := by
  constructor
  · intro h
    unfold Operation.equalValues at h
    split at h
    · exact ⟨h, trivial, trivial⟩
    · exact ⟨h, trivial, trivial⟩
    · exact ⟨h, trivial, trivial⟩
    · exact ⟨h, trivial, trivial⟩
    · exact ⟨rfl, trivial, trivial⟩
    · cases h
  · rintro ⟨h, hv, -⟩
    cases agrees_of_same h with
    | number | string | keyword | boolean => exact h
    | nil => rfl
    | function | list | vector | map | synthNode => exact hv.elim

/-- **Equality of values.** What the host takes to be the same is symmetric and transitive, and fails of a value and
itself exactly where a `NaN` stands in it. `=` answers for any two values, changes nothing, and answers `true` exactly
for simple values that are the same to the host. -/
theorem same_equivalence :
    (∀ v w : Value, v.same w = true → w.same v = true) ∧
    (∀ u v w : Value, u.same v = true → v.same w = true → u.same w = true) ∧
    (∀ v : Value, v.same v = true ↔ ¬ v.HoldsNaN) ∧
    ∀ (v w : Value) (span : Span) (s : Session), ∃ b, callNative .equal [v, w] span s = .ok (.boolean b) s ∧
      (b = true ↔ v.same w = true ∧ v.Simple ∧ w.Simple) := by
  refine ⟨fun v w h => ?_, fun u v w h h' => ?_, fun v => ?_, fun v w span s => ?_⟩
  · exact same_of_agrees (agrees_of_same h).symm
  · exact same_of_agrees ((agrees_of_same h).trans (agrees_of_same h'))
  · rw [same_iff, agrees_self_iff]
  · exact ⟨Operation.equalValues v w, rfl, equalValues_iff⟩

end Value

end MusicLisp
