import MusicLisp.Proofs.Form.Joining
import MusicLisp.Proofs.Token.Places
import MusicLisp.Proofs.Value.Matching

/-!
# The nodes of forms

A form holds other forms: the items of a list or a vector, the keys and the values of a map. The nodes of some forms
are these forms and all that is in them.

* `Form.Closed`: a property that goes down to the parts of a form; `Form.Node` is the least such property.
* `Form.Same`, `Form.Moved`: a closed property makes a relation between forms of the same shape, of forms that are
  the same and have it, or of forms that have it and the same forms moved. To be the same up to spans is another.
* `Form.parts`, `Spells.shape`: a form is an atom, or its parts in a bracket, and so are the tokens that spell it.
  Nodes go down part by part (`node_cons`).
* `node_spelled`: the tokens that spell a node stand together in the source. The node reaches from the first of them
  to the last (`Spells.ends`).
* `Form.Placed`, `node_placed`: **every node of a source stands in it**; a symbol covers its name.
-/

namespace MusicLisp.Form

/-- **A property that goes down** to the parts of forms. -/
structure Closed (P : Form → Prop) : Prop where
  item : ∀ {span items form}, P (.list span items) → form ∈ items → P form
  element : ∀ {span items form}, P (.vector span items) → form ∈ items → P form
  key : ∀ {span entries entry}, P (.map span entries) → entry ∈ entries → P entry.1
  value : ∀ {span entries entry}, P (.map span entries) → entry ∈ entries → P entry.2

/-- **A form somewhere in some forms.** -/
inductive Node (forms : List Form) : Form → Prop
  | root {form : Form} (h : form ∈ forms) : Node forms form
  | item {span : Span} {items : List Form} {form : Form} (h : Node forms (.list span items))
    (hform : form ∈ items) : Node forms form
  | element {span : Span} {items : List Form} {form : Form} (h : Node forms (.vector span items))
    (hform : form ∈ items) : Node forms form
  | key {span : Span} {entries : List (Form × Form)} {entry : Form × Form} (h : Node forms (.map span entries))
    (hentry : entry ∈ entries) : Node forms entry.1
  | value {span : Span} {entries : List (Form × Form)} {entry : Form × Form} (h : Node forms (.map span entries))
    (hentry : entry ∈ entries) : Node forms entry.2

theorem closed_node (forms : List Form) : Closed (Node forms) where
  item := .item
  element := .element
  key := .key
  value := .value

theorem closed_true : Closed fun _ => True :=
  ⟨fun _ _ => trivial, fun _ _ => trivial, fun _ _ => trivial, fun _ _ => trivial⟩

/-- A closed property of forms is one of all their nodes. -/
theorem Closed.node {P : Form → Prop} (hP : Closed P) {forms : List Form} (hforms : ∀ form ∈ forms, P form)
    {form : Form} (h : Node forms form) : P form := by
  induction h with
  | root h => exact hforms _ h
  | item _ hform ih => exact hP.item ih hform
  | element _ hform ih => exact hP.element ih hform
  | key _ hentry ih => exact hP.key ih hentry
  | value _ hentry ih => exact hP.value ih hentry

theorem Closed.or {P Q : Form → Prop} (hP : Closed P) (hQ : Closed Q) : Closed fun form => P form ∨ Q form where
  item h hform := h.imp (hP.item · hform) (hQ.item · hform)
  element h hform := h.imp (hP.element · hform) (hQ.element · hform)
  key h hentry := h.imp (hP.key · hentry) (hQ.key · hentry)
  value h hentry := h.imp (hP.value · hentry) (hQ.value · hentry)

theorem Closed.and {P : Form → Prop} (p : Prop) (hP : Closed P) : Closed fun form => p ∧ P form where
  item h hform := ⟨h.1, hP.item h.2 hform⟩
  element h hform := ⟨h.1, hP.element h.2 hform⟩
  key h hentry := ⟨h.1, hP.key h.2 hentry⟩
  value h hentry := ⟨h.1, hP.value h.2 hentry⟩

theorem Closed.exists {ι : Sort*} {P : ι → Form → Prop} (hP : ∀ i, Closed (P i)) :
    Closed fun form => ∃ i, P i form where
  item := fun ⟨i, h⟩ hform => ⟨i, (hP i).item h hform⟩
  element := fun ⟨i, h⟩ hform => ⟨i, (hP i).element h hform⟩
  key := fun ⟨i, h⟩ hentry => ⟨i, (hP i).key h hentry⟩
  value := fun ⟨i, h⟩ hentry => ⟨i, (hP i).value h hentry⟩

/-! ### Relations of forms of the same shape -/

/-- The same form, with a property. -/
def Same (P : Form → Prop) (form form' : Form) : Prop := form' = form ∧ P form

/-- **The same form, or one with a property, moved** `n` bytes to the right. -/
def Moved (n : Nat) (P : Form → Prop) (form form' : Form) : Prop := form' = form ∨ P form ∧ form' = form.shift n

theorem matching_same {P : Form → Prop} (hP : Closed P) : Matching (Same P) where
  atom := fun ⟨h, _⟩ => ⟨_, h⟩
  list := fun ⟨h, hform⟩ => ⟨_, _, h, List.forall₂_same.mpr fun _ hitem => ⟨rfl, hP.item hform hitem⟩⟩
  vector := fun ⟨h, hform⟩ => ⟨_, _, h, List.forall₂_same.mpr fun _ hitem => ⟨rfl, hP.element hform hitem⟩⟩
  map := fun ⟨h, hform⟩ => ⟨_, _, h, List.forall₂_same.mpr fun _ hentry =>
    ⟨⟨rfl, hP.key hform hentry⟩, rfl, hP.value hform hentry⟩⟩

theorem forall₂_moved {n : Nat} {P : Form → Prop} {forms : List Form} (h : ∀ form ∈ forms, P form) :
    List.Forall₂ (Moved n P) forms (forms.map (shift n)) :=
  List.forall₂_map_right_iff.mpr (List.forall₂_same.mpr fun form hform => .inr ⟨h form hform, rfl⟩)

theorem matching_moved (n : Nat) {P : Form → Prop} (hP : Closed P) : Matching (Moved n P) where
  atom := by
    rintro span a form (rfl | ⟨-, rfl⟩)
    · exact ⟨span, rfl⟩
    · exact ⟨span.shift n, rfl⟩
  list := by
    rintro span items form (rfl | ⟨hform, rfl⟩)
    · exact ⟨span, items, rfl, List.forall₂_same.mpr fun _ _ => .inl rfl⟩
    · refine ⟨span.shift n, shifts n items, rfl, ?_⟩
      rw [shifts_eq_map]
      exact forall₂_moved fun _ hitem => hP.item hform hitem
  vector := by
    rintro span items form (rfl | ⟨hform, rfl⟩)
    · exact ⟨span, items, rfl, List.forall₂_same.mpr fun _ _ => .inl rfl⟩
    · refine ⟨span.shift n, shifts n items, rfl, ?_⟩
      rw [shifts_eq_map]
      exact forall₂_moved fun _ hitem => hP.element hform hitem
  map := by
    rintro span entries form (rfl | ⟨hform, rfl⟩)
    · exact ⟨span, entries, rfl, List.forall₂_same.mpr fun _ _ => ⟨.inl rfl, .inl rfl⟩⟩
    · refine ⟨span.shift n, entryShifts n entries, rfl, ?_⟩
      rw [entryShifts_eq_map]
      exact List.forall₂_map_right_iff.mpr (List.forall₂_same.mpr fun _ hentry =>
        ⟨.inr ⟨hP.key hform hentry, rfl⟩, .inr ⟨hP.value hform hentry, rfl⟩⟩)

theorem forall₂_of_map_eq {α β : Type} {f : α → β} {xs ys : List α} (h : xs.map f = ys.map f) :
    List.Forall₂ (fun x y => f x = f y) xs ys := by
  rw [← List.forall₂_eq_eq_eq] at h
  exact List.forall₂_map_left_iff.mp (List.forall₂_map_right_iff.mp h)

/-- **Forms that are the same up to spans** match. -/
theorem matching_bare : Matching fun form form' => form.bare = form'.bare where
  atom := by
    intro span a form h
    cases form with
    | atom span' a' =>
      obtain rfl : a = a' := (atom.inj h).2
      exact ⟨span', rfl⟩
    | list | vector | map => cases h
  list := by
    intro span items form h
    cases form with
    | list span' items' =>
      have hitems : bares items = bares items' := (list.inj h).2
      rw [bares_eq_map, bares_eq_map] at hitems
      exact ⟨span', items', rfl, forall₂_of_map_eq hitems⟩
    | atom | vector | map => cases h
  vector := by
    intro span items form h
    cases form with
    | vector span' items' =>
      have hitems : bares items = bares items' := (vector.inj h).2
      rw [bares_eq_map, bares_eq_map] at hitems
      exact ⟨span', items', rfl, forall₂_of_map_eq hitems⟩
    | atom | list | map => cases h
  map := by
    intro span entries form h
    cases form with
    | map span' entries' =>
      have hentries : entryBares entries = entryBares entries' := (map.inj h).2
      rw [entryBares_eq_map, entryBares_eq_map] at hentries
      exact ⟨span', entries', rfl, (forall₂_of_map_eq hentries).imp fun _ _ h => Prod.mk.inj h⟩
    | atom | list | vector => cases h

/-- Forms that are the same or moved have spans that are the same or moved. -/
theorem Moved.span {n : Nat} {P : Form → Prop} {form form' : Form} (h : Moved n P form form') :
    form'.span = form.span ∨ form'.span = form.span.shift n := by
  obtain rfl | ⟨-, rfl⟩ := h
  · exact .inl rfl
  · exact .inr (by cases form <;> rfl)

/-! ### The tokens of a node -/

/-- The bracket that a form stands in, if it is no atom. -/
def bracket? : Form → Option Bracket
  | atom _ _ => none
  | list _ _ => some .round
  | vector _ _ => some .square
  | map _ _ => some .curly

/-- **The parts of a form**, in source order: the items, the elements, or the keys and the values in turns. -/
def parts : Form → List Form
  | atom _ _ => []
  | list _ items => items
  | vector _ items => items
  | map _ entries => entries.flatMap fun entry => [entry.1, entry.2]

/-- A property is closed if it goes down to parts. -/
theorem closed_of_parts {P : Form → Prop} (h : ∀ {form part}, P form → part ∈ form.parts → P part) : Closed P where
  item hform hitem := h hform hitem
  element hform hitem := h hform hitem
  key hform hentry := h hform (List.mem_flatMap_of_mem hentry List.mem_cons_self)
  value hform hentry := h hform (List.mem_flatMap_of_mem hentry (List.mem_cons_of_mem _ List.mem_cons_self))

theorem Closed.part {P : Form → Prop} (hP : Closed P) {form part : Form} (h : P form) (hpart : part ∈ form.parts) :
    P part := by
  cases form with
  | atom => cases hpart
  | list => exact hP.item h hpart
  | vector => exact hP.element h hpart
  | map span entries =>
    obtain ⟨entry, hentry, hpart⟩ := List.mem_flatMap.mp hpart
    obtain rfl | hpart := List.mem_cons.mp hpart
    · exact hP.key h hentry
    · obtain rfl := List.mem_singleton.mp hpart
      exact hP.value h hentry

theorem not_node_nil {node : Form} : ¬ Node [] node :=
  fun h => (closed_of_parts fun h _ => h : Closed fun _ => False).node (List.forall_mem_nil _) h

/-- **The nodes of forms** are the first form, the nodes of its parts, and the nodes of the other forms. -/
theorem node_cons {form node : Form} {rest : List Form} :
    Node (form :: rest) node ↔ node = form ∨ Node form.parts node ∨ Node rest node := by
  constructor
  · intro h
    have hclosed : Closed fun node => node = form ∨ Node form.parts node := closed_of_parts fun h hpart =>
      .inr (h.elim (fun heq => .root (heq ▸ hpart)) fun h => (closed_node _).part h hpart)
    have hforms : ∀ root ∈ form :: rest, (root = form ∨ Node form.parts root) ∨ Node rest root :=
      List.forall_mem_cons.mpr ⟨.inl (.inl rfl), fun root hroot => .inr (.root hroot)⟩
    exact or_assoc.mp ((hclosed.or (closed_node rest)).node hforms h)
  · have hnode := closed_node (form :: rest)
    have hform : Node (form :: rest) form := .root List.mem_cons_self
    rintro (rfl | h | h)
    · exact hform
    · exact hnode.node (fun part hpart => hnode.part hform hpart) h
    · exact hnode.node (fun root hroot => .root (List.mem_cons_of_mem _ hroot)) h

theorem SpellsEntries.spellsAll : ∀ {entries : List (Form × Form)} {p : List Token}, SpellsEntries entries p →
    SpellsAll (entries.flatMap fun entry => [entry.1, entry.2]) p
  | [], _, h => h
  | (_, _) :: _, _, ⟨q, r, u, hp, hq, hr, hu⟩ => ⟨q, r ++ u, hp, hq, r, u, rfl, hr, SpellsEntries.spellsAll hu⟩

/-- **What spells a form**: one token if it is an atom, and otherwise its bracket around what spells its parts. -/
theorem Spells.shape {form : Form} {p : List Token} (h : form.Spells p) :
    (∃ t a, p = [t] ∧ t.kind = .atom a ∧ form = .atom t.span a) ∨
      ∃ b, form.bracket? = some b ∧ Bracketed b form.span (SpellsAll form.parts) p := by
  cases form with
  | atom span a =>
    obtain ⟨t, hp, hkind, rfl⟩ := h
    exact .inl ⟨t, a, hp, hkind, rfl⟩
  | list | vector => exact .inr ⟨_, rfl, h⟩
  | map span entries =>
    obtain ⟨o, q, c, hp, ho, hc, hspan, hq⟩ := h
    exact .inr ⟨_, rfl, o, q, c, hp, ho, hc, hspan, SpellsEntries.spellsAll hq⟩

/-- Some tokens that stand together among these spell the form. -/
def Spelled (ts : List Token) (form : Form) : Prop := ∃ p, p <:+: ts ∧ form.Spells p

theorem Spelled.mono {ts us : List Token} {form : Form} (h : Spelled ts form) (hts : ts <:+: us) : Spelled us form := by
  obtain ⟨p, hp, hform⟩ := h
  exact ⟨p, hp.trans hts, hform⟩

theorem SpellsAll.mem : ∀ {forms : List Form} {p : List Token}, SpellsAll forms p →
    ∀ form ∈ forms, Spelled p form
  | form :: rest, _, ⟨q, r, hp, hq, hr⟩, _, h => by
    subst hp
    obtain rfl | hmem := List.mem_cons.mp h
    · exact ⟨q, (List.prefix_append q r).isInfix, hq⟩
    · exact (SpellsAll.mem hr _ hmem).mono (List.suffix_append q r).isInfix

theorem Spelled.part {ts : List Token} {form part : Form} (h : Spelled ts form) (hpart : part ∈ form.parts) :
    Spelled ts part := by
  obtain ⟨p, hp, hform⟩ := h
  obtain ⟨t, a, -, -, rfl⟩ | ⟨b, -, o, q, c, rfl, -, -, -, hq⟩ := hform.shape
  · cases hpart
  · exact (hq.mem part hpart).mono (List.IsInfix.trans ⟨[o], [c], rfl⟩ hp)

theorem closed_spelled (ts : List Token) : Closed (Spelled ts) := closed_of_parts fun h hpart => h.part hpart

/-- **Every node of a source is spelled** by tokens that stand together. -/
theorem node_spelled {source : String} {forms : List Form} (h : readForms source = .ok forms) :
    ∃ ts, tokenize source = .ok (ts ++ [⟨.endOfInput, .point source.utf8ByteSize⟩]) ∧
      ∀ form, Node forms form → Spelled ts form := by
  obtain ⟨ts, htokens, hspells⟩ := readForms_ok_iff.mp h
  exact ⟨ts, htokens, fun form hform => (closed_spelled ts).node hspells.mem hform⟩

/-- A form reaches from the first of the tokens that spell it to the last. -/
theorem Spells.ends {form : Form} {p : List Token} (h : form.Spells p) : ∃ first last,
    p.head? = some first ∧ p.getLast? = some last ∧ form.span = first.span.merge last.span := by
  obtain ⟨t, a, rfl, -, rfl⟩ | ⟨b, -, o, q, c, rfl, -, -, hspan, -⟩ := h.shape
  · exact ⟨t, t, rfl, rfl, (Span.merge_self _).symm⟩
  · exact ⟨o, c, rfl, by rw [← List.cons_append, List.getLast?_concat], hspan⟩

/-! ### Nodes in their source -/

/-- **Where a form stands**: it covers some bytes of the source, and a symbol covers its name. -/
structure Placed (source : String) (form : Form) : Prop where
  inside : form.span.Inside source.utf8ByteSize
  named : ∀ name, form.symbol? = some name → form.span.Covers source name

/-- **Every node of a source stands in it.** -/
theorem node_placed {source : String} {forms : List Form} (h : readForms source = .ok forms) {form : Form}
    (hform : Node forms form) : form.Placed source := by
  obtain ⟨ts, htokens, hspelled⟩ := node_spelled h
  obtain ⟨ts', heq, -, hplaced⟩ := tokenize_places htokens
  obtain rfl := List.append_cancel_right heq
  obtain ⟨p, hp, hform⟩ := hspelled form hform
  obtain ⟨t, u, ht, hu, hspan⟩ := hform.ends
  have htp := hplaced t (hp.subset (List.mem_of_head? ht))
  have hup := hplaced u (hp.subset (List.mem_of_getLast? hu))
  refine ⟨hspan ▸ htp.inside.merge hup.inside.bound, fun name hname => ?_⟩
  obtain ⟨t, a, rfl, hkind, rfl⟩ | ⟨b, hb, -⟩ := hform.shape
  · cases a with
    | symbol name' =>
      cases hname
      exact (hplaced t (hp.subset List.mem_cons_self)).named name hkind
    | number | string | keyword => cases hname
  · cases form with
    | atom => cases hb
    | list | vector | map => cases hname

end MusicLisp.Form
