import MusicLisp.Proofs.Form.Nodes
import MusicLisp.Proofs.Token.Cutting

/-!
# A node and its slice

The span of a form says where in the source the form is written, for the forms of a source as for all that is in
them: the slice cut out there reads as this form alone. The parts of a form are written one after the other, between
the characters of its bracket.

* `Spells.unique`: tokens spell one form only; so tokens that were moved spell the form they spell, moved
  (`Spells.exists_shift`).
* `Spells.span_eq`, `SpellsAll.sorted`: where forms stand whose tokens stand one after the other.
* `Nested`: the parts of a form are between the characters of its bracket, in order.
* `node_reads_alone`: **every node reads alone as what it is in its source**, and its parts are nested in it.
-/

namespace MusicLisp.Form

/-! ### Tokens that were moved -/

/-- **Tokens spell one form only.** -/
theorem Spells.unique {form form' : Form} {p : List Token} (h : form.Spells p) (h' : form'.Spells p) :
    form = form' := by
  have hread : ∀ {found : Form}, found.Spells p → (TokenStream.ofTokens p).readForm.answer = .ok found :=
    fun hfound => (TokenStream.readForm_iff.mpr ⟨p, (List.append_nil p).symm, hfound⟩).1
  exact Except.ok.inj ((hread h).symm.trans (hread h'))

/-- Where tokens that were moved spell a form, the tokens before spell the form before. -/
theorem Spells.exists_shift {n : Nat} {form : Form} {q : List Token} (h : form.Spells (q.map (Token.shift n))) :
    ∃ found : Form, found.Spells q ∧ found.shift n = form := by
  have hkinds : q.map Token.kind = form.yield := by
    rw [← h.map_kind, List.map_map]
    rfl
  obtain ⟨found, hfound, -⟩ := exists_spells form hkinds
  exact ⟨found, hfound, (hfound.shift n).unique h⟩

/-! ### Forms whose tokens stand in order -/

/-- A form starts where its first token starts, and stops where its last one stops. -/
theorem Spells.span_eq {form : Form} {p : List Token} (h : form.Spells p) (hp : InOrder p) : ∃ first last,
    p.head? = some first ∧ p.getLast? = some last ∧ form.span = ⟨first.span.start, last.span.stop⟩ := by
  obtain ⟨first, last, hfirst, hlast, hspan⟩ := h.ends
  exact ⟨first, last, hfirst, hlast, hspan.trans (hp.merge_ends hfirst hlast)⟩

theorem Spelled.span_eq {ts : List Token} {form : Form} (h : Spelled ts form) (hts : InOrder ts) :
    ∃ first ∈ ts, ∃ last ∈ ts, form.span = ⟨first.span.start, last.span.stop⟩ := by
  obtain ⟨p, hp, hform⟩ := h
  obtain ⟨first, last, hfirst, hlast, hspan⟩ := hform.span_eq (hts.mono hp)
  exact ⟨first, hp.subset (List.mem_of_head? hfirst), last, hp.subset (List.mem_of_getLast? hlast), hspan⟩

/-- **Forms are written in the order of their tokens.** -/
theorem SpellsAll.sorted : ∀ {forms : List Form} {p : List Token}, SpellsAll forms p → InOrder p →
    forms.Pairwise fun form next => form.span.stop ≤ next.span.start
  | [], _, _, _ => .nil
  | form :: rest, _, ⟨q, r, hp, hq, hr⟩, hordered => by
    subst hp
    have hr' := hordered.mono (List.suffix_append q r).isInfix
    refine .cons (fun next hnext => ?_) (SpellsAll.sorted hr hr')
    have hform : Spelled q form := ⟨q, List.infix_rfl, hq⟩
    obtain ⟨_, _, last, hlast, hspan⟩ := hform.span_eq (hordered.mono (List.prefix_append q r).isInfix)
    obtain ⟨first, hfirst, _, _, hspan'⟩ := (hr.mem next hnext).span_eq hr'
    rw [hspan, hspan']
    exact (List.pairwise_append.mp hordered.sorted).2.2 last hlast first hfirst

/-! ### Parts between brackets -/

/-- **The parts of a form stand between the characters of its bracket**, which are the first and the last of it in
the source, one part after the other. -/
structure Nested (source : String) (b : Bracket) (form : Form) : Prop where
  opens : Span.Covers source b.openChar.toString ⟨form.span.start, form.span.start + 1⟩
  closes : Span.Covers source b.closeChar.toString ⟨form.span.stop - 1, form.span.stop⟩
  between : ∀ part ∈ form.parts, form.span.start + 1 ≤ part.span.start ∧ part.span.stop ≤ form.span.stop - 1
  sorted : form.parts.Pairwise fun part next => part.span.stop ≤ next.span.start

/-- Tokens in order that spell a form spell it nested, where brackets cover their characters. -/
theorem Spells.nested {source : String} {form : Form} {p : List Token} {b : Bracket} (h : form.Spells p)
    (hb : form.bracket? = some b) (hp : InOrder p)
    (hbrackets : ∀ t ∈ p, ∀ b, (t.kind = .opening b → t.span.Covers source b.openChar.toString) ∧
      (t.kind = .closing b → t.span.Covers source b.closeChar.toString)) : form.Nested source b := by
  obtain ⟨t, a, -, -, rfl⟩ | ⟨b', hb', o, q, c, rfl, ho, hc, hspan, hq⟩ := h.shape
  · cases hb
  obtain rfl := Option.some.inj (hb.symm.trans hb')
  have hc' : c ∈ o :: (q ++ [c]) := List.mem_cons_of_mem o (List.mem_append_right q List.mem_cons_self)
  have hopens := (hbrackets o List.mem_cons_self b).1 ho
  have hcloses := (hbrackets c hc' b).2 hc
  have hostop : o.span.stop = o.span.start + 1 := by
    rw [hopens.stop_eq]
    cases b <;> rfl
  have hcstart : c.span.start = c.span.stop - 1 := by
    rw [hcloses.stop_eq]
    cases b <;> rfl
  rw [hp.merge_ends rfl (by rw [← List.cons_append, List.getLast?_concat])] at hspan
  have hq' : InOrder q := hp.mono ⟨[o], [c], rfl⟩
  -- every token in the brackets stands behind the opening one and before the closing one
  obtain ⟨hbehind, hsorted⟩ := List.pairwise_cons.mp hp.sorted
  have hbefore := (List.pairwise_append.mp hsorted).2.2
  constructor
  · rw [hspan]
    exact hostop ▸ hopens
  · rw [hspan]
    exact hcstart ▸ hcloses
  · intro part hpart
    obtain ⟨first, hfirst, last, hlast, hspan'⟩ := (hq.mem part hpart).span_eq hq'
    rw [hspan, hspan', ← hostop, ← hcstart]
    exact ⟨hbehind first (List.mem_append_left [c] hfirst), hbefore last hlast c List.mem_cons_self⟩
  · exact hq.sorted hq'

/-! ### Nodes -/

/-- **Every node reads alone as what it is in its source.** The slice that its span covers reads as one form, which is
the node, moved to where it stands; and in every node with a bracket the parts are nested. -/
theorem node_reads_alone {source : String} {forms : List Form} (h : readForms source = .ok forms) {form : Form}
    (hform : Node forms form) :
    (∃ slice found, form.span.Covers source slice ∧ readForms slice = .ok [found] ∧
      found.shift form.span.start = form) ∧
    ∀ b, form.bracket? = some b → form.Nested source b := by
  obtain ⟨ts, htokens, hspelled⟩ := node_spelled h
  obtain ⟨p, hp, hspells⟩ := hspelled form hform
  have hordered := (tokenize_inOrder htokens).mono hp
  constructor
  · obtain ⟨first, last, hfirst, hlast, hspan⟩ := hspells.span_eq hordered
    obtain ⟨slice, q, hcovers, hslice, rfl⟩ := tokenize_slice htokens hp hfirst hlast
    obtain ⟨found, hfound, hshift⟩ := hspells.exists_shift
    rw [hspan]
    exact ⟨slice, found, hcovers, readForms_ok_iff.mpr ⟨q, hslice, q, [], (List.append_nil q).symm, hfound, rfl⟩, hshift⟩
  · exact fun b hb => hspells.nested hb hordered fun t ht b => tokenize_brackets htokens (hp.subset ht) b

/-- A map in a call, with a vector in it, and a comment after the call. -/
theorem node_reads_alone_map : ∃ forms form, readForms "(f \x7b:a [x]\x7d) ;é" = .ok forms ∧ Node forms form ∧
    form.span = ⟨3, 11⟩ ∧ (∃ slice found, form.span.Covers "(f \x7b:a [x]\x7d) ;é" slice ∧
      readForms slice = .ok [found] ∧ found.shift form.span.start = form) ∧
    form.Nested "(f \x7b:a [x]\x7d) ;é" .curly := by
  have hread : ∃ form : Form, form.span = ⟨3, 11⟩ ∧ form.bracket? = some .curly ∧
      readForms "(f \x7b:a [x]\x7d) ;é" = .ok [.list ⟨0, 12⟩ [.atom ⟨1, 2⟩ (.symbol "f"), form]] :=
    ⟨.map ⟨3, 11⟩ [(.atom ⟨4, 6⟩ (.keyword "a"), .vector ⟨7, 10⟩ [.atom ⟨8, 9⟩ (.symbol "x")])], rfl, rfl, by cbv⟩
  obtain ⟨form, hspan, hb, hread⟩ := hread
  have hnode : Node [.list ⟨0, 12⟩ [.atom ⟨1, 2⟩ (.symbol "f"), form]] form :=
    .item (.root List.mem_cons_self) (List.mem_cons_of_mem _ List.mem_cons_self)
  obtain ⟨halone, hnested⟩ := node_reads_alone hread hnode
  exact ⟨_, form, hread, hnode, hspan, halone, hnested .curly hb⟩

end MusicLisp.Form
