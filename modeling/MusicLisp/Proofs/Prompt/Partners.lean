import MusicLisp.Proofs.Form.Nodes
import MusicLisp.Proofs.Prompt.Roles

/-!
# Partners

The prompt pairs the brackets of a line with a stack, character by character; the reader pairs them by the forms that
it reads, in bytes. On a line that can be read, and where no line ends behind a comment, both find the same pairs.

* `Balanced`: marks that fit, with the pairs of their places. They leave the stack as it is, and each pair is lit or
  not by itself (`Balanced.settle_eq`). Places that differ are in one pair at most (`Balanced.eq_of_mem`).
* `fits_of_spells`: the tokens that spell some forms fit, and their pairs are the ends of the bracketed nodes.
* `Cut.marks_eq`: the marks of the shaded text are the brackets among its tokens.
* `highlight_partners`: **the prompt lights the brackets of one node**.
-/

namespace MusicLisp

open Lexeme

/-! ### Balanced marks -/

/-- **Marks that fit**, and the pairs of their places, the inner pairs first. -/
inductive Balanced {ι : Type} : List (Mark ι) → List (ι × ι) → Prop
  | nil : Balanced [] []
  | pair (b : Bracket) (start stop : ι) {inner rest : List (Mark ι)} {ps qs : List (ι × ι)}
    (hinner : Balanced inner ps) (hrest : Balanced rest qs) :
    Balanced (.opening b start :: (inner ++ .closing b stop :: rest)) (ps ++ (start, stop) :: qs)

namespace Balanced

/-- **Marks that fit leave the stack as it is**, and each pair is painted by itself. -/
theorem settle_eq {ms : List (Mark Nat)} {ps : List (Nat × Nat)} (h : Balanced ms ps) (cursor : Option Nat)
    (stack : List (Bracket × Nat)) : settle cursor stack ms = (stack, ps.flatMap (lit cursor)) := by
  induction h generalizing stack with
  | nil => rfl
  | pair b start stop _ _ ihinner ihrest =>
    rw [settle, settle_append, Mark.settle]
    dsimp only
    rw [ihinner, settle, Mark.settle]
    dsimp only
    rw [ihrest, if_pos rfl, List.flatMap_append, List.flatMap_cons]
    rfl

variable {ι κ : Type} {ms : List (Mark ι)} {ps : List (ι × ι)}

/-- Marks that fit at other places fit where they are. -/
theorem of_map {f : ι → κ} {ps : List (κ × κ)} (h : Balanced (ms.map (Mark.map f)) ps) :
    ∃ qs, Balanced ms qs ∧ ps = qs.map (Prod.map f f) := by
  generalize hns : ms.map (Mark.map f) = ns at h
  induction h generalizing ms with
  | nil =>
    obtain rfl := List.map_eq_nil_iff.mp hns
    exact ⟨[], .nil, rfl⟩
  | @pair b start stop inner rest ps qs _ _ ihinner ihrest =>
    obtain ⟨o, ms, rfl, ho, hms⟩ := List.map_eq_cons_iff.mp hns
    obtain ⟨inner', ms, rfl, hinner, hms⟩ := List.map_eq_append_iff.mp hms
    obtain ⟨c, rest', rfl, hc, hrest⟩ := List.map_eq_cons_iff.mp hms
    obtain ⟨ps', hps, rfl⟩ := ihinner hinner
    obtain ⟨qs', hqs, rfl⟩ := ihrest hrest
    cases o with
    | closing => cases ho
    | opening =>
      cases c with
      | opening => cases hc
      | closing =>
        cases ho
        cases hc
        exact ⟨_, .pair b _ _ hps hqs, by rw [List.map_append]; rfl⟩

/-- The places of marks that fit are those of the pairs. -/
theorem perm (h : Balanced ms ps) : (ps.flatMap fun p => [p.1, p.2]).Perm (ms.map Mark.place) := by
  induction h with
  | nil => exact .nil
  | @pair b start stop inner rest ps qs _ _ ihinner ihrest =>
    rw [List.flatMap_append, List.flatMap_cons, List.map_cons, List.map_append, List.map_cons]
    exact List.perm_middle.trans ((ihinner.append (ihrest.cons stop)).cons start)

/-- **A place is in one pair** at most, if no two marks have the same place. -/
theorem eq_of_mem (h : Balanced ms ps) (hms : (ms.map Mark.place).Nodup) {p q : ι × ι} (hp : p ∈ ps) (hq : q ∈ ps)
    {i : ι} (hip : i ∈ [p.1, p.2]) (hiq : i ∈ [q.1, q.2]) : p = q := by
  obtain ⟨-, hdisjoint⟩ := List.nodup_flatMap.mp (h.perm.nodup_iff.mpr hms)
  have : Std.Symm (Function.onFun List.Disjoint fun p : ι × ι => [p.1, p.2]) := ⟨fun _ _ h => h.symm⟩
  by_contra hne
  exact hdisjoint.forall hp hq hne hip hiq

theorem fst_ne_snd (h : Balanced ms ps) (hms : (ms.map Mark.place).Nodup) {p : ι × ι} (hp : p ∈ ps) : p.1 ≠ p.2 := by
  have hpair := (List.nodup_flatMap.mp (h.perm.nodup_iff.mpr hms)).1 p hp
  exact fun heq => (List.nodup_cons.mp hpair).1 (List.mem_singleton.mpr heq)

end Balanced

/-! ### The brackets of nodes -/

namespace Form

/-- **The ends of a form in brackets**: where it starts, and where its last byte stands. -/
def Ends (form : Form) (pair : Nat × Nat) : Prop :=
  form.bracket? ≠ none ∧ form.span.start = pair.1 ∧ form.span.stop = pair.2 + 1

end Form

/-- The mark that a token is. -/
def Token.mark? (t : Token) : Option (Mark Nat) :=
  match t.kind with
  | .opening b => some (.opening b t.span.start)
  | .closing b => some (.closing b t.span.start)
  | _ => none

theorem Form.Ends.eq_iff {form : Form} {pair p : Nat × Nat} (h : form.Ends pair) : form.Ends p ↔ p = pair := by
  obtain ⟨hbracket, hstart, hstop⟩ := h
  constructor
  · rintro ⟨-, hstart', hstop'⟩
    exact Prod.ext (by omega) (by omega)
  · rintro rfl
    exact ⟨hbracket, hstart, hstop⟩

/-- A form in brackets ends at the brackets. -/
theorem ends_of_bracketed {b : Bracket} {form : Form} {o c : Token} {q : List Token} (hb : form.bracket? = some b)
    (hspan : form.span = o.span.merge c.span) (hts : InOrder (o :: (q ++ [c])))
    (hc : c.span.stop = c.span.start + 1) : form.Ends (o.span.start, c.span.start) := by
  have hmerge : o.span.merge c.span = ⟨o.span.start, c.span.stop⟩ :=
    hts.merge_ends rfl (by rw [← List.cons_append, List.getLast?_concat])
  refine ⟨by rw [hb]; rintro ⟨⟩, ?_, ?_⟩
  · rw [hspan, hmerge]
  · rw [hspan, hmerge]
    exact hc

/-- **The marks of the tokens fit**, and their pairs are the ends of the nodes in brackets. -/
def Fits (forms : List Form) (ts : List Token) : Prop :=
  ∃ ps, Balanced (ts.filterMap Token.mark?) ps ∧ ∀ p, p ∈ ps ↔ ∃ node, Form.Node forms node ∧ node.Ends p

namespace Fits

theorem nil : Fits [] [] := by
  refine ⟨[], .nil, fun p => iff_of_false List.not_mem_nil ?_⟩
  rintro ⟨node, hnode, -⟩
  exact Form.not_node_nil hnode

variable {form : Form} {rest : List Form} {r : List Token} (hr : Fits rest r)
include hr

theorem atom {t : Token} {a : Atom} (hkind : t.kind = .atom a) : Fits (.atom t.span a :: rest) (t :: r) := by
  obtain ⟨ps, hps, hmem⟩ := hr
  have hmark : t.mark? = none := by rw [Token.mark?, hkind]
  refine ⟨ps, by rwa [List.filterMap_cons_none hmark], fun p => (hmem p).trans ?_⟩
  constructor
  · rintro ⟨node, hnode, hends⟩
    exact ⟨node, Form.node_cons.mpr (.inr (.inr hnode)), hends⟩
  · rintro ⟨node, hnode, hends⟩
    obtain rfl | hnode | hnode := Form.node_cons.mp hnode
    · exact absurd rfl hends.1
    · exact absurd hnode Form.not_node_nil
    · exact ⟨node, hnode, hends⟩

theorem bracketed {b : Bracket} {o c : Token} {q : List Token} (hq : Fits form.parts q) (ho : o.kind = .opening b)
    (hc : c.kind = .closing b) (hends : form.Ends (o.span.start, c.span.start)) :
    Fits (form :: rest) (o :: (q ++ [c]) ++ r) := by
  obtain ⟨ps, hps, hmemp⟩ := hq
  obtain ⟨qs, hqs, hmemq⟩ := hr
  have hopening : o.mark? = some (.opening b o.span.start) := by rw [Token.mark?, ho]
  have hclosing : c.mark? = some (.closing b c.span.start) := by rw [Token.mark?, hc]
  refine ⟨ps ++ (o.span.start, c.span.start) :: qs, ?_, fun p => ?_⟩
  · rw [List.cons_append, List.append_assoc, List.singleton_append, List.filterMap_cons_some hopening,
      List.filterMap_append, List.filterMap_cons_some hclosing]
    exact .pair b o.span.start c.span.start hps hqs
  · rw [List.mem_append, List.mem_cons, hmemp, hmemq]
    constructor
    · rintro (⟨node, hnode, hp⟩ | rfl | ⟨node, hnode, hp⟩)
      · exact ⟨node, Form.node_cons.mpr (.inr (.inl hnode)), hp⟩
      · exact ⟨form, Form.node_cons.mpr (.inl rfl), hends⟩
      · exact ⟨node, Form.node_cons.mpr (.inr (.inr hnode)), hp⟩
    · rintro ⟨node, hnode, hp⟩
      obtain rfl | hnode | hnode := Form.node_cons.mp hnode
      · exact .inr (.inl (hends.eq_iff.mp hp))
      · exact .inl ⟨node, hnode, hp⟩
      · exact .inr (.inr ⟨node, hnode, hp⟩)

end Fits

/-- **The tokens that spell forms fit.** By induction on their number, form by form. -/
theorem fits_of_spells {forms : List Form} {ts : List Token} (h : Form.SpellsAll forms ts) (hts : InOrder ts)
    (hclosing : ∀ t ∈ ts, ∀ b, t.kind = .closing b → t.span.stop = t.span.start + 1) : Fits forms ts := by
  induction hn : ts.length using Nat.strong_induction_on generalizing forms ts with
  | _ n ih =>
    have hpart {forms : List Form} {us : List Token} (hus : us <:+: ts) (hlt : us.length < ts.length)
        (h : Form.SpellsAll forms us) : Fits forms us :=
      ih us.length (hn ▸ hlt) h (hts.mono hus) (fun t ht => hclosing t (hus.subset ht)) rfl
    cases forms with
    | nil =>
      obtain rfl : ts = [] := h
      exact .nil
    | cons form rest =>
      obtain ⟨q, r, rfl, hq, hr⟩ := h
      obtain ⟨t, a, rfl, hkind, rfl⟩ | ⟨b, hb, o, u, c, rfl, ho, hc, hspan, hu⟩ := hq.shape
      · have hrest := hpart (List.suffix_append _ r).isInfix (by simp) hr
        exact hrest.atom hkind
      · have hrest := hpart (List.suffix_append _ r).isInfix (by simp; omega) hr
        have hinner : u <:+: o :: (u ++ [c]) ++ r := ⟨[o], c :: r, by simp⟩
        have hparts := hpart hinner (by simp) hu
        have hform : o :: (u ++ [c]) <:+: o :: (u ++ [c]) ++ r := (List.prefix_append _ r).isInfix
        exact hrest.bracketed hparts ho hc
          (ends_of_bracketed hb hspan (hts.mono hform) (hclosing c (hform.subset (by simp)) b hc))

/-! ### The marks of a text -/

/-- Marks that stand further on. -/
theorem marks_add (n k : Nat) (cells : List Cell) : marks (n + k) cells = (marks k cells).map (Mark.map (n + ·)) := by
  induction cells generalizing k with
  | nil => rfl
  | cons cell cells ih =>
    have hmark : cell.mark? (n + k) = (cell.mark? k).map (Mark.map (n + ·)) := by
      unfold Cell.mark? Mark.ofChar?
      repeat' split
      all_goals rfl
    rw [marks, marks, List.map_append, Nat.add_assoc, ih, hmark]
    cases cell.mark? k <;> rfl

/-- The places of marks go up. -/
theorem sorted_marks (k : Nat) (cells : List Cell) : (marks k cells).Pairwise fun m n => m.place < n.place := by
  induction cells generalizing k with
  | nil => exact .nil
  | cons cell cells ih =>
    rw [marks]
    cases hmark : cell.mark? k with
    | none => exact ih (k + 1)
    | some m =>
      refine List.pairwise_cons.mpr ⟨fun n hn => ?_, ih (k + 1)⟩
      obtain ⟨i, -, hplace, -⟩ := mem_marks hn
      have hm := Cell.place_of_mark? hmark
      omega

/-- The character is no bracket. -/
def NoBracket (c : Char) : Prop := Bracket.ofOpenChar? c = none ∧ Bracket.ofCloseChar? c = none

theorem noBracket_of_isBlank {c : Char} (h : isBlank c = true) : NoBracket c := by
  simp only [isBlank, Bool.or_eq_true, decide_eq_true_eq] at h
  rcases h with (((rfl | rfl) | rfl) | rfl) | rfl <;> exact ⟨rfl, rfl⟩

/-- Cells that are no marks. -/
theorem marks_eq_nil {k : Nat} {cells : List Cell} (h : ∀ cell ∈ cells, cell.color = none → NoBracket cell.char) :
    marks k cells = [] := by
  refine List.eq_nil_iff_forall_not_mem.mpr fun m hm => ?_
  obtain ⟨i, cell, -, hcell, hcolor, hmark⟩ := mem_marks hm
  obtain ⟨hopen, hclose⟩ := h cell (List.mem_of_getElem? hcell) hcolor
  rw [Mark.ofChar?, hopen, hclose] at hmark
  cases hmark

/-- The marks of a piece, and of the text behind it. -/
theorem map_marks_append (offset : Nat) {p : List Char} {a : List Cell} (ha : a.length = p.length) (cs : List Char)
    (b : List Cell) : (marks 0 (a ++ b)).map (Mark.map (placeAt offset (p ++ cs))) =
      (marks 0 a).map (Mark.map (placeAt offset (p ++ cs))) ++
        (marks 0 b).map (Mark.map (placeAt (offset + byteLength p) cs)) := by
  have hcomp : Mark.map (placeAt offset (p ++ cs)) ∘ Mark.map (p.length + ·) =
      Mark.map (placeAt (offset + byteLength p) cs) := by
    funext m
    cases m <;> simp only [Function.comp, Mark.map, placeAt_append_right]
  have hbehind : marks p.length b = (marks 0 b).map (Mark.map (p.length + ·)) := marks_add p.length 0 b
  rw [marks_append, List.map_append, Nat.zero_add, ha, hbehind, List.map_map, hcomp]

/-- A lexeme is a mark if it is a bracket. -/
theorem Piece.Front.map_marks {c : Char} {cs : List Char} {kind : TokenKind} {n : Nat} (h : Front c cs kind n)
    {span : Span} {f : Nat → Nat} (hspan : f 0 = span.start) :
    (marks 0 ((c :: cs.take n).map (Cell.mk · kind.shade))).map (Mark.map f) = (Token.mark? ⟨kind, span⟩).toList := by
  unfold Token.mark?
  rw [← hspan]
  have hnone (shade : Option Color) (h : shade = none → ∀ d ∈ c :: cs.take n, NoBracket d) :
      (marks 0 ((c :: cs.take n).map (Cell.mk · shade))).map (Mark.map f) = [] := by
    rw [marks_eq_nil (List.forall_mem_map.mpr fun d hd hshade => h hshade d hd)]
    rfl
  cases h with
  | opening b hc =>
    subst hc
    cases b <;> rfl
  | closing b hc =>
    subst hc
    cases b <;> rfl
  | number hc =>
    have htail := (numberTail_take cs).forall_mem (P := NoBracket) (fun hd => (inner_of_isDigit hd).2.2) ⟨rfl, rfl⟩
    exact hnone none fun _ => List.forall_mem_cons.mpr ⟨hc.inner.2.2, htail⟩
  | symbol hc =>
    have hhead : Inner c := by
      obtain hstart | rfl := hc
      · exact inner_of_startsSymbol hstart
      · exact inner_minus
    have htail : ∀ d ∈ cs.take (run isSymbolChar cs), NoBracket d := fun d hd =>
      (inner_of_class rfl (forall_mem_take_run isSymbolChar cs d hd)).2.2
    exact hnone none fun _ => List.forall_mem_cons.mpr ⟨hhead.2.2, htail⟩
  | keyword => exact hnone (some .yellow) (by rintro ⟨⟩)
  | string => exact hnone (some .green) (by rintro ⟨⟩)

/-- **The marks of a text are the brackets among its tokens**, if no line ends behind a comment. -/
theorem Cut.marks_eq {offset : Nat} {cs : List Char} {ts : List Token} (h : Cut offset cs ts)
    (hends : ∀ i, ¬ EndsComment offset cs ts i) :
    (marks 0 (Mode.plain.shaded cs)).map (Mark.map (placeAt offset cs)) = ts.filterMap Token.mark? := by
  induction h with
  | mark offset => rfl
  | @gap offset n c cs ts hfront hrest ih =>
    have hsplit : c :: cs = c :: cs.take n ++ cs.drop n := by rw [List.cons_append, List.take_append_drop]
    obtain ⟨hc, rfl⟩ | ⟨rfl, rfl⟩ := front_gap hfront
    · have hblank : ∀ d ∈ c :: cs.take (run isBlank cs), isBlank d = true :=
        List.forall_mem_cons.mpr ⟨hc, forall_mem_take_run isBlank cs⟩
      have hlead : Leads offset (c :: cs.take (run isBlank cs)) ts ts := leads_blanks hblank ts
      have hnone : marks 0 ((c :: cs.take (run isBlank cs)).map (Cell.mk · none)) = [] :=
        marks_eq_nil (List.forall_mem_map.mpr fun d hd _ => noBracket_of_isBlank (hblank d hd))
      rw [hsplit] at hends ⊢
      rw [Mode.shaded_quiet fun d hd => Mode.quiet_of_class rfl (hblank d hd), map_marks_append offset (List.length_map _),
        hnone, ih fun i hi => hends _ (hlead.endsComment_iff.mpr hi)]
      rfl
    · obtain ⟨line, rest, rfl, hline, hend⟩ := commentTail_cases cs
      have hgray : Mode.plain.shaded (';' :: (line ++ rest)) = (';' :: (line ++ rest)).map (Cell.mk · (some .gray)) :=
        congrArg (List.cons _) (Mode.shaded_comment _)
      rw [hgray, marks_eq_nil (List.forall_mem_map.mpr fun d _ hshade => by cases hshade)]
      have hle := hrest.le_start
      obtain ⟨rfl, hn⟩ | ⟨r, rfl, hn⟩ := hend
      · rw [hn, List.append_nil, List.drop_length] at hrest
        cases hrest
        rfl
      · rw [hn, List.take_length_add_append, ← List.cons_append, byteLength_append, ← Nat.add_assoc] at hle
        have hnext : ∀ d, ('\n' :: r).head? = some d → d = '\n' := by
          rintro d ⟨⟩
          rfl
        have hcomment := shows_comment hline (fun t ht => Nat.le_of_add_right_le (hle t ht)) hnext
        exact absurd (hcomment.first.ends (by simp)) (hends _)
  | @token offset n c cs kind ts hfront hrest ih =>
    have hsplit : c :: cs = c :: cs.take n ++ cs.drop n := by rw [List.cons_append, List.take_append_drop]
    have hfront := Piece.front_of_eq hfront
    have hlead : Leads offset (c :: cs.take n) ts (⟨kind, offset, offset + byteLength (c :: cs.take n)⟩ :: ts) :=
      leads_token rfl ts
    rw [hsplit] at hends
    rw [List.filterMap_eq_flatMap_toList, List.flatMap_cons, ← List.filterMap_eq_flatMap_toList, hfront.shaded, hsplit,
      map_marks_append offset (List.length_map _), ih fun i hi => hends _ (hlead.endsComment_iff.mpr hi)]
    exact congrArg (· ++ _) (hfront.map_marks rfl)

/-! ### The brackets at the cursor -/

/-- Characters at different indices stand at different bytes. -/
theorem placeAt_inj {cs : List Char} {i j : Nat} (hi : i < cs.length) (hj : j < cs.length)
    (h : placeAt 0 cs i = placeAt 0 cs j) : i = j := by
  have hlt {i j : Nat} (hij : i < j) (hj : j < cs.length) : placeAt 0 cs i < placeAt 0 cs j := by
    have htake : i < (cs.take j).length := by rw [List.length_take]; omega
    have hplace := placeAt_lt htake 0
    rwa [← placeAt_append_left htake 0 (cs.drop j), List.take_append_drop] at hplace
  obtain hij | rfl | hij := Nat.lt_trichotomy i j
  · exact absurd h (Nat.ne_of_lt (hlt hij hj))
  · rfl
  · exact absurd h.symm (Nat.ne_of_lt (hlt hij hi))

/-- **A bracket of a form** stands at the index: the form is in brackets, and starts or ends with it. -/
def Form.BracketAt (line : String) (form : Form) (i : Nat) : Prop :=
  form.bracket? ≠ none ∧ i < line.toList.length ∧
    (placeAt 0 line.toList i = form.span.start ∨ placeAt 0 line.toList i + 1 = form.span.stop)

theorem Form.Ends.bracketAt_iff {line : String} {form : Form} {p : Nat × Nat} (hfst : p.1 < line.toList.length)
    (hsnd : p.2 < line.toList.length) (h : form.Ends (Prod.map (placeAt 0 line.toList) (placeAt 0 line.toList) p))
    (i : Nat) : form.BracketAt line i ↔ i ∈ [p.1, p.2] := by
  obtain ⟨hbracket, hstart, hstop⟩ := h
  rw [List.mem_pair]
  constructor
  · rintro ⟨-, hi, hplace⟩
    rw [hstart, hstop, Nat.add_right_cancel_iff] at hplace
    exact hplace.imp (placeAt_inj hi hfst) (placeAt_inj hi hsnd)
  · rintro (rfl | rfl)
    · exact ⟨hbracket, hfst, .inl hstart.symm⟩
    · exact ⟨hbracket, hsnd, .inr hstop.symm⟩

/-- **The pairs of the brackets of a line**, by index: the prompt paints them and no other brackets, a bracket is in one
pair at most, and they are the brackets of the nodes. -/
structure Pairs (line : String) (forms : List Form) (ps : List (Nat × Nat)) : Prop where
  painted : ∀ pos, shown line pos = paint (ps.flatMap (lit (cursorAt pos))) (Mode.plain.shaded line.toList)
  fst_ne_snd : ∀ p ∈ ps, p.1 ≠ p.2
  eq_of_mem : ∀ p ∈ ps, ∀ q ∈ ps, ∀ i, i ∈ [p.1, p.2] → i ∈ [q.1, q.2] → p = q
  node : ∀ p ∈ ps, ∃ node, Form.Node forms node ∧ ∀ i, node.BracketAt line i ↔ i ∈ [p.1, p.2]
  pair : ∀ node, Form.Node forms node → node.bracket? ≠ none →
    ∃ p ∈ ps, ∀ i, node.BracketAt line i ↔ i ∈ [p.1, p.2]

/-- **A line that can be read** has such pairs, if no line in it ends behind a comment. -/
theorem exists_pairs {line : String} {forms : List Form} (h : readForms line = .ok forms)
    (hends : ∀ ts, tokenize line = .ok ts → ∀ i, ¬ EndsComment 0 line.toList ts i) : ∃ ps, Pairs line forms ps := by
  obtain ⟨ts, htokens, hspells⟩ := readForms_ok_iff.mp h
  have hclosing : ∀ t ∈ ts, ∀ b, t.kind = .closing b → t.span.stop = t.span.start + 1 := by
    intro t ht b hkind
    rw [((tokenize_brackets htokens ht b).2 hkind).stop_eq]
    cases b <;> rfl
  obtain ⟨qs, hqs, hmem⟩ := fits_of_spells hspells (tokenize_inOrder htokens) hclosing
  have hmarks := (tokenize_ok_iff.mp htokens).marks_eq (hends _ htokens)
  rw [List.filterMap_append] at hmarks
  have hmark : [Token.mk .endOfInput (.point line.utf8ByteSize)].filterMap Token.mark? = [] := rfl
  rw [hmark, List.append_nil] at hmarks
  rw [← hmarks] at hqs
  obtain ⟨ps, hps, rfl⟩ := hqs.of_map
  have hnodup : ((marks 0 (Mode.plain.shaded line.toList)).map Mark.place).Nodup :=
    List.pairwise_map.mpr ((sorted_marks 0 _).imp Nat.ne_of_lt)
  have hlt : ∀ p ∈ ps, ∀ i ∈ [p.1, p.2], i < line.toList.length := by
    intro p hp i hi
    obtain ⟨m, hm, rfl⟩ := List.mem_map.mp (hps.perm.subset (List.mem_flatMap_of_mem hp hi))
    obtain ⟨j, cell, hplace, hcell, -⟩ := mem_marks hm
    rw [hplace, Nat.zero_add, ← Mode.length_shaded .plain]
    exact (List.getElem?_eq_some_iff.mp hcell).1
  have hbrackets {node : Form} {p : Nat × Nat} (hp : p ∈ ps)
      (hnode : node.Ends (Prod.map (placeAt 0 line.toList) (placeAt 0 line.toList) p)) (i : Nat) :
      node.BracketAt line i ↔ i ∈ [p.1, p.2] :=
    hnode.bracketAt_iff (hlt p hp _ List.mem_cons_self) (hlt p hp _ (List.mem_cons_of_mem _ List.mem_cons_self)) i
  refine ⟨ps, fun pos => ?_, fun p hp => hps.fst_ne_snd hnodup hp,
    fun p hp q hq i => hps.eq_of_mem hnodup hp hq, fun p hp => ?_, fun node hnode hbracket => ?_⟩
  · rw [shown_eq, hps.settle_eq]
  · obtain ⟨node, hnode, hp'⟩ := (hmem _).mp (List.mem_map_of_mem hp)
    exact ⟨node, hnode, hbrackets hp hp'⟩
  · have hpos := (Form.node_placed h hnode).inside.nonempty
    have hnodeEnds : node.Ends (node.span.start, node.span.stop - 1) := ⟨hbracket, rfl, by dsimp only; omega⟩
    obtain ⟨p, hp, heq⟩ := List.mem_map.mp ((hmem _).mpr ⟨node, hnode, hnodeEnds⟩)
    exact ⟨p, hp, hbrackets hp (heq ▸ hnodeEnds)⟩

/-- The color of brackets that fit, with the cursor on one of them. -/
def Color.IsBlue (color : Option Color) : Prop := color = some .blue ∨ color = some .boldBlue

/-- The color of brackets that do not fit. -/
def Color.IsRed (color : Option Color) : Prop := color = some .red ∨ color = some .boldRed

theorem cursorAt_eq_some {pos i : Nat} : cursorAt pos = some i ↔ pos = i + 1 := by
  cases pos <;> simp [cursorAt]

/-- The cursor is on a bracket of the pair. -/
def AtCursor (pos : Nat) (p : Nat × Nat) : Prop := ∃ cursor ∈ [p.1, p.2], pos = cursor + 1

theorem exists_mem_lit {pos i : Nat} {p : Nat × Nat} :
    (∃ color, (i, color) ∈ lit (cursorAt pos) p) ↔ AtCursor pos p ∧ i ∈ [p.1, p.2] := by
  have hcursor : AtCursor pos p ↔ cursorAt pos = some p.1 ∨ cursorAt pos = some p.2 := by
    simp only [AtCursor, List.mem_pair, exists_eq_or_imp, exists_eq_left, cursorAt_eq_some]
  rw [hcursor, List.mem_pair]
  unfold lit
  split
  · next hlit =>
    simp only [List.mem_pair, Prod.mk.injEq, exists_or, exists_and_left, exists_eq, and_true, hlit, true_and]
    exact or_comm
  · next hlit => simp [hlit]

theorem isBlue_of_mem_lit {cursor : Option Nat} {p : Nat × Nat} {i : Nat} {color : Color}
    (h : (i, color) ∈ lit cursor p) : Color.IsBlue (some color) := by
  unfold lit at h
  split at h
  · rw [List.mem_pair] at h
    obtain ⟨-, rfl⟩ | ⟨-, rfl⟩ := h.imp Prod.mk.inj Prod.mk.inj
    · exact .inl rfl
    · exact .inr rfl
  · cases h

namespace Pairs

variable {line : String} {forms : List Form} {ps : List (Nat × Nat)} (h : Pairs line forms ps) {pos i : Nat} {cell : Cell}
  (hcell : (shown line pos)[i]? = some cell)
include h hcell

theorem cases_color : Color.IsBlue cell.color ∧ (∃ p ∈ ps, AtCursor pos p ∧ i ∈ [p.1, p.2]) ∨
    (¬ Color.IsBlue cell.color ∧ ¬ Color.IsRed cell.color) ∧ ∀ p ∈ ps, AtCursor pos p → i ∉ [p.1, p.2] := by
  rw [h.painted] at hcell
  obtain ⟨hne, hshade⟩ | ⟨color, hmem, hcolor, -⟩ := paint_cases hcell
  · refine .inr ⟨?_, fun p hp hcursor hi => ?_⟩
    · constructor <;> rintro (hcolor | hcolor) <;>
        obtain hcolor | hcolor | hcolor := Mode.eq_of_shaded hshade hcolor <;> cases hcolor
    · obtain ⟨color, hmem⟩ := exists_mem_lit.mpr ⟨hcursor, hi⟩
      exact hne _ (List.mem_flatMap_of_mem hp hmem) rfl
  · obtain ⟨p, hp, hlit⟩ := List.mem_flatMap.mp hmem
    exact .inl ⟨hcolor ▸ isBlue_of_mem_lit hlit, p, hp, exists_mem_lit.mp ⟨color, hlit⟩⟩

/-- Blue are the brackets of the pair at the cursor. -/
theorem isBlue_iff : Color.IsBlue cell.color ↔ ∃ p ∈ ps, AtCursor pos p ∧ i ∈ [p.1, p.2] := by
  obtain ⟨hblue, hpair⟩ | ⟨⟨hblue, -⟩, hpair⟩ := h.cases_color hcell
  · exact iff_of_true hblue hpair
  · exact iff_of_false hblue fun ⟨p, hp, hcursor, hi⟩ => hpair p hp hcursor hi

/-- No bracket is red. -/
theorem not_isRed : ¬ Color.IsRed cell.color := by
  obtain ⟨hblue, -⟩ | ⟨⟨-, hred⟩, -⟩ := h.cases_color hcell
  · rintro (hred | hred) <;> rw [hred] at hblue <;> rcases hblue with hblue | hblue <;> cases hblue
  · exact hred

end Pairs

/-- **The prompt lights the brackets of one node.** On a line that can be read, and in which no line ends behind a
comment, no bracket is red; and blue are the two brackets of the node that one of them at the cursor belongs to. -/
theorem highlight_partners {line : String} {forms : List Form} (h : readForms line = .ok forms)
    (hends : ∀ ts, tokenize line = .ok ts → ∀ i, ¬ EndsComment 0 line.toList ts i) (pos : Nat) :
    highlight line pos = String.ofList ((shown line pos).flatMap Cell.chars) ∧
      (shown line pos).map Cell.char = line.toList ∧
      (∀ cell ∈ shown line pos, ¬ Color.IsRed cell.color) ∧
      (∀ i cell, (shown line pos)[i]? = some cell → (Color.IsBlue cell.color ↔
        ∃ node cursor, Form.Node forms node ∧ pos = cursor + 1 ∧ node.BracketAt line cursor ∧ node.BracketAt line i)) ∧
      ((∀ cell ∈ shown line pos, ¬ Color.IsBlue cell.color) ∨
        ∃ node start stop, Form.Node forms node ∧ start ≠ stop ∧ (∀ i, node.BracketAt line i ↔ i ∈ [start, stop]) ∧
          ∀ i cell, (shown line pos)[i]? = some cell → (Color.IsBlue cell.color ↔ i ∈ [start, stop])) := by
  obtain ⟨ps, hps⟩ := exists_pairs h hends
  refine ⟨rfl, map_char_shown line pos, fun cell hmem => ?_, fun i cell hcell => ?_, ?_⟩
  · obtain ⟨i, hcell⟩ := List.getElem?_of_mem hmem
    exact hps.not_isRed hcell
  · rw [hps.isBlue_iff hcell]
    constructor
    · rintro ⟨p, hp, ⟨cursor, hcursor, rfl⟩, hi⟩
      obtain ⟨node, hnode, hat⟩ := hps.node p hp
      exact ⟨node, cursor, hnode, rfl, (hat cursor).mpr hcursor, (hat i).mpr hi⟩
    · rintro ⟨node, cursor, hnode, rfl, hcursor, hi⟩
      obtain ⟨p, hp, hat⟩ := hps.pair node hnode hcursor.1
      exact ⟨p, hp, ⟨cursor, (hat cursor).mp hcursor, rfl⟩, (hat i).mp hi⟩
  · by_cases hcursor : ∃ p ∈ ps, AtCursor pos p
    · obtain ⟨p, hp, cursor, hcursor, rfl⟩ := hcursor
      obtain ⟨node, hnode, hat⟩ := hps.node p hp
      refine .inr ⟨node, p.1, p.2, hnode, hps.fst_ne_snd p hp, hat, fun i cell hcell => (hps.isBlue_iff hcell).trans ?_⟩
      constructor
      · rintro ⟨q, hq, ⟨cursor', hcursor', heq⟩, hi⟩
        obtain rfl := Nat.succ.inj heq
        obtain rfl := hps.eq_of_mem p hp q hq cursor hcursor hcursor'
        exact hi
      · exact fun hi => ⟨p, hp, ⟨cursor, hcursor, rfl⟩, hi⟩
    · refine .inl fun cell hmem hblue => ?_
      obtain ⟨i, hcell⟩ := List.getElem?_of_mem hmem
      obtain ⟨p, hp, hp', -⟩ := (hps.isBlue_iff hcell).mp hblue
      exact hcursor ⟨p, hp, hp'⟩

/-- The cursor on the inner pair, around a string with a bracket in it, and a bracket in a comment. -/
theorem highlight_partners_inner :
    readForms "(a [\"]\"]) ;)" = .ok [.list ⟨0, 9⟩ [.atom ⟨1, 2⟩ (.symbol "a"), .vector ⟨3, 8⟩ [.atom ⟨4, 7⟩ (.string "]")]]] ∧
      (∀ ts, tokenize "(a [\"]\"]) ;)" = .ok ts → ∀ i, ¬ EndsComment 0 "(a [\"]\"]) ;)".toList ts i) ∧
      (shown "(a [\"]\"]) ;)" 8).map Cell.color = [none, none, none, some .boldBlue, some .green, some .green, some .green,
        some .blue, none, none, some .gray, some .gray] ∧
      ∃ (node : Form) (start stop : Nat), start ≠ stop ∧ (∀ i, node.BracketAt "(a [\"]\"]) ;)" i ↔ i ∈ [start, stop]) ∧
        ∀ (i : Nat) (cell : Cell), (shown "(a [\"]\"]) ;)" 8)[i]? = some cell →
          (Color.IsBlue cell.color ↔ i ∈ [start, stop]) := by
  have hforms : readForms "(a [\"]\"]) ;)" = .ok [.list ⟨0, 9⟩ [.atom ⟨1, 2⟩ (.symbol "a"),
      .vector ⟨3, 8⟩ [.atom ⟨4, 7⟩ (.string "]")]]] := by
    cbv
  have hends : ∀ ts, tokenize "(a [\"]\"]) ;)" = .ok ts → ∀ i, ¬ EndsComment 0 "(a [\"]\"]) ;)".toList ts i :=
    fun ts _ i hi => absurd (List.mem_of_getElem? hi.1) (by decide)
  have hcolors : (shown "(a [\"]\"]) ;)" 8).map Cell.color = [none, none, none, some .boldBlue, some .green, some .green,
      some .green, some .blue, none, none, some .gray, some .gray] := by
    decide +kernel
  obtain ⟨-, -, -, -, hnone | ⟨node, start, stop, -, hne, hat, hblue⟩⟩ := highlight_partners hforms hends 8
  · have hmem : some Color.blue ∈ (shown "(a [\"]\"]) ;)" 8).map Cell.color := by rw [hcolors]; decide
    obtain ⟨cell, hcell, hcolor⟩ := List.mem_map.mp hmem
    exact absurd (.inl hcolor) (hnone cell hcell)
  · exact ⟨hforms, hends, hcolors, node, start, stop, hne, hat, hblue⟩

end MusicLisp
