import MusicLisp.Proofs.Form.Reading
import MusicLisp.Proofs.Token.Scanning

/-!
# Writing forms and reading them again

The blanks between written forms and the characters of their brackets keep the tokens apart, so what is
written is always read, and each atom comes back as `Atom.reread` has it.

* `Form.reads_text`: the text of a form scans to its tokens, each as it comes back. By recursion on the form.
* `readForms_spaced`: so forms written with blanks between them are read.
* `readForms_text`: forms read from a source come back from their text, spans apart, if and only if their
  numbers are finite and no newline in their strings stands behind an odd number of backslashes.
-/

namespace MusicLisp

open Lexeme

/-! ### Texts that scan to the tokens of a form -/

/-- The text scans to tokens of the kinds wherever it stands, and does not start with a blank. -/
structure Reads (text : String) (kinds : List TokenKind) : Prop where
  scans : ∀ rest, Delimited rest → Scans text.toList rest kinds
  front : ∃ c r, text.toList = c :: r ∧ isBlank c = false

theorem Reads.of_writes {text : String} {kind : TokenKind} (h : Piece.Writes text.toList kind) :
    Reads text [kind] := by
  constructor
  · intro rest hrest
    obtain ⟨c, r, htext, hfront⟩ := h rest hrest
    rw [htext]
    exact scans_lexeme hfront
  · obtain ⟨c, r, htext, hfront⟩ := h [] delimited_nil
    refine ⟨c, r, htext, Bool.eq_false_iff.mpr fun hblank => ?_⟩
    rw [Piece.front, if_pos hblank] at hfront
    cases hfront

/-- Each of the texts scans to tokens of its kinds. -/
inductive ReadsAll : List String → List TokenKind → Prop
  | nil : ReadsAll [] []
  | cons {text : String} {texts : List String} {kinds kinds' : List TokenKind}
    (h : Reads text kinds) (hrest : ReadsAll texts kinds') : ReadsAll (text :: texts) (kinds ++ kinds')

theorem toList_spaced_cons (text next : String) (texts : List String) :
    (spaced (text :: next :: texts)).toList =
      text.toList ++ ([' '] ++ (spaced (next :: texts)).toList) := by
  rw [spaced, String.toList_append, String.toList_append, List.append_assoc]
  rfl

theorem Reads.stops_spaced {text : String} {kinds : List TokenKind} (h : Reads text kinds)
    (texts : List String) (rest : List Char) :
    Stops isBlank ((spaced (text :: texts)).toList ++ rest) := by
  obtain ⟨c, r, htext, hc⟩ := h.front
  cases texts with
  | nil =>
    rw [spaced, htext]
    rintro d ⟨⟩
    exact hc
  | cons next texts =>
    rw [toList_spaced_cons, htext]
    rintro d ⟨⟩
    exact hc

/-- Blanks between texts keep their tokens apart. -/
theorem ReadsAll.scans_spaced : ∀ {texts : List String} {kinds : List TokenKind}, ReadsAll texts kinds →
    ∀ {rest : List Char}, Delimited rest → Scans (spaced texts).toList rest kinds
  | [], _, .nil, rest, _ => fun offset found => ⟨offset, [], rfl, rfl⟩
  | [text], _, .cons h .nil, rest, hrest => by
    rw [List.append_nil]
    exact h.scans rest hrest
  | text :: next :: texts, _, .cons h (.cons hnext htexts), rest, hrest => by
    have hstop := hnext.stops_spaced texts rest
    have htail := (ReadsAll.cons hnext htexts).scans_spaced hrest
    rw [toList_spaced_cons]
    exact (h.scans _ (delimited_space _)).append ((scans_space hstop).append htail)

/-- **Texts with blanks between them** are cut into their tokens. -/
theorem ReadsAll.tokenize_spaced {texts : List String} {kinds : List TokenKind} (h : ReadsAll texts kinds) :
    ∃ ts offset, tokenize (spaced texts) = .ok (ts ++ [⟨.endOfInput, .point offset⟩]) ∧
      ts.map Token.kind = kinds := by
  obtain ⟨offset, ts, hts, hscan⟩ := h.scans_spaced delimited_nil 0 []
  rw [List.append_nil, List.append_nil] at hscan
  refine ⟨ts, offset, ?_, hts⟩
  rw [tokenize, hscan, scanFrom, List.reverse_cons, List.reverse_reverse]

/-- A bracket around a text adds its own two tokens. -/
theorem reads_around (b : Bracket) {inner : String} {kinds : List TokenKind}
    (h : ∀ rest, Delimited rest → Scans inner.toList rest kinds) :
    Reads (b.around inner) (.opening b :: (kinds ++ [.closing b])) := by
  have htext : (b.around inner).toList = [b.openChar] ++ (inner.toList ++ [b.closeChar]) := by
    rw [Bracket.around, String.toList_append, String.toList_append, List.append_assoc]
    cases b <;> rfl
  constructor
  · intro rest _
    rw [htext]
    exact (scans_opening b _).append ((h _ (delimited_closing b rest)).append (scans_closing b rest))
  · exact ⟨b.openChar, inner.toList ++ [b.closeChar], htext, by cases b <;> rfl⟩

namespace TokenKind

/-- What a token comes back as when its text is scanned. -/
def reread : TokenKind → TokenKind
  | atom a => .atom a.reread
  | kind => kind

end TokenKind

namespace Form

theorem mem_brackets {kind o c : TokenKind} {kinds : List TokenKind} (h : kind ∈ kinds) :
    kind ∈ o :: (kinds ++ [c]) :=
  List.mem_cons_of_mem _ (List.mem_append_left _ h)

mutual

theorem reads_text : ∀ {form : Form}, (∀ kind ∈ form.yield, kind.Scanned) →
    Reads form.text (form.yield.map TokenKind.reread)
  | atom _ a, h => .of_writes (Piece.writes_text (h (.atom a) List.mem_cons_self))
  | list _ items, h => by
    rw [yield, List.map_cons, List.map_append]
    exact reads_around .round fun rest hrest =>
      (readsAll_texts fun kind hk => h kind (mem_brackets hk)).scans_spaced hrest
  | vector _ items, h => by
    rw [yield, List.map_cons, List.map_append]
    exact reads_around .square fun rest hrest =>
      (readsAll_texts fun kind hk => h kind (mem_brackets hk)).scans_spaced hrest
  | map _ entries, h => by
    rw [yield, List.map_cons, List.map_append]
    exact reads_around .curly fun rest hrest =>
      (readsAll_entryTexts fun kind hk => h kind (mem_brackets hk)).scans_spaced hrest

theorem readsAll_texts : ∀ {forms : List Form}, (∀ kind ∈ yields forms, kind.Scanned) →
    ReadsAll (texts forms) ((yields forms).map TokenKind.reread)
  | [], _ => .nil
  | form :: rest, h => by
    rw [texts, yields, List.map_append]
    exact .cons (reads_text fun kind hk => h kind (List.mem_append_left _ hk))
      (readsAll_texts fun kind hk => h kind (List.mem_append_right _ hk))

theorem readsAll_entryTexts : ∀ {entries : List (Form × Form)},
    (∀ kind ∈ entryYields entries, kind.Scanned) →
    ReadsAll (entryTexts entries) ((entryYields entries).map TokenKind.reread)
  | [], _ => .nil
  | (key, value) :: rest, h => by
    rw [entryTexts, entryYields, List.map_append, List.map_append]
    exact .cons (reads_text fun kind hk => h kind (List.mem_append_left _ hk))
      (.cons (reads_text fun kind hk => h kind (List.mem_append_right _ (List.mem_append_left _ hk)))
        (readsAll_entryTexts fun kind hk =>
          h kind (List.mem_append_right _ (List.mem_append_right _ hk))))

end

/-! ### Coming back -/

mutual

/-- What a form comes back as when it is written and read again. -/
def reread : Form → Form
  | atom span a => atom span a.reread
  | list span items => list span (rereads items)
  | vector span items => vector span (rereads items)
  | map span entries => map span (entryRereads entries)

/-- What the forms of a list come back as. -/
def rereads : List Form → List Form
  | [] => []
  | form :: rest => reread form :: rereads rest

/-- What the keys and values of a map come back as. -/
def entryRereads : List (Form × Form) → List (Form × Form)
  | [] => []
  | (key, value) :: rest => (reread key, reread value) :: entryRereads rest

end

mutual

theorem yield_reread : ∀ form : Form, form.reread.yield = form.yield.map TokenKind.reread
  | atom _ _ => rfl
  | list _ items => by
    rw [reread, yield, yield, yields_rereads items, List.map_cons, List.map_append]; rfl
  | vector _ items => by
    rw [reread, yield, yield, yields_rereads items, List.map_cons, List.map_append]; rfl
  | map _ entries => by
    rw [reread, yield, yield, entryYields_entryRereads entries, List.map_cons, List.map_append]; rfl

theorem yields_rereads : ∀ forms : List Form,
    yields (rereads forms) = (yields forms).map TokenKind.reread
  | [] => rfl
  | form :: rest => by
    rw [rereads, yields, yields, yield_reread form, yields_rereads rest, List.map_append]

theorem entryYields_entryRereads : ∀ entries : List (Form × Form),
    entryYields (entryRereads entries) = (entryYields entries).map TokenKind.reread
  | [] => rfl
  | (key, value) :: rest => by
    rw [entryRereads, entryYields, entryYields, yield_reread key, yield_reread value,
      entryYields_entryRereads rest, List.map_append, List.map_append]

end

/-- Forms come back as themselves, spans apart, if and only if each of their tokens does. -/
theorem bares_rereads_iff (forms : List Form) :
    bares (rereads forms) = bares forms ↔ ∀ kind ∈ yields forms, kind.reread = kind := by
  have hyields : bares (rereads forms) = bares forms ↔ yields (rereads forms) = yields forms := by
    refine ⟨fun h => ?_, TokenStream.bares_eq_of_yields_eq⟩
    rw [← yields_bares, h, yields_bares]
  rw [hyields, yields_rereads]
  conv_lhs => rhs; rw [← List.map_id (yields forms)]
  exact List.map_inj_left

end Form

/-! ### Source texts -/

theorem ne_endOfInput {kind : TokenKind} (h : kind.Scanned) : kind ≠ .endOfInput := by
  rintro rfl
  exact h

/-- What is read from a source text is made of scanned tokens. -/
theorem scanned_readForms {source : String} {forms : List Form} (h : readForms source = .ok forms) :
    ∀ kind ∈ Form.yields forms, kind.Scanned := by
  unfold readForms at h
  cases htokens : tokenize source with
  | error e => rw [htokens] at h; cases h
  | ok tokens =>
    rw [htokens] at h
    obtain ⟨ts, e, rfl, he, hts⟩ := (tokenize_ok_iff.mp htokens).scanned
    have hspells := (TokenStream.readAll_iff he fun t ht => ne_endOfInput (hts t ht)).mp h
    rw [← hspells.map_kind]
    intro kind hk
    obtain ⟨t, ht, rfl⟩ := List.mem_map.mp hk
    exact hts t ht

/-- Forms of scanned tokens, written with blanks between them, are read as what they come back as. -/
theorem readForms_spaced {forms : List Form} (h : ∀ kind ∈ Form.yields forms, kind.Scanned) :
    ∃ found, readForms (spaced (Form.texts forms)) = .ok found ∧
      Form.bares found = Form.bares (Form.rereads forms) := by
  obtain ⟨ts, offset, htokens, hts⟩ := (Form.readsAll_texts h).tokenize_spaced
  rw [← Form.yields_rereads] at hts
  have hmark := Form.ne_endOfInput_of_map_kind hts
  obtain ⟨found, hspells, hbares⟩ := Form.exists_spellsAll (Form.rereads forms) hts
  refine ⟨found, ?_, hbares⟩
  rw [readForms, htokens]
  exact (TokenStream.readAll_iff rfl hmark).mpr hspells

theorem Form.texts_eq_map (forms : List Form) : texts forms = forms.map text := by
  induction forms with
  | nil => rfl
  | cons form rest ih => rw [texts, ih]; rfl

/-- **Writing and reading again.** Forms read from a source, written with blanks between them, are read. They
come back, spans apart, if and only if every number among them is finite and no string among them has a
newline behind an odd number of backslashes. -/
theorem readForms_text {source : String} {forms : List Form} (h : readForms source = .ok forms) :
    ∃ found, readForms (spaced (forms.map Form.text)) = .ok found ∧
      (found.map Form.bare = forms.map Form.bare ↔
        (∀ x : Float, .atom (.number x) ∈ forms.flatMap Form.yield → x.isFinite = true) ∧
        ∀ s : String, .atom (.string s) ∈ forms.flatMap Form.yield → ¬ OddNewline s.toList) := by
  have hscanned := scanned_readForms h
  obtain ⟨found, hread, hbares⟩ := readForms_spaced hscanned
  rw [Form.texts_eq_map] at hread
  refine ⟨found, hread, ?_⟩
  rw [← Form.bares_eq_map, ← Form.bares_eq_map, hbares, Form.bares_rereads_iff,
    ← Form.yields_eq_flatMap]
  have hatom : ∀ a : Atom, .atom a ∈ Form.yields forms →
      ((TokenKind.atom a).reread = .atom a ↔ a.Lasts) := by
    intro a ha
    rw [TokenKind.reread, TokenKind.atom.injEq]
    exact Atom.reread_eq_iff (hscanned _ ha)
  constructor
  · intro hall
    exact ⟨fun x hx => (hatom _ hx).mp (hall _ hx), fun s hs => (hatom _ hs).mp (hall _ hs)⟩
  · rintro ⟨hnumbers, hstrings⟩ kind hk
    cases kind with
    | atom a =>
      refine (hatom a hk).mpr ?_
      cases a with
      | number x => exact hnumbers x hk
      | string s => exact hstrings s hk
      | keyword _ | symbol _ => trivial
    | opening _ | closing _ | endOfInput => rfl

/-- The newline in this string stands behind one backslash, and the list does not come back. -/
theorem readForms_text_slash : ∃ forms found, readForms "(f \"\\\n\")" = .ok forms ∧
    readForms (spaced (forms.map Form.text)) = .ok found ∧
      found.map Form.bare ≠ forms.map Form.bare := by
  have hread : readForms "(f \"\\\n\")" = .ok
      [.list ⟨0, 8⟩ [.atom ⟨1, 2⟩ (.symbol "f"), .atom ⟨3, 7⟩ (.string "\\\n")]] := by
    cbv
  obtain ⟨found, hfound, hiff⟩ := readForms_text hread
  refine ⟨_, found, hread, hfound, fun he => ?_⟩
  exact (hiff.mp he).2 "\\\n" (by simp [Form.yield, Form.yields]) ⟨['\\'], [], rfl, rfl⟩

end MusicLisp
