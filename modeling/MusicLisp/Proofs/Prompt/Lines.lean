import MusicLisp.Proofs.Prompt.Ending

/-!
# The entries of a text

A text that can be read, typed line by line, falls into entries that can be read. The prompt asks after each line
whether its input is open; where it is not, the input is an entry, and the lines after it are read as if it had never
been there.

* `entriesBy`, `submitted`: the entries that a line editor makes, and the chunks that they submit. With the editor that
  carries out backspaces they are those of the prompt (`submitted_withoutBackspaces`).
* `Lined`: a text as lines with their ends; `lined_inputLines` says that it is what the prompt takes it to be.
* `exists_parts`: **the entries of a text are read as its forms**, one part after the other. By induction on the lines,
  for whatever open input comes before them.
* `exists_parts_chunks`: so are the chunks that the entries submit.
-/

namespace MusicLisp.Prompt

/-! ### Line editors -/

/-- **The entries that lines of input make** with a line editor: `edit` is what it makes of the open input and one more
line. -/
def entriesBy (edit : List Char → List Char) (pending : List Char) : List InputLine → List String
  | [] => []
  | line :: rest =>
    let input := edit (pending ++ line.text)
    if isOpen (String.ofList input) then entriesBy edit (input ++ line.ending) rest
    else String.ofList input :: entriesBy edit [] rest

/-- The prompt's own editor carries out backspaces. -/
theorem entriesBy_withoutBackspaces (pending : List Char) (lines : List InputLine) :
    entriesBy withoutBackspaces pending lines = entries pending lines := by
  induction lines generalizing pending with
  | nil => rfl
  | cons line rest ih =>
    unfold entriesBy entries InputLine.after
    dsimp only
    rw [ih, ih]

/-- **What a text submits** when it is typed line by line into a line editor. -/
def submitted (edit : List Char → List Char) (source : String) : List String :=
  chunks (entriesBy edit [] (inputLines [] source.toList))

/-- With the prompt's own editor, these are the chunks that a run of the prompt evaluates. -/
theorem submitted_withoutBackspaces (source : String) :
    submitted withoutBackspaces source = chunks (entries [] (inputLines [] source.toList)) := by
  rw [submitted, entriesBy_withoutBackspaces]

/-! ### Lines -/

/-- **The text is made of the lines** with their ends; one without an end may come last. -/
inductive Lined : List Char → List InputLine → Prop
  | nil : Lined [] []
  | last (text : List Char) : Lined text [⟨text, []⟩]
  | ended (text : List Char) {blanks rest : List Char} {lines : List InputLine}
    (hblanks : ∀ c ∈ blanks, Lexeme.isBlank c = true) (hrest : Lined rest lines) :
    Lined (text ++ (blanks ++ '\n' :: rest)) (⟨text, blanks ++ ['\n']⟩ :: lines)

theorem lined_ofChars (cs : List Char) {rest : List Char} {lines : List InputLine} (hrest : Lined rest lines) :
    Lined (cs ++ '\n' :: rest) (.ofChars cs :: lines) := by
  unfold InputLine.ofChars
  split
  · next hlast =>
    have hcs : cs = cs.dropLast ++ ['\r'] := by
      obtain ⟨front, rfl⟩ := List.getLast?_eq_some_iff.mp hlast
      rw [List.dropLast_concat]
    have hblanks : ∀ c ∈ ['\r'], Lexeme.isBlank c = true := List.forall_mem_singleton.mpr rfl
    have hended := Lined.ended cs.dropLast hblanks hrest
    rw [← List.append_assoc, ← hcs] at hended
    exact hended
  · exact .ended cs (List.forall_mem_nil _) hrest

theorem lined_inputLines (read cs : List Char) : Lined (read.reverse ++ cs) (inputLines read cs) := by
  fun_induction inputLines read cs with
  | case1 read hempty =>
    rw [List.isEmpty_iff.mp hempty]
    exact .nil
  | case2 read hne =>
    rw [List.append_nil]
    exact .last _
  | case3 read rest ih => exact lined_ofChars _ ih
  | case4 read c rest hc ih =>
    rw [List.reverse_cons, List.append_assoc] at ih
    exact ih

/-! ### Entries -/

theorem ofList_break (p q : List Char) : String.ofList (p ++ '\n' :: q) = String.ofList p ++ "\n" ++ String.ofList q := by
  rw [← String.toList_inj]
  simp only [String.toList_append, String.toList_ofList, List.append_assoc]
  rfl

/-- **No line of the text ends in a map,** after a key that has no value yet. -/
def KeysHaveValues (source : String) : Prop := ∀ p q, source = p ++ "\n" ++ q → ¬ KeyAwaits p

/-- Only where lines end is there anything to look at. -/
theorem keysHaveValues_iff {source : String} : KeysHaveValues source ↔ ∀ i < source.toList.length,
    source.toList[i]? = some '\n' → ¬ KeyAwaits (String.ofList (source.toList.take i)) := by
  constructor
  · intro h i hi hbreak
    refine h _ (String.ofList (source.toList.drop (i + 1))) ?_
    rw [← ofList_break, ← (List.getElem?_eq_some_iff.mp hbreak).2, List.getElem_cons_drop, List.take_append_drop,
      String.ofList_toList]
  · rintro h p q rfl
    have hlist : (p ++ "\n" ++ q).toList = p.toList ++ '\n' :: q.toList := by
      simp only [String.toList_append, List.append_assoc]
      rfl
    have hkey := h p.toList.length
    rw [hlist, List.take_left, String.ofList_toList] at hkey
    refine hkey ?_ ?_
    · rw [List.length_append, List.length_cons]
      omega
    · rw [List.getElem?_append_right (Nat.le_refl _), Nat.sub_self]
      rfl

instance (source : String) : Decidable (KeysHaveValues source) := decidable_of_iff _ keysHaveValues_iff.symm

theorem KeysHaveValues.behind {a b : String} {forms : List Form} (h : KeysHaveValues (a ++ "\n" ++ b))
    (ha : readForms a = .ok forms) : KeysHaveValues b := by
  rintro p q rfl hkey
  refine h (a ++ "\n" ++ p) q ?_ (hkey.after_break ha)
  simp only [String.append_assoc]

theorem readForms_empty : readForms "" = .ok [] := by cbv

/-- **The entries of a text are read as its forms,** one part after the other, by an editor that leaves its pieces as
they are. What is pending before the lines cannot be read by itself. -/
theorem exists_parts {edit : List Char → List Char} {text : List Char} {lines : List InputLine}
    (hlined : Lined text lines) {pending : List Char}
    (hpending : ∀ forms, readForms (String.ofList pending) = .ok forms → pending = []) {forms : List Form}
    (hforms : readForms (String.ofList (pending ++ text)) = .ok forms)
    (hedit : ∀ input, input <:+: pending ++ text → edit input = input)
    (hkeys : KeysHaveValues (String.ofList (pending ++ text))) : ∃ parts : List (List Form),
      List.Forall₂ (fun entry part => readForms entry = .ok part) (entriesBy edit pending lines) parts ∧
        parts.flatten.map Form.bare = forms.map Form.bare := by
  induction hlined generalizing pending forms with
  | nil =>
    rw [List.append_nil] at hforms
    obtain rfl := hpending _ hforms
    obtain rfl : [] = forms := Except.ok.inj (readForms_empty.symm.trans hforms)
    exact ⟨[], .nil, rfl⟩
  | last text =>
    have hclosed : isOpen (String.ofList (pending ++ text)) = false := by
      unfold isOpen
      rw [hforms]
    refine ⟨[forms], ?_, by rw [List.flatten_singleton]⟩
    unfold entriesBy
    dsimp only
    rw [hedit _ (List.infix_refl _), if_neg (Bool.eq_false_iff.mp hclosed)]
    exact .cons hforms .nil
  | @ended text blanks rest lines hblanks hrest ih =>
    have hwhole : pending ++ (text ++ (blanks ++ '\n' :: rest)) = pending ++ text ++ (blanks ++ ['\n']) ++ rest := by
      simp only [List.append_assoc, List.cons_append, List.nil_append]
    unfold entriesBy
    dsimp only
    rw [hedit (pending ++ text) ⟨[], blanks ++ '\n' :: rest, by simp only [List.nil_append, List.append_assoc]⟩]
    split
    · next hopen =>
      rw [hwhole] at hforms hedit hkeys
      refine ih (fun forms hread => ?_) hforms hedit hkeys
      rw [String.ofList_append] at hread
      refine absurd hread (not_reads_of_isOpen hopen (fun c hc => ?_) forms)
      rw [String.toList_ofList] at hc
      obtain hc | hc := List.mem_append.mp hc
      · exact Text.isBlank_of_known (hblanks c hc)
      · rw [List.mem_singleton.mp hc]
        decide
    · next hclosed =>
      -- the line ends the input, and what comes after it is read as if it stood alone
      have hsplit : String.ofList (pending ++ (text ++ (blanks ++ '\n' :: rest))) =
          String.ofList (pending ++ text) ++ String.ofList blanks ++ "\n" ++ String.ofList rest := by
        rw [← String.ofList_append, ← ofList_break]
        simp only [List.append_assoc]
      rw [hsplit] at hforms hkeys
      have hblanks' : ∀ c ∈ (String.ofList blanks).toList, Lexeme.isBlank c = true := by
        rw [String.toList_ofList]
        exact hblanks
      have hopen : isOpen (String.ofList (pending ++ text) ++ String.ofList blanks) = false :=
        Bool.eq_false_iff.mpr fun h => hclosed (isOpen_of_append hblanks' h)
      obtain ⟨part, hpart⟩ := exists_forms_of_closed ⟨forms, hforms⟩ hopen (hkeys _ _ rfl)
      obtain ⟨forms', hforms', rfl⟩ := exists_forms_behind hpart hforms
      have hedit' : ∀ input, input <:+: [] ++ rest → edit input = input := by
        intro input hinput
        refine hedit input (hinput.trans ?_)
        rw [hwhole]
        exact (List.suffix_append _ rest).isInfix
      obtain ⟨parts, hparts, hbares⟩ := ih (fun _ _ => rfl) hforms' hedit' (hkeys.behind hpart)
      refine ⟨part :: parts, .cons ?_ hparts, ?_⟩
      · exact readForms_of_append (fun c hc => Text.isBlank_of_known (hblanks' c hc)) hpart
      · rw [List.flatten_cons, List.map_append, List.map_append, hbares, Form.map_bare_shift]

/-! ### Chunks -/

/-- **The chunks that entries submit are read as their forms,** if none of them asks to leave. -/
theorem exists_parts_chunks {entries : List String} {parts : List (List Form)}
    (h : List.Forall₂ (fun entry part => readForms entry = .ok part) entries parts)
    (hstay : ∀ entry ∈ entries, isExit (trimmed entry) = false) : ∃ parts' : List (List Form),
      List.Forall₂ (fun chunk part => readForms chunk = .ok part) (chunks entries) parts' ∧
        parts'.flatten.map Form.bare = parts.flatten.map Form.bare := by
  induction h with
  | nil => exact ⟨[], .nil, rfl⟩
  | @cons entry part entries parts hentry _ ih =>
    obtain ⟨hexit, hstay⟩ := List.forall_mem_cons.mp hstay
    obtain ⟨parts', hparts, hbares⟩ := ih hstay
    obtain ⟨part', hpart, hbare⟩ := readForms_trim hentry
    rw [List.flatten_cons, List.map_append, ← hbare, ← hbares]
    unfold chunks
    dsimp only
    split
    · next hempty =>
      -- a blank entry has no forms
      change readForms (trimmed entry) = .ok part' at hpart
      rw [String.isEmpty_iff.mp hempty] at hpart
      obtain rfl : [] = part' := Except.ok.inj (readForms_empty.symm.trans hpart)
      exact ⟨parts', hparts, rfl⟩
    · rw [hexit, if_neg Bool.false_ne_true]
      exact ⟨part' :: parts', .cons hpart hparts, by rw [List.flatten_cons, List.map_append]⟩

end MusicLisp.Prompt
