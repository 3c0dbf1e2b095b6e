import MusicLisp.Prompt.Complete
import MusicLisp.Proofs.Evaluation.Names
import MusicLisp.Proofs.Token.Passing

/-!
# Completions of a word

The text before the cursor is cut into tokens by itself, and if it ends in a symbol, this is the word to complete.
What can go in is what a known name has after the word. A known name is a symbol as a whole, so the word stays one
token when it is completed, and no token before it changes.

* `endingIn`: the tokens of a text that ends in a symbol. `wordAt?_eq_some_iff`: then this is the word at its end.
* `missing?_eq_some_iff`, `vocabulary_pairwise`: what is missing from a name, and the known names, in order.
* `tokenize_longer`: **a text that ends in a symbol, with more of the symbol behind it.** The tokens before the symbol
  are settled by its first character.
* `completion_exact`: **what a completer answers**, in any session that can be come to.
-/

namespace MusicLisp

/-! ### The word before the cursor -/

theorem takeBytes_append (cs rest : List Char) : takeBytes (byteLength cs) (cs ++ rest) = cs := by
  induction cs with
  | nil =>
    cases rest with
    | nil => rfl
    | cons c rest => exact if_neg (Nat.not_le_of_lt c.utf8Size_pos)
  | cons c cs ih =>
    have hlength := byteLength_cons c cs
    rw [List.cons_append, takeBytes, if_pos (by omega), hlength, Nat.add_sub_cancel_left, ih]

/-- **The tokens of a text that ends in a symbol**: some tokens, the symbol, and the mark right behind it. -/
def endingIn (ts : List Token) (word : String) (start stop : Nat) : List Token :=
  ts ++ [⟨.atom (.symbol word), start, stop⟩, ⟨.endOfInput, .point stop⟩]

/-- The mark is passed over, and nothing else. -/
theorem lastToken?_marked {ts : List Token} {mark : Token} (hmark : mark.kind = .endOfInput)
    (hts : ∀ t ∈ ts, t.kind ≠ .endOfInput) : lastToken? (ts ++ [mark]) = ts.getLast? := by
  unfold lastToken?
  rw [List.reverse_concat, List.find?_cons, hmark, ← List.head?_reverse]
  cases hrest : ts.reverse with
  | nil => rfl
  | cons t rest =>
    have hne : t.kind ≠ .endOfInput := hts t (List.mem_reverse.mp (hrest ▸ List.mem_cons_self))
    refine List.find?_cons_of_pos ?_
    cases hkind : t.kind with
    | endOfInput => exact absurd hkind hne
    | opening | closing | atom => rfl

/-- The text before a place is a line up to there. -/
theorem ofList_takeBytes (before after : String) :
    String.ofList (takeBytes before.utf8ByteSize (before ++ after).toList) = before := by
  rw [← byteLength_toList, String.toList_append, takeBytes_append, String.ofList_toList]

/-- **The word at a place** is the symbol that the text before the place ends in. -/
theorem wordAt?_eq_some_iff {before after word : String} :
    wordAt? (before ++ after) before.utf8ByteSize = some word ↔
      ∃ ts start, tokenize before = .ok (endingIn ts word start before.utf8ByteSize) := by
  rw [wordAt?, ofList_takeBytes]
  constructor
  · intro h
    split at h
    · cases h
    · next tokens htokens =>
      obtain ⟨ts, rfl, hts, -⟩ := tokenize_places htokens
      rw [lastToken?_marked rfl hts] at h
      split at h
      · next name span hlast =>
        split at h
        · next hstop =>
          obtain ⟨ts, rfl⟩ := List.getLast?_eq_some_iff.mp hlast
          obtain ⟨start, stop⟩ := span
          cases h
          cases hstop
          exact ⟨ts, start, by rw [htokens, endingIn, List.append_assoc]; rfl⟩
        · cases h
      · cases h
  · rintro ⟨ts, start, htokens⟩
    obtain ⟨us, heq, hus, -⟩ := tokenize_places htokens
    rw [endingIn, List.append_cons] at heq
    obtain ⟨rfl, -⟩ := List.append_inj' heq rfl
    rw [htokens, endingIn, List.append_cons]
    dsimp only
    rw [lastToken?_marked rfl hus, List.getLast?_concat]
    exact if_pos rfl

/-! ### What is missing -/

/-- **What is missing from a name** is what it has after its beginning, if anything. -/
theorem missing?_eq_some_iff {beginning name rest : String} :
    missing? beginning name = some rest ↔ rest ≠ "" ∧ name = beginning ++ rest := by
  unfold missing?
  constructor
  · intro h
    split at h
    · next hcond =>
      obtain ⟨hbegins, hlt⟩ := Bool.and_eq_true_iff.mp hcond
      obtain ⟨more, hname⟩ := List.isPrefixOf_iff_prefix.mp hbegins
      have hlength : beginning.toList.length < name.toList.length := of_decide_eq_true hlt
      rw [← hname, List.drop_left] at h
      cases h
      constructor
      · intro hempty
        have hmore : more = [] := by rw [← String.toList_ofList (l := more), hempty]; rfl
        rw [← hname, hmore, List.append_nil] at hlength
        exact Nat.lt_irrefl _ hlength
      · rw [← String.toList_inj, String.toList_append, String.toList_ofList, hname]
    · cases h
  · rintro ⟨hrest, rfl⟩
    have hne : rest.toList ≠ [] := fun h => hrest (String.toList_inj.mp h)
    have hpos := List.length_pos_of_ne_nil hne
    rw [String.toList_append, List.drop_left, String.ofList_toList, if_pos]
    refine Bool.and_eq_true_iff.mpr ⟨List.isPrefixOf_iff_prefix.mpr (List.prefix_append _ _), decide_eq_true ?_⟩
    rw [List.length_append]
    omega

/-- Names with the same beginning are in the order of what comes after it. -/
theorem lt_of_append_lt {beginning r r' : String} (h : beginning ++ r < beginning ++ r') : r < r' := by
  rcases Std.lt_trichotomy r r' with hlt | rfl | hgt
  · exact hlt
  · exact absurd h (String.lt_irrefl _)
  · have happend : beginning ++ r' < beginning ++ r := by
      rw [String.lt_iff_toList_lt, String.toList_append, String.toList_append] at *
      exact List.append_left_lt hgt
    exact absurd (String.lt_trans h happend) (String.lt_irrefl _)

theorem SpecialForm.mem_words_iff {name : String} : name ∈ words ↔ ∃ form : SpecialForm, form.word = name := by
  have hall : ∀ form : SpecialForm, form ∈ all := by
    intro form
    cases form <;> decide
  unfold words
  rw [Dict.mem_names_ofEntries, List.map_map, List.mem_map]
  exact ⟨fun ⟨form, _, hname⟩ => ⟨form, hname⟩, fun ⟨form, hname⟩ => ⟨form, hall form, hname⟩⟩

namespace Session

/-- **The known names**: those seen from the global frame, and the words of special forms. -/
theorem mem_vocabulary_iff (s : Session) {name : String} : name ∈ s.vocabulary ↔
    s.scopes.has globalFrame name = true ∨ ∃ form : SpecialForm, form.word = name := by
  have hunit : ∀ names : List String, (names.map fun name => (name, ())).map Prod.fst = names := by
    intro names
    rw [List.map_map]
    exact List.map_id names
  unfold vocabulary
  rw [Dict.mem_names_ofEntries, hunit, List.mem_append, Scopes.mem_names_iff, SpecialForm.mem_words_iff]

theorem vocabulary_pairwise (s : Session) : s.vocabulary.Pairwise (· < ·) :=
  List.pairwise_map.mpr (Dict.ordered_ofEntries _)

/-- What is missing from the known names is in order, too. -/
theorem missing_pairwise (s : Session) (word : String) :
    (s.vocabulary.filterMap (missing? word)).Pairwise (· < ·) := by
  refine List.pairwise_filterMap.mpr (s.vocabulary_pairwise.imp fun hlt r hr r' hr' => ?_)
  obtain ⟨-, rfl⟩ := missing?_eq_some_iff.mp hr
  obtain ⟨-, rfl⟩ := missing?_eq_some_iff.mp hr'
  exact lt_of_append_lt hlt

theorem mem_missing_iff (s : Session) {word r : String} : r ∈ s.vocabulary.filterMap (missing? word) ↔
    r ≠ "" ∧ (s.scopes.has globalFrame (word ++ r) = true ∨ ∃ form : SpecialForm, form.word = word ++ r) := by
  rw [List.mem_filterMap, ← mem_vocabulary_iff]
  constructor
  · rintro ⟨name, hname, hmissing⟩
    obtain ⟨hr, rfl⟩ := missing?_eq_some_iff.mp hmissing
    exact ⟨hr, hname⟩
  · rintro ⟨hr, hname⟩
    exact ⟨word ++ r, hname, missing?_eq_some_iff.mpr ⟨hr, rfl⟩⟩

end Session

/-! ### More of a symbol -/

/-- **A text that ends in a symbol, with more of the symbol behind it**: the symbol is longer, and all before it is as
it was. -/
theorem tokenize_longer {before word r : String} {ts : List Token} {start : Nat}
    (h : tokenize before = .ok (endingIn ts word start before.utf8ByteSize)) (hname : IsName (word ++ r)) :
    tokenize (before ++ r) = .ok (endingIn ts (word ++ r) start (before ++ r).utf8ByteSize) := by
  obtain ⟨front, rest, hbefore, hstart, hpassed, hcut⟩ := (tokenize_ok_iff.mp h).passed
  dsimp only at hstart hcut
  rw [Nat.zero_add] at hstart
  have hsize : before.utf8ByteSize = start + byteLength rest := by
    rw [← byteLength_toList, hbefore, byteLength_append, hstart]
  obtain ⟨c, cs, rfl, hfront⟩ := hcut.front_of_alone rfl hsize
  -- the symbol is all of what is behind the tokens before it
  have hword : word.toList = c :: cs := by
    generalize hn : cs.length = n at hfront
    cases Piece.front_of_eq hfront with
    | symbol => rw [String.toList_ofList, ← hn, List.take_length]
  obtain ⟨c', cs', hcons, hlonger⟩ := Piece.writes_symbol hname [] nofun
  rw [String.toList_append, hword, List.cons_append] at hcons
  obtain ⟨rfl, rfl⟩ := List.cons.inj hcons
  rw [List.append_nil] at hlonger
  have htext : (before ++ r).toList = front ++ c :: (cs ++ r.toList) := by
    rw [String.toList_append, hbefore, List.append_assoc, List.cons_append]
  have hstop : start + byteLength (c :: (cs ++ r.toList)) = (before ++ r).utf8ByteSize := by
    rw [← byteLength_toList, htext, byteLength_append, hstart]
  have hscan := (hpassed.change (cs ++ r.toList)).scan []
  rw [← htext, Nat.zero_add, ← hstart, scanFrom_lexeme hlonger, List.take_length, List.drop_length, hstop,
    scanFrom] at hscan
  rw [tokenize, hscan, endingIn]
  simp

namespace Session

/-- **What a completer answers** after any texts, at any place of a line. The place stays as it is. Unless the text
before it ends in a symbol, there are no candidates. If it does, they are, each once and in increasing order, what the
known names have after this word; and the text with a candidate behind it has the same tokens, only that the last
symbol is the whole name. -/
theorem completion_exact (settings : Settings) (engine : Engine) (texts : List String) (before after : String) :
    let s := ((start settings engine).evaluateAll texts).2
    let answer := s.completion (before ++ after) before.utf8ByteSize
    answer.place = before.utf8ByteSize ∧
    ((∀ ts word start, tokenize before ≠ .ok (endingIn ts word start before.utf8ByteSize)) → answer.candidates = []) ∧
    ∀ ts word start, tokenize before = .ok (endingIn ts word start before.utf8ByteSize) →
      answer.candidates.Pairwise (· < ·) ∧
      (∀ r, r ∈ answer.candidates ↔
        r ≠ "" ∧ (s.scopes.has globalFrame (word ++ r) = true ∨ ∃ form : SpecialForm, form.word = word ++ r)) ∧
      ∀ r ∈ answer.candidates,
        tokenize (before ++ r) = .ok (endingIn ts (word ++ r) start (before ++ r).utf8ByteSize) := by
  intro s answer
  refine ⟨rfl, fun hnone => ?_, fun ts word start htokens => ?_⟩
  · have hword : wordAt? (before ++ after) before.utf8ByteSize = none := by
      refine Option.eq_none_iff_forall_ne_some.mpr fun word hword => ?_
      obtain ⟨ts, start, htokens⟩ := wordAt?_eq_some_iff.mp hword
      exact hnone ts word start htokens
    change s.complete _ _ = []
    rw [complete, hword]
  · have hcandidates : answer.candidates = s.vocabulary.filterMap (missing? word) := by
      change s.complete _ _ = _
      rw [complete, wordAt?_eq_some_iff.mpr ⟨ts, start, htokens⟩]
    rw [hcandidates]
    refine ⟨s.missing_pairwise word, fun r => s.mem_missing_iff, fun r hr => ?_⟩
    obtain ⟨-, hseen | ⟨form, hform⟩⟩ := s.mem_missing_iff.mp hr
    · exact tokenize_longer htokens (isName_of_has settings engine texts hseen)
    · exact tokenize_longer htokens (hform ▸ form.isName_word)

example : (start {} .fresh).completion "(de x)" 3 = ⟨3, ["f", "fn"]⟩ := by decide +kernel

end Session

end MusicLisp
