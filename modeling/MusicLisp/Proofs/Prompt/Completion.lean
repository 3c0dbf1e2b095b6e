import MusicLisp.Proofs.Form.Faults
import MusicLisp.Proofs.Form.Printing
import MusicLisp.Proofs.Prompt.Open

/-!
# Which input can be completed

Input that cannot be read can be completed if and only if reading fails at its end: before the end, only closing
brackets are wrong, and they stay wrong whatever comes after them. At the end brackets are open, and the text that
completes the input closes them one after the other, the innermost first.

* `Brackets.endings`: the tokens that close open brackets. A key that awaits its value gets one first; and a bracket that
  is closed is a form in the one around it, so it is the value of a key there, or a key itself.
* `Brackets.run_endings`: these tokens leave no bracket open. By induction on the brackets around the innermost one.
* `exists_completes`: **where nothing is wrong before the end, some text completes the input.**
* `FailsAt`, `ReadError.RaisedBy`: the token at which reading fails, and which tokens raise which errors.
* `completes_iff_failsAt_end`: **input can be completed if and only if reading it fails at its end.**
-/

namespace MusicLisp

/-! ### Closing what is open -/

/-- The tokens that close a bracket; a key that awaits its value gets one first. -/
def OpenBracket.ending (o : OpenBracket) : List TokenKind :=
  if o.awaits then [.atom (.symbol "x"), .closing o.bracket] else [.closing o.bracket]

namespace Brackets

/-- **The tokens that close open brackets**: the innermost one, and those around it, in which it is a form passed. -/
def endings : List OpenBracket → List TokenKind
  | [] => []
  | o :: outer => o.ending ++ outer.flatMap fun o => o.passed.ending

variable {o : OpenBracket} {opens outer : List OpenBracket} {ts : List Token}

theorem run_ending (h : ts.map Token.kind = o.ending) (rest : List Token) :
    run (o :: outer) (ts ++ rest) = run (passed outer) rest := by
  obtain ⟨b, start, awaits⟩ := o
  cases awaits with
  | false =>
    obtain ⟨c, rfl, hc⟩ := List.map_eq_singleton_iff.mp h
    exact run_cons (step_closing hc)
  | true =>
    obtain ⟨x, ts, rfl, hx, hts⟩ := List.map_eq_cons_iff.mp h
    obtain ⟨c, rfl, hc⟩ := List.map_eq_singleton_iff.mp hts
    have hvalue : passed (⟨b, start, true⟩ :: outer) = ⟨b, start, false⟩ :: outer := by
      rw [passed, OpenBracket.passed, Bool.not_true, Bool.and_false]
    refine (run_cons (step_atom hx)).trans ?_
    rw [hvalue]
    exact run_cons (step_closing hc)

theorem run_endings_passed (h : ts.map Token.kind = outer.flatMap fun o => o.passed.ending) (rest : List Token) :
    run (passed outer) (ts ++ rest) = run [] rest := by
  induction outer generalizing ts with
  | nil =>
    rw [List.map_eq_nil_iff.mp h]
    rfl
  | cons o outer ih =>
    obtain ⟨p, q, rfl, hp, hq⟩ := List.map_eq_append_iff.mp h
    rw [List.append_assoc]
    exact (run_ending hp _).trans (ih hq)

/-- **The tokens that close open brackets** leave none open. -/
theorem run_endings (h : ts.map Token.kind = endings opens) (rest : List Token) :
    run opens (ts ++ rest) = run [] rest := by
  cases opens with
  | nil =>
    rw [List.map_eq_nil_iff.mp h]
    rfl
  | cons o outer =>
    obtain ⟨p, q, rfl, hp, hq⟩ := List.map_eq_append_iff.mp h
    rw [List.append_assoc, run_ending hp, run_endings_passed hq]

end Brackets

/-! ### Closing in writing -/

theorem reads_closing (b : Bracket) : Reads (TokenKind.closing b).text [.closing b] := by
  have htext : (TokenKind.closing b).text.toList = [b.closeChar] := by cases b <;> rfl
  constructor
  · intro rest _
    rw [htext]
    exact scans_closing b rest
  · exact ⟨b.closeChar, [], htext, by cases b <;> rfl⟩

theorem reads_value : Reads "x" [.atom (.symbol "x")] :=
  .of_writes (Piece.writes_symbol ⟨'x', [], rfl, .inl rfl, nofun⟩)

theorem OpenBracket.readsAll_ending (o : OpenBracket) {texts : List String} {kinds : List TokenKind}
    (h : ReadsAll texts kinds) : ReadsAll (o.ending.map TokenKind.text ++ texts) (o.ending ++ kinds) := by
  have hclosed : ReadsAll ((TokenKind.closing o.bracket).text :: texts) (.closing o.bracket :: kinds) :=
    .cons (reads_closing o.bracket) h
  have hvalue : ReadsAll ("x" :: (TokenKind.closing o.bracket).text :: texts)
      ([.atom (.symbol "x")] ++ .closing o.bracket :: kinds) :=
    .cons reads_value hclosed
  unfold ending
  split
  · exact hvalue
  · exact hclosed

/-- The tokens that close open brackets are read from their texts. -/
theorem Brackets.readsAll_endings (opens : List OpenBracket) :
    ReadsAll ((endings opens).map TokenKind.text) (endings opens) := by
  cases opens with
  | nil => exact .nil
  | cons o outer =>
    rw [endings, List.map_append]
    refine o.readsAll_ending ?_
    induction outer with
    | nil => exact .nil
    | cons o outer ih =>
      rw [List.flatMap_cons, List.map_append]
      exact o.passed.readsAll_ending ih

/-! ### Where reading fails -/

/-- **Reading the tokens fails at the token**: it is the last one taken. -/
def FailsAt (tokens : List Token) (t : Token) (e : ReadError) : Prop :=
  ∃ before left, (TokenStream.ofTokens tokens).readAll = (.error e, left) ∧ tokens = before ++ t :: left.tokens

/-- **The token can raise the error**: a closing bracket is unexpected, or it ends a map too early; and so does the mark,
at which forms are missing. -/
def ReadError.RaisedBy (t : Token) : ReadError → Prop
  | unexpectedToken found _ => found = t ∧ t.kind.isClosing = true
  | unexpectedEnd _ span => span = t.span ∧ t.kind = .endOfInput
  | oddMap _ => t.kind = .closing .curly ∨ t.kind = .endOfInput
  | scan _ => False

theorem Brackets.Fault.raisedBy {opens : List OpenBracket} {t : Token} {e : ReadError} (h : Fault opens t e) :
    e.RaisedBy t := by
  cases h with
  | stray ht | other ht => exact ⟨rfl, by rw [ht]; rfl⟩
  | odd ht => exact ht
  | unclosed ht => exact ⟨rfl, ht⟩

section

variable {mark : Token} {ts : List Token} (hmark : mark.kind = .endOfInput)
  (hts : ∀ t ∈ ts, t.kind ≠ .endOfInput)
include hmark hts

/-- Reading a marked stream fails at its first fault. -/
theorem failsAt_iff_fault {t : Token} {e : ReadError} : FailsAt (ts ++ [mark]) t e ↔
    ∃ before rest opens, ts ++ [mark] = before ++ t :: rest ∧ Brackets.run [] before = .ok opens ∧
      Brackets.Fault opens t e := by
  constructor
  · rintro ⟨before, left, hread, heq⟩
    obtain ⟨before', t', opens, heq', hrun, hfault⟩ := Brackets.halt_nil_eq_some_iff.mp
      ((TokenStream.readAll_eq_error_iff hmark hts 0).mp ⟨left, hread, rfl⟩)
    obtain ⟨rfl, ht⟩ := List.append_inj' (heq.symm.trans heq') rfl
    obtain ⟨rfl, -⟩ := List.cons.inj ht
    exact ⟨before, left.tokens, opens, heq, hrun, hfault⟩
  · rintro ⟨before, rest, opens, heq, hrun, hfault⟩
    obtain ⟨left, hread, rfl⟩ := (TokenStream.readAll_eq_error_iff hmark hts 0).mpr
      (Brackets.halt_nil_eq_some_iff.mpr ⟨before, t, opens, heq, hrun, hfault⟩)
    exact ⟨before, left, hread, heq⟩

theorem exists_failsAt {e : ReadError} (h : (TokenStream.ofTokens (ts ++ [mark])).readAll.1 = .error e) :
    ∃ t, FailsAt (ts ++ [mark]) t e := by
  obtain ⟨before, t, opens, heq, hrun, hfault⟩ := Brackets.halt_nil_eq_some_iff.mp
    ((TokenStream.readAll_eq_error_iff hmark hts 0).mp ⟨_, Prod.ext h rfl, rfl⟩)
  exact ⟨t, (failsAt_iff_fault hmark hts).mpr ⟨before, _, opens, heq, hrun, hfault⟩⟩

/-- **Reading fails at the mark** if and only if nothing is wrong with the tokens before it. -/
theorem FailsAt.at_mark_iff {t : Token} {e : ReadError} (h : FailsAt (ts ++ [mark]) t e) :
    t.kind = .endOfInput ↔ ∃ opens, Brackets.run [] ts = .ok opens := by
  obtain ⟨before, rest, opens, heq, hrun, hfault⟩ := (failsAt_iff_fault hmark hts).mp h
  rcases List.eq_nil_or_concat rest with rfl | ⟨rest, last, rfl⟩
  · obtain ⟨rfl, ht⟩ := List.append_inj' heq rfl
    obtain ⟨rfl, -⟩ := List.cons.inj ht
    exact iff_of_true hmark ⟨opens, hrun⟩
  · rw [List.concat_eq_append, ← List.cons_append, ← List.append_assoc] at heq
    obtain ⟨rfl, -⟩ := List.append_inj' heq rfl
    refine iff_of_false (hts t (List.mem_append_right before List.mem_cons_self)) ?_
    rintro ⟨opens', hok⟩
    rw [Brackets.run_append, hrun] at hok
    change Brackets.run opens (t :: rest) = _ at hok
    rw [Brackets.run_cons_error hfault.step_eq_error] at hok
    cases hok

end

namespace Prompt

/-! ### Completions -/

/-- **Where nothing is wrong before the end**, some text completes the input. -/
theorem exists_completes {input : String} {ts : List Token} {opens : List OpenBracket}
    (htokens : tokenize input = .ok (ts ++ [⟨.endOfInput, .point input.utf8ByteSize⟩]))
    (hrun : Brackets.run [] ts = .ok opens) : ∃ more, Completes input more := by
  obtain ⟨us, offset, hus, hkinds⟩ := (Brackets.readsAll_endings opens).tokenize_spaced
  obtain ⟨us', heq, -⟩ := tokenize_places hus
  obtain ⟨rfl, hmark⟩ := List.append_inj' heq rfl
  rw [hmark] at hus
  have hmap : (us.map (Token.shift (input.utf8ByteSize + 1))).map Token.kind = Brackets.endings opens := by
    rw [List.map_map, ← hkinds]
    rfl
  have hboth := run_eq_readForms (tokenize_join_ok htokens hus)
  rw [List.append_assoc, Brackets.run_append, hrun] at hboth
  change Brackets.run opens _ = _ at hboth
  rw [Brackets.run_endings hmap] at hboth
  refine ⟨spaced ((Brackets.endings opens).map TokenKind.text), ?_⟩
  unfold Completes
  cases hforms : readForms _ with
  | ok forms => exact ⟨forms, rfl⟩
  | error e =>
    rw [hforms] at hboth
    cases hboth

/-- Input at whose end nothing is wrong before the mark is what can be completed. -/
theorem exists_completes_iff {input : String} {ts : List Token} {t : Token} {e : ReadError}
    (htokens : tokenize input = .ok (ts ++ [⟨.endOfInput, .point input.utf8ByteSize⟩]))
    (hts : ∀ t ∈ ts, t.kind ≠ .endOfInput)
    (h : FailsAt (ts ++ [⟨.endOfInput, .point input.utf8ByteSize⟩]) t e) :
    (∃ more, Completes input more) ↔ t.kind = .endOfInput := by
  rw [h.at_mark_iff rfl hts]
  constructor
  · rintro ⟨more, hmore⟩
    exact run_of_completes hmore htokens
  · rintro ⟨opens, hrun⟩
    exact exists_completes htokens hrun

/-- **Input can be completed if and only if reading it fails at its end**, where a closing bracket is missing, or the
value of a key. A closing bracket at which reading fails stays wrong whatever comes after it, and so does a character
that starts no token. -/
theorem completes_iff_failsAt_end (input : String) :
    (∀ tokens e, tokenize input = .ok tokens → readForms input = .error e →
      ∃ t, FailsAt tokens t e ∧ e.RaisedBy t ∧ ((∃ more, Completes input more) ↔ t.kind = .endOfInput)) ∧
    (∀ tokens t e, tokenize input = .ok tokens → FailsAt tokens t e →
      (∃ found expected, e = .unexpectedToken found expected) ∨ t.kind = .closing .curly →
      ∀ more, ¬ Completes input more) ∧
    ∀ found span, tokenize input = .error ⟨.unexpectedCharacter found, span⟩ → ∀ more, ¬ Completes input more := by
  have hmark : (Token.mk .endOfInput (.point input.utf8ByteSize)).kind = .endOfInput := rfl
  refine ⟨fun tokens e htokens he => ?_, fun tokens t e htokens hfails hcause more hmore => ?_,
    fun found span hscan more hmore => ?_⟩
  · obtain ⟨ts, rfl, hts, -⟩ := tokenize_places htokens
    rw [readForms, htokens] at he
    obtain ⟨t, hfails⟩ := exists_failsAt hmark hts he
    obtain ⟨before, rest, opens, -, -, hfault⟩ := (failsAt_iff_fault hmark hts).mp hfails
    exact ⟨t, hfails, hfault.raisedBy, exists_completes_iff htokens hts hfails⟩
  · obtain ⟨ts, rfl, hts, -⟩ := tokenize_places htokens
    have hend : t.kind = .endOfInput := (exists_completes_iff htokens hts hfails).mp ⟨more, hmore⟩
    obtain ⟨found, expected, rfl⟩ | hcurly := hcause
    · obtain ⟨before, rest, opens, -, -, hfault⟩ := (failsAt_iff_fault hmark hts).mp hfails
      obtain ⟨-, hclosing⟩ : found = t ∧ t.kind.isClosing = true := hfault.raisedBy
      rw [hend] at hclosing
      cases hclosing
    · rw [hend] at hcurly
      cases hcurly
  · cases cause_of_completes hmore hscan

/-- In a vector, a map broken off after a key can be completed; once it is closed there, or a character comes that starts
no token, it cannot. -/
theorem completes_iff_failsAt_end_map : (∃ more, Completes "[\x7b:a" more) ∧ (∀ more, ¬ Completes "[\x7b:a\x7d" more) ∧
    ∀ more, ¬ Completes "[\x7b:a @" more := by
  refine ⟨?_, ?_, ?_⟩
  · have htokens : tokenize "[\x7b:a" = .ok [⟨.opening .square, 0, 1⟩, ⟨.opening .curly, 1, 2⟩,
        ⟨.atom (.keyword "a"), 2, 4⟩, ⟨.endOfInput, 4, 4⟩] := by
      cbv
    have he : readForms "[\x7b:a" = .error (.oddMap ⟨1, 4⟩) := by cbv
    obtain ⟨t, ⟨before, left, hread, heq⟩, -, hiff⟩ := (completes_iff_failsAt_end "[\x7b:a").1 _ _ htokens he
    have hleft : (TokenStream.ofTokens [⟨.opening .square, 0, 1⟩, ⟨.opening .curly, 1, 2⟩,
        ⟨.atom (.keyword "a"), 2, 4⟩, ⟨.endOfInput, 4, 4⟩]).readAll = (.error (.oddMap ⟨1, 4⟩), ⟨[], 4⟩) := by
      cbv
    rw [hleft] at hread
    cases hread
    have hlast := congrArg List.getLast? heq
    rw [List.getLast?_concat] at hlast
    cases hlast
    exact hiff.mpr rfl
  · have htokens : tokenize "[\x7b:a\x7d" = .ok [⟨.opening .square, 0, 1⟩, ⟨.opening .curly, 1, 2⟩,
        ⟨.atom (.keyword "a"), 2, 4⟩, ⟨.closing .curly, 4, 5⟩, ⟨.endOfInput, 5, 5⟩] := by
      cbv
    refine (completes_iff_failsAt_end "[\x7b:a\x7d").2.1 _ ⟨.closing .curly, 4, 5⟩ (.oddMap ⟨1, 5⟩) htokens ?_ (.inr rfl)
    exact ⟨[_, _, _], ⟨[⟨.endOfInput, 5, 5⟩], 5⟩, by cbv, rfl⟩
  · exact (completes_iff_failsAt_end "[\x7b:a @").2.2 '@' ⟨5, 6⟩ (by cbv)

end Prompt

end MusicLisp
