import MusicLisp.Proofs.Form.Reading
import MusicLisp.Proofs.Token.Places

/-!
# Brackets that are open

What can go wrong in reading forms can be told from the brackets that are open at a token, the innermost first, and
from whether a key of a map awaits its value.

* `Brackets.step`: what a token does to the open brackets, or what is wrong with it. `Brackets.run` takes one token
  after the other, and `Brackets.halt` says with which error it stops and before which tokens.
* `Spells.run`: the tokens of a form come to a form passed; **no bracket opened in it stays open**.
* `readAt_error`, `readItems_error`, `readEntries_error`, `readValue_error`: an error in reading is an error of the
  open brackets, and leaves the tokens that they stop before. By recursion on the stream, as in reading.
* `run_eq_readAll`, `run_eq_readForms`: **reading a marked stream, or a source, fails just as the open brackets do.**
* `readForms_error_placed`: where the error of a source stands.
-/

namespace MusicLisp

/-! ### Open brackets -/

/-- An open bracket, where it stands, and whether a key inside awaits its value. -/
structure OpenBracket where
  bracket : Bracket
  start : Span
  awaits : Bool
deriving DecidableEq, Repr

/-- The bracket after a form inside it: in a map, keys and values take turns. -/
def OpenBracket.passed (o : OpenBracket) : OpenBracket :=
  { o with awaits := decide (o.bracket = .curly) && !o.awaits }

namespace Brackets

/-- The open brackets after a form. -/
def passed : List OpenBracket → List OpenBracket
  | [] => []
  | o :: outer => o.passed :: outer

/-- **What a token does to the open brackets**, or what is wrong with it. -/
def step (opens : List OpenBracket) (t : Token) : Except ReadError (List OpenBracket) :=
  match t.kind, opens with
  | .opening b, opens => .ok (⟨b, t.span, false⟩ :: opens)
  | .atom _, opens => .ok (passed opens)
  | .closing _, [] => .error (.unexpectedToken t aForm)
  | .closing c, o :: outer =>
    if c ≠ o.bracket then .error (.unexpectedToken t o.bracket.expected)
    else if o.awaits then .error (.oddMap (o.start.merge t.span))
    else .ok (passed outer)
  | .endOfInput, [] => .ok []
  | .endOfInput, o :: _ =>
    if o.awaits then .error (.oddMap (o.start.merge t.span))
    else .error (.unexpectedEnd o.bracket.expected t.span)

/-- **What tokens one after the other do** to the open brackets. -/
def run (opens : List OpenBracket) (ts : List Token) : Except ReadError (List OpenBracket) :=
  ts.foldlM step opens

/-- **The first thing wrong** with tokens one after the other, and the tokens after the one that it is wrong with. -/
def halt : List OpenBracket → List Token → Option (ReadError × List Token)
  | _, [] => none
  | opens, t :: rest =>
    match step opens t with
    | .ok opens' => halt opens' rest
    | .error e => some (e, rest)

variable {opens opens' outer : List OpenBracket} {t : Token} {ts p rest : List Token} {e : ReadError}
variable {b : Bracket} {start : Span}

theorem run_append : run opens (ts ++ rest) = run opens ts >>= fun opens => run opens rest := List.foldlM_append

theorem run_cons (h : step opens t = .ok opens') : run opens (t :: ts) = run opens' ts := by
  unfold run
  rw [List.foldlM_cons, h]
  rfl

theorem run_cons_error (h : step opens t = .error e) : run opens (t :: ts) = .error e := by
  unfold run
  rw [List.foldlM_cons, h]
  rfl

theorem halt_cons (h : step opens t = .ok opens') : halt opens (t :: ts) = halt opens' ts := by
  rw [halt, h]

theorem halt_cons_error (h : step opens t = .error e) : halt opens (t :: ts) = some (e, ts) := by
  rw [halt, h]

/-- Tokens with which nothing is wrong are passed over. -/
theorem halt_append (h : run opens ts = .ok opens') : halt opens (ts ++ rest) = halt opens' rest := by
  induction ts generalizing opens with
  | nil => cases h; rfl
  | cons t ts ih =>
    cases hstep : step opens t with
    | error e =>
      rw [run_cons_error hstep] at h
      cases h
    | ok opens'' =>
      rw [run_cons hstep] at h
      rw [List.cons_append, halt_cons hstep, ih h]

/-- **Where the open brackets stop**: nothing is wrong with the tokens before. -/
theorem halt_eq_some_iff : halt opens ts = some (e, rest) ↔
    ∃ before t opens', ts = before ++ t :: rest ∧ run opens before = .ok opens' ∧ step opens' t = .error e := by
  constructor
  · intro h
    induction ts generalizing opens with
    | nil => cases h
    | cons t ts ih =>
      cases hstep : step opens t with
      | error e' =>
        rw [halt_cons_error hstep] at h
        cases h
        exact ⟨[], t, opens, rfl, rfl, hstep⟩
      | ok opens' =>
        rw [halt_cons hstep] at h
        obtain ⟨before, u, opens'', rfl, hrun, hu⟩ := ih h
        exact ⟨t :: before, u, opens'', rfl, (run_cons hstep).trans hrun, hu⟩
  · rintro ⟨before, t, opens', rfl, hrun, hstep⟩
    rw [halt_append hrun, halt_cons_error hstep]

theorem run_of_halt (h : halt opens ts = some (e, rest)) : run opens ts = .error e := by
  obtain ⟨before, t, opens', rfl, hrun, hstep⟩ := halt_eq_some_iff.mp h
  rw [run_append, hrun]
  exact run_cons_error hstep

theorem step_opening (h : t.kind = .opening b) : step opens t = .ok (⟨b, t.span, false⟩ :: opens) := by
  unfold step
  rw [h]

theorem step_atom {a : Atom} (h : t.kind = .atom a) : step opens t = .ok (passed opens) := by
  unfold step
  rw [h]

theorem step_closing (h : t.kind = .closing b) : step (⟨b, start, false⟩ :: outer) t = .ok (passed outer) := by
  unfold step
  rw [h]
  dsimp only
  rw [if_neg (not_not_intro rfl), if_neg Bool.false_ne_true]

theorem step_other {c : Bracket} {awaits : Bool} (h : t.kind = .closing c) (hc : c ≠ b) :
    step (⟨b, start, awaits⟩ :: outer) t = .error (.unexpectedToken t b.expected) := by
  unfold step
  rw [h]
  exact if_pos hc

theorem step_odd (h : t.kind = .closing b ∨ t.kind = .endOfInput) :
    step (⟨b, start, true⟩ :: outer) t = .error (.oddMap (start.merge t.span)) := by
  unfold step
  obtain h | h := h
  · rw [h]
    dsimp only
    rw [if_neg (not_not_intro rfl), if_pos rfl]
  · rw [h]
    rfl

theorem step_closing_nil (h : t.kind = .closing b) : step [] t = .error (.unexpectedToken t aForm) := by
  unfold step
  rw [h]

theorem step_end_nil (h : t.kind = .endOfInput) : step [] t = .ok [] := by
  unfold step
  rw [h]

theorem step_end (h : t.kind = .endOfInput) :
    step (⟨b, start, false⟩ :: outer) t = .error (.unexpectedEnd b.expected t.span) := by
  unfold step
  rw [h]
  rfl

/-- What can be wrong at the end of a source: the innermost bracket is open. -/
theorem step_end_error (h : t.kind = .endOfInput) (he : step opens t = .error e) :
    ∃ o outer, opens = o :: outer ∧ (o.awaits = true ∧ e = .oddMap (o.start.merge t.span) ∨
      o.awaits = false ∧ e = .unexpectedEnd o.bracket.expected t.span) := by
  unfold step at he
  rw [h] at he
  cases opens with
  | nil => cases he
  | cons o outer =>
    refine ⟨o, outer, rfl, ?_⟩
    dsimp only at he
    split at he
    · next hawaits =>
      cases he
      exact .inl ⟨hawaits, rfl⟩
    · next hawaits =>
      cases he
      exact .inr ⟨Bool.eq_false_iff.mpr hawaits, rfl⟩

/-- Nothing is wrong before tokens with which nothing is wrong. -/
theorem exists_run_of_append (h : run opens (ts ++ rest) = .ok opens') : ∃ between, run opens ts = .ok between := by
  rw [run_append] at h
  cases hrun : run opens ts with
  | error e =>
    rw [hrun] at h
    cases h
  | ok between => exact ⟨between, rfl⟩

/-- Tokens before one at which something is wrong. -/
theorem run_concat_error (h : run opens (ts ++ [t]) = .error e) :
    run opens ts = .error e ∨ ∃ opens', run opens ts = .ok opens' ∧ step opens' t = .error e := by
  rw [run_append] at h
  cases hrun : run opens ts with
  | error e' =>
    rw [hrun] at h
    cases h
    exact .inl rfl
  | ok opens' =>
    rw [hrun] at h
    refine .inr ⟨opens', rfl, ?_⟩
    cases hstep : step opens' t with
    | error e' =>
      rw [← h]
      exact (run_cons_error hstep).symm
    | ok opens'' =>
      have hok : run opens' [t] = .ok opens'' := run_cons hstep
      rw [show run opens' [t] = .error e from h] at hok
      cases hok

theorem passed_of_ne_curly (h : b ≠ .curly) :
    passed (⟨b, start, false⟩ :: outer) = ⟨b, start, false⟩ :: outer := by
  unfold passed OpenBracket.passed
  dsimp only
  rw [decide_eq_false h]
  rfl

end Brackets

/-! ### The tokens of forms -/

namespace Form

open Brackets

mutual

/-- **The tokens of a form** come to a form passed. -/
theorem Spells.run : ∀ {form : Form} {p : List Token}, form.Spells p → ∀ opens rest,
    Brackets.run opens (p ++ rest) = Brackets.run (passed opens) rest
  | atom _ _, _, h, opens, rest => by
    obtain ⟨t, rfl, ht, -⟩ := h
    exact run_cons (step_atom ht)
  | list _ _, _, h, opens, rest => by
    obtain ⟨o, q, c, rfl, ho, hc, -, hq⟩ := h
    rw [List.cons_append, run_cons (step_opening ho), List.append_assoc,
      SpellsAll.run hq (passed_of_ne_curly (by decide))]
    exact run_cons (step_closing hc)
  | vector _ _, _, h, opens, rest => by
    obtain ⟨o, q, c, rfl, ho, hc, -, hq⟩ := h
    rw [List.cons_append, run_cons (step_opening ho), List.append_assoc,
      SpellsAll.run hq (passed_of_ne_curly (by decide))]
    exact run_cons (step_closing hc)
  | map _ _, _, h, opens, rest => by
    obtain ⟨o, q, c, rfl, ho, hc, -, hq⟩ := h
    rw [List.cons_append, run_cons (step_opening ho), List.append_assoc, SpellsEntries.run hq]
    exact run_cons (step_closing hc)

/-- The tokens of forms leave brackets as they are in which forms do not take turns. -/
theorem SpellsAll.run : ∀ {forms : List Form} {p : List Token}, SpellsAll forms p →
    ∀ {opens : List OpenBracket}, passed opens = opens → ∀ rest,
    Brackets.run opens (p ++ rest) = Brackets.run opens rest
  | [], _, h, _, _, _ => by cases h; rfl
  | form :: _, _, h, opens, hopens, rest => by
    obtain ⟨q, r, rfl, hq, hr⟩ := h
    rw [List.append_assoc, Spells.run hq, hopens, SpellsAll.run hr hopens]

/-- The tokens of entries leave a map at a key. -/
theorem SpellsEntries.run : ∀ {entries : List (Form × Form)} {p : List Token}, SpellsEntries entries p →
    ∀ {start : Span} {outer : List OpenBracket} (rest : List Token),
    Brackets.run (⟨.curly, start, false⟩ :: outer) (p ++ rest) =
      Brackets.run (⟨.curly, start, false⟩ :: outer) rest
  | [], _, h, _, _, _ => by cases h; rfl
  | (key, value) :: _, _, h, _, _, rest => by
    obtain ⟨q, r, u, rfl, hq, hr, hu⟩ := h
    rw [List.append_assoc, Spells.run hq, List.append_assoc, Spells.run hr]
    exact SpellsEntries.run hu rest

end

end Form

/-- The tokens of forms and the mark leave no bracket open. -/
theorem Form.SpellsAll.run_mark {forms : List Form} {ts : List Token} (h : SpellsAll forms ts) (mark : Token)
    (hmark : mark.kind = .endOfInput) : Brackets.run [] (ts ++ [mark]) = .ok [] := by
  rw [h.run rfl]
  exact Brackets.run_cons (Brackets.step_end_nil hmark)

/-! ### Errors in reading -/

namespace TokenStream

open Form Brackets

/-- The mark is still to come. -/
def Marked (s : TokenStream) : Prop := ∃ t ∈ s.tokens, t.kind = .endOfInput

section

variable {t : Token} {s next : TokenStream} {form : Form} {hn : next.size ≤ s.size}

/-- What is left after a form that was read. -/
theorem halt_of_readAt (hr : readAt t s s (Nat.le_refl _) = ⟨.ok form, next, hn⟩) (opens : List OpenBracket) :
    halt opens (t :: s.tokens) = halt (passed opens) next.tokens := by
  obtain ⟨p, hp, hform⟩ := readAt_sound t _ _ _ hr
  have hrun := hform.run opens []
  rw [List.append_nil] at hrun
  rw [hp]
  exact halt_append hrun

theorem Marked.of_readAt (hs : s.Marked) (hr : readAt t s s (Nat.le_refl _) = ⟨.ok form, next, hn⟩) :
    next.Marked := by
  obtain ⟨p, hp, hform⟩ := readAt_sound t _ _ _ hr
  obtain ⟨u, hu, hend⟩ := hs
  rw [hp] at hu
  obtain hu | hu := List.mem_append.mp hu
  · have hmem : u.kind ∈ form.yield := by
      rw [← hform.map_kind]
      exact List.mem_map_of_mem (List.mem_cons_of_mem t hu)
    exact absurd (hend ▸ hmem) (endOfInput_not_mem_yield form)
  · exact ⟨u, hu, hend⟩

theorem Marked.tail {rest : List Token} {lastEnd : Nat} (hs : Marked ⟨t :: rest, lastEnd⟩)
    (ht : t.kind.Starts) : (after t rest).Marked := by
  obtain ⟨u, hu, hend⟩ := hs
  obtain rfl | hu := List.mem_cons.mp hu
  · rw [hend] at ht
    exact ht.elim
  · exact ⟨u, hu, hend⟩

end

mutual

/-- **A form that cannot be read** is wrong for the open brackets. -/
theorem readAt_error : ∀ (t : Token) (s top : TokenStream) (h : s.size ≤ top.size) {e : ReadError}
    {left : TokenStream} {hl : left.size ≤ top.size}, t.kind.Starts → s.Marked →
    readAt t s top h = ⟨.error e, left, hl⟩ → ∀ opens, halt opens (t :: s.tokens) = some (e, left.tokens)
  | t, s, top, h, e, left, hl, ht, hs, ha, opens => by
    unfold readAt at ha
    cases hk : t.kind with
    | opening b =>
      rw [hk] at ha
      rw [halt_cons (step_opening hk)]
      cases b with
      | round => exact readItems_error .list .round (by decide) t.span [] s top h hs ha opens
      | square => exact readItems_error .vector .square (by decide) t.span [] s top h hs ha opens
      | curly => exact readEntries_error t.span [] s top h hs ha opens
    | atom a =>
      rw [hk] at ha
      cases ha
    | closing _ | endOfInput => rw [hk] at ht; exact ht.elim
termination_by _ s => 2 * s.size + 1

theorem readItems_error (make : Span → List Form → Form) (b : Bracket) (hb : b ≠ .curly) (start : Span) :
    ∀ (found : List Form) (s top : TokenStream) (h : s.size ≤ top.size) {e : ReadError}
      {left : TokenStream} {hl : left.size ≤ top.size}, s.Marked →
    readItems make b start found s top h = ⟨.error e, left, hl⟩ →
    ∀ outer, halt (⟨b, start, false⟩ :: outer) s.tokens = some (e, left.tokens)
  | _, ⟨[], _⟩, _, _, _, _, _, ⟨_, hu, _⟩, _, _ => nomatch hu
  | found, ⟨t :: rest, lastEnd⟩, top, h, e, left, hl, hs, ha, outer => by
    unfold readItems at ha
    cases hk : t.kind with
    | closing c =>
      rw [hk] at ha
      dsimp only at ha
      split at ha
      · cases ha
      · next hc =>
        cases ha
        exact halt_cons_error (step_other hk hc)
    | endOfInput =>
      rw [hk] at ha
      cases ha
      exact halt_cons_error (step_end hk)
    | opening _ | atom _ =>
      rw [hk] at ha
      dsimp only at ha
      have ht : t.kind.Starts := by rw [hk]; trivial
      split at ha
      · next hr =>
        cases ha
        exact readAt_error t _ _ _ ht (hs.tail ht) hr _
      · next form next hn hr =>
        have hlt : next.size < size ⟨t :: rest, lastEnd⟩ := Nat.lt_succ_of_le hn
        refine (halt_of_readAt hr _).trans ?_
        rw [passed_of_ne_curly hb]
        exact readItems_error make b hb start _ next top _ ((hs.tail ht).of_readAt hr) ha outer
termination_by _ s => 2 * s.size
decreasing_by
  all_goals first
    | simp only [size, List.length_cons] at hlt ⊢; omega
    | simp only [size, after, List.length_cons]; omega

theorem readEntries_error (start : Span) :
    ∀ (found : List (Form × Form)) (s top : TokenStream) (h : s.size ≤ top.size) {e : ReadError}
      {left : TokenStream} {hl : left.size ≤ top.size}, s.Marked →
    readEntries start found s top h = ⟨.error e, left, hl⟩ →
    ∀ outer, halt (⟨.curly, start, false⟩ :: outer) s.tokens = some (e, left.tokens)
  | _, ⟨[], _⟩, _, _, _, _, _, ⟨_, hu, _⟩, _, _ => nomatch hu
  | found, ⟨t :: rest, lastEnd⟩, top, h, e, left, hl, hs, ha, outer => by
    unfold readEntries at ha
    cases hk : t.kind with
    | closing c =>
      rw [hk] at ha
      cases c with
      | curly => cases ha
      | round | square =>
        cases ha
        exact halt_cons_error (step_other hk (by decide))
    | endOfInput =>
      rw [hk] at ha
      cases ha
      exact halt_cons_error (step_end hk)
    | opening _ | atom _ =>
      rw [hk] at ha
      dsimp only at ha
      have ht : t.kind.Starts := by rw [hk]; trivial
      split at ha
      · next hr =>
        cases ha
        exact readAt_error t _ _ _ ht (hs.tail ht) hr _
      · next key next hn hr =>
        have hlt : next.size < size ⟨t :: rest, lastEnd⟩ := Nat.lt_succ_of_le hn
        refine (halt_of_readAt hr _).trans ?_
        exact readValue_error start found key next top _ ((hs.tail ht).of_readAt hr) ha outer
termination_by _ s => 2 * s.size
decreasing_by
  all_goals first
    | simp only [size, List.length_cons] at hlt ⊢; omega
    | simp only [size, after, List.length_cons]; omega

theorem readValue_error (start : Span) (found : List (Form × Form)) (key : Form) :
    ∀ (s top : TokenStream) (h : s.size ≤ top.size) {e : ReadError} {left : TokenStream}
      {hl : left.size ≤ top.size}, s.Marked →
    readValue start found key s top h = ⟨.error e, left, hl⟩ →
    ∀ outer, halt (⟨.curly, start, true⟩ :: outer) s.tokens = some (e, left.tokens)
  | ⟨[], _⟩, _, _, _, _, _, ⟨_, hu, _⟩, _, _ => nomatch hu
  | ⟨t :: rest, lastEnd⟩, top, h, e, left, hl, hs, ha, outer => by
    unfold readValue at ha
    cases hk : t.kind with
    | closing c =>
      rw [hk] at ha
      cases c with
      | curly =>
        cases ha
        exact halt_cons_error (step_odd (.inl hk))
      | round | square =>
        cases ha
        exact halt_cons_error (step_other hk (by decide))
    | endOfInput =>
      rw [hk] at ha
      cases ha
      exact halt_cons_error (step_odd (.inr hk))
    | opening _ | atom _ =>
      rw [hk] at ha
      dsimp only at ha
      have ht : t.kind.Starts := by rw [hk]; trivial
      split at ha
      · next hr =>
        cases ha
        exact readAt_error t _ _ _ ht (hs.tail ht) hr _
      · next value next hn hr =>
        have hlt : next.size < size ⟨t :: rest, lastEnd⟩ := Nat.lt_succ_of_le hn
        refine (halt_of_readAt hr _).trans ?_
        exact readEntries_error start _ next top _ ((hs.tail ht).of_readAt hr) ha outer
termination_by s => 2 * s.size
decreasing_by
  all_goals first
    | simp only [size, List.length_cons] at hlt ⊢; omega
    | simp only [size, after, List.length_cons]; omega

end

theorem readAllFrom_error : ∀ (found : List Form) (s : TokenStream) {e : ReadError} {left : TokenStream},
    s.Marked → readAllFrom found s = (.error e, left) → halt [] s.tokens = some (e, left.tokens)
  | _, ⟨[], _⟩, _, _, ⟨_, hu, _⟩, _ => nomatch hu
  | found, ⟨t :: rest, lastEnd⟩, e, left, hs, ha => by
    unfold readAllFrom at ha
    cases hk : t.kind with
    | endOfInput =>
      rw [hk] at ha
      cases ha
    | closing c =>
      rw [hk] at ha
      unfold readAt at ha
      rw [hk] at ha
      cases ha
      exact halt_cons_error (step_closing_nil hk)
    | opening _ | atom _ =>
      rw [hk] at ha
      dsimp only at ha
      have ht : t.kind.Starts := by rw [hk]; trivial
      split at ha
      · next hr =>
        cases ha
        exact readAt_error t _ _ _ ht (hs.tail ht) hr _
      · next form next hn hr =>
        have hlt : next.size < size ⟨t :: rest, lastEnd⟩ := Nat.lt_succ_of_le hn
        exact (halt_of_readAt hr _).trans (readAllFrom_error _ next ((hs.tail ht).of_readAt hr) ha)
termination_by _ s => s.size

section

variable {mark : Token} {ts : List Token} (hmark : mark.kind = .endOfInput)
  (hts : ∀ t ∈ ts, t.kind ≠ .endOfInput) (lastEnd : Nat)
include hmark

/-- **A marked stream that cannot be read** is left where the open brackets stop. -/
theorem halt_of_readAll {e : ReadError} {left : TokenStream} (ha : readAll ⟨ts ++ [mark], lastEnd⟩ = (.error e, left)) :
    halt [] (ts ++ [mark]) = some (e, left.tokens) :=
  readAllFrom_error [] _ ⟨mark, List.mem_append_right ts List.mem_cons_self, hmark⟩ ha

include hts

/-- **Reading a marked stream** fails just as the open brackets do, and leaves none open. -/
theorem run_eq_readAll : run [] (ts ++ [mark]) = (readAll ⟨ts ++ [mark], lastEnd⟩).1.map fun _ => [] := by
  cases ha : readAll ⟨ts ++ [mark], lastEnd⟩ with
  | mk answer left =>
    cases answer with
    | error e => exact run_of_halt (halt_of_readAll hmark lastEnd ha)
    | ok forms => exact ((readAll_iff hmark hts).mp (congrArg Prod.fst ha)).run_mark mark hmark

end

end TokenStream

/-! ### Errors in a source -/

namespace Brackets

variable {opens opens' : List OpenBracket} {t : Token} {ts : List Token} {e : ReadError} {bytes : Nat}

section

variable {P : OpenBracket → Prop} (hpassed : ∀ o, P o → P o.passed)
include hpassed

theorem passed_forall (hopens : ∀ o ∈ opens, P o) : ∀ o ∈ passed opens, P o := by
  cases opens with
  | nil => exact hopens
  | cons o outer =>
    obtain ⟨ho, houter⟩ := List.forall_mem_cons.mp hopens
    exact List.forall_mem_cons.mpr ⟨hpassed o ho, houter⟩

theorem step_forall (h : step opens t = .ok opens') (hnew : ∀ b, P ⟨b, t.span, false⟩)
    (hopens : ∀ o ∈ opens, P o) : ∀ o ∈ opens', P o := by
  unfold step at h
  split at h
  · cases h
    exact List.forall_mem_cons.mpr ⟨hnew _, hopens⟩
  · cases h
    exact passed_forall hpassed hopens
  · cases h
  · split at h
    · cases h
    · split at h
      · cases h
      · cases h
        exact passed_forall hpassed (List.forall_mem_cons.mp hopens).2
  · cases h
    exact hopens
  · split at h <;> cases h

/-- **What holds of new brackets** and is kept by forms inside holds of all brackets that are open. -/
theorem run_forall (h : run opens ts = .ok opens') (hnew : ∀ t ∈ ts, ∀ b, P ⟨b, t.span, false⟩)
    (hopens : ∀ o ∈ opens, P o) : ∀ o ∈ opens', P o := by
  induction ts generalizing opens with
  | nil => cases h; exact hopens
  | cons t ts ih =>
    cases hstep : step opens t with
    | error e =>
      rw [run_cons_error hstep] at h
      cases h
    | ok between =>
      rw [run_cons hstep] at h
      exact ih h (fun u hu => hnew u (List.mem_cons_of_mem t hu))
        (step_forall hpassed hstep (hnew t List.mem_cons_self) hopens)

end

theorem step_error_inside (h : step opens t = .error e) (ht : t.span.Inside bytes) (hend : t.kind ≠ .endOfInput)
    (hopens : ∀ o ∈ opens, o.start.Inside bytes) : e.span.Inside bytes := by
  unfold step at h
  split at h
  · cases h
  · cases h
  · cases h
    exact ht
  · split at h
    · cases h
      exact ht
    · split at h
      · cases h
        exact (hopens _ List.mem_cons_self).merge ht.bound
      · cases h
  · cases h
  · next hk => exact absurd hk hend

/-- Brackets stay open where tokens stand, and what is wrong reaches from one of them to the token. -/
theorem run_inside (opens : List OpenBracket) (hts : ∀ t ∈ ts, t.span.Inside bytes)
    (hend : ∀ t ∈ ts, t.kind ≠ .endOfInput) (hopens : ∀ o ∈ opens, o.start.Inside bytes) :
    match run opens ts with
    | .ok opens' => ∀ o ∈ opens', o.start.Inside bytes
    | .error e => e.span.Inside bytes := by
  induction ts generalizing opens with
  | nil => exact hopens
  | cons t ts ih =>
    have ht : t.span.Inside bytes := hts t List.mem_cons_self
    cases hstep : step opens t with
    | error e =>
      rw [run_cons_error hstep]
      exact step_error_inside hstep ht (hend t List.mem_cons_self) hopens
    | ok opens' =>
      rw [run_cons hstep]
      exact ih _ (fun u hu => hts u (List.mem_cons_of_mem t hu)) (fun u hu => hend u (List.mem_cons_of_mem t hu))
        (step_forall (fun _ ho => ho) hstep (fun _ => ht) hopens)

end Brackets

/-- **Reading a source** fails just as the open brackets do on its tokens. -/
theorem run_eq_readForms {source : String} {ts : List Token}
    (htokens : tokenize source = .ok (ts ++ [⟨.endOfInput, .point source.utf8ByteSize⟩])) :
    Brackets.run [] (ts ++ [⟨.endOfInput, .point source.utf8ByteSize⟩]) = (readForms source).map fun _ => [] := by
  obtain ⟨ts', heq, hts, -⟩ := tokenize_places htokens
  obtain rfl := List.append_cancel_right heq
  have hmark : (Token.mk .endOfInput (.point source.utf8ByteSize)).kind = .endOfInput := rfl
  rw [readForms, htokens]
  exact TokenStream.run_eq_readAll hmark hts 0

/-- A source that is cut into tokens and cannot be read goes wrong at one of them, or brackets are open at its end. -/
theorem readForms_error_cases {source : String} {ts : List Token}
    (htokens : tokenize source = .ok (ts ++ [⟨.endOfInput, .point source.utf8ByteSize⟩]))
    {e : ReadError} (h : readForms source = .error e) :
    Brackets.run [] ts = .error e ∨ ∃ o outer, Brackets.run [] ts = .ok (o :: outer) ∧
      (o.awaits = true ∧ e = .oddMap (o.start.merge (.point source.utf8ByteSize)) ∨
        o.awaits = false ∧ e = .unexpectedEnd o.bracket.expected (.point source.utf8ByteSize)) := by
  have hrun := run_eq_readForms htokens
  rw [h] at hrun
  obtain herror | ⟨opens, hok, hstep⟩ := Brackets.run_concat_error hrun
  · exact .inl herror
  · obtain ⟨o, outer, rfl, hcases⟩ := Brackets.step_end_error rfl hstep
    exact .inr ⟨o, outer, hok, hcases⟩

/-- **Where the error of a source stands**: it covers some bytes of the source, or it is at its end. -/
theorem readForms_error_placed {source : String} {e : ReadError} (h : readForms source = .error e) :
    e.span.Inside source.utf8ByteSize ∨ e.span = .point source.utf8ByteSize ∧ 0 < source.utf8ByteSize := by
  cases htokens : tokenize source with
  | error scan =>
    unfold readForms at h
    rw [htokens] at h
    cases h
    exact .inl (tokenize_error_inside htokens)
  | ok tokens =>
    obtain ⟨ts, rfl, hts, hplaced⟩ := tokenize_places htokens
    have hinside := Brackets.run_inside [] (fun t ht => (hplaced t ht).inside) hts nofun
    obtain herror | ⟨o, outer, hok, hcases⟩ := readForms_error_cases htokens h
    · rw [herror] at hinside
      exact .inl hinside
    · rw [hok] at hinside
      have ho : o.start.Inside source.utf8ByteSize := hinside o List.mem_cons_self
      obtain ⟨-, rfl⟩ | ⟨-, rfl⟩ := hcases
      · exact .inl (ho.merge (Nat.le_refl _))
      · exact .inr ⟨rfl, Nat.lt_of_le_of_lt (Nat.zero_le _) (Nat.lt_of_lt_of_le ho.nonempty ho.bound)⟩

end MusicLisp
