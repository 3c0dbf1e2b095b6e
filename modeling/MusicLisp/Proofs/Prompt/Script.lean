import MusicLisp.Proofs.Evaluation.Handles
import MusicLisp.Proofs.Evaluation.Joining
import MusicLisp.Proofs.Prompt.Lines

/-!
# A script at the prompt

A script that runs without an error can as well be typed at the prompt. The prompt submits it in chunks, each of which
is evaluated by itself in the session that the one before left. What the chunks are read as are the forms of the
script, up to spans, and a session differs between chunks from the session in the midst of the script only in what is
reset before each chunk: the lines printed before.

* `Session.Idle`: a session between evaluations.
* `exists_evalForms_ok`: one chunk against its forms in the script.
* `evaluateAll_chunks`: all chunks against the script. By induction on the chunks, with the lines printed before.
* `evaluateAll_submitted`: **a script at the prompt** prints the same lines and leaves the same engine and the same
  frames, up to the spans in the bodies of functions.
-/

namespace MusicLisp

/-- The same body of a function, up to spans. -/
def SameBody (_ : Nat) (body body' : Form) : Prop := body.bare = body'.bare

namespace Session

/-- **Between evaluations:** no lines are printed, and no call is nested. -/
structure Idle (s : Session) : Prop where
  printed : s.printed = #[]
  depth : s.depth = 0

theorem idle_start (settings : Settings) (engine : Engine) : (Session.start settings engine).Idle :=
  start_induction ⟨rfl, rfl⟩ fun _ _ _ hs => ⟨hs.printed, hs.depth⟩

theorem Idle.clearPrinted {s : Session} (h : s.Idle) : s.clearPrinted = s := by
  unfold Session.clearPrinted
  rw [← h.printed]

theorem Idle.ready {s : Session} (h : s.Idle) (forms : List Form) : s.ready forms = s.note (.parsed forms.length) := by
  obtain ⟨settings, scopes, engine, printed, depth, lambdas, journal⟩ := s
  obtain ⟨rfl, rfl⟩ := h
  rfl

/-- Forms after forms, if they do not fail. -/
theorem evalForms_append_ok {forms forms' : List Form} {last v : Value} {frame : FrameId} {s t : Session}
    (h : evalForms (forms ++ forms') last frame s = .ok v t) :
    ∃ w u, evalForms forms last frame s = .ok w u ∧ evalForms forms' w frame u = .ok v t := by
  rw [evalForms_append] at h
  change EStateM.bind _ _ s = _ at h
  unfold EStateM.bind at h
  cases hforms : evalForms forms last frame s with
  | ok w u =>
    rw [hforms] at h
    exact ⟨w, u, rfl, h⟩
  | error e u =>
    rw [hforms] at h
    cases h

/-! ### Chunks -/

section

variable {before : List String}

/-- **One chunk** against its forms in the script. What comes before the forms does not matter. -/
theorem exists_evalForms_ok {forms forms' : List Form} (hbares : forms.map Form.bare = forms'.map Form.bare)
    {s t u : Session} (hst : s.Matches SameBody before t) (last : Value) {last' v : Value}
    (h : evalForms forms' last' globalFrame t = .ok v u) :
    ∃ w r, evalForms forms last globalFrame s = .ok w r ∧ r.Matches SameBody before u := by
  cases forms with
  | nil =>
    obtain rfl := List.map_eq_nil_iff.mp hbares.symm
    cases h
    exact ⟨last, s, rfl, hst⟩
  | cons form rest =>
    have hne' : forms' ≠ [] := by
      rintro rfl
      cases hbares
    have hlockstep : Lockstep (fun form form' => form.bare = form'.bare) SameBody
        fun s t => 0 ≤ s.lambdas ∧ s.Matches SameBody before t :=
      lockstep_matches (Q := SameBody) (fun _ _ _ h => h) (fun _ _ _ _ h => h) before
    have houtcomes := Eval.alike_evalForms Form.matching_bare hlockstep (Form.forall₂_of_map_eq hbares) .nil globalFrame
      s t ⟨Nat.zero_le _, hst⟩
    rw [evalForms_last hne' _ last', h] at houtcomes
    rw [evalForms_last (List.cons_ne_nil form rest) last .nil]
    generalize evalForms (form :: rest) .nil globalFrame s = r at houtcomes ⊢
    cases houtcomes with
    | ok _ hst => exact ⟨_, _, rfl, hst.2⟩

/-- **Chunks, one after the other, against the forms of a script.** -/
theorem evaluateAll_chunks {chunks : List String} {parts : List (List Form)}
    (hchunks : List.Forall₂ (fun chunk part => readForms chunk = .ok part) chunks parts) {forms : List Form}
    (hbares : parts.flatten.map Form.bare = forms.map Form.bare) {s t u : Session} (hs : s.Idle)
    (hst : s.Matches SameBody before t) {last v : Value} (h : evalForms forms last globalFrame t = .ok v u) :
    (∀ evaluation ∈ (s.evaluateAll chunks).1, ∃ v, evaluation.result = .ok v) ∧
      u.printed.toList = before ++ (s.evaluateAll chunks).1.flatMap Evaluation.printed ∧
        (s.evaluateAll chunks).2.Matches SameBody [] u.clearPrinted := by
  induction hchunks generalizing forms s t before last with
  | nil =>
    obtain rfl := List.map_eq_nil_iff.mp hbares.symm
    cases h
    refine ⟨List.forall_mem_nil _, ?_, ?_⟩
    · rw [hst.printed, hs.printed]
      rfl
    · have hclear := hst.clearPrinted
      rw [hs.clearPrinted] at hclear
      exact hclear
  | @cons chunk part chunks parts hpart _ ih =>
    rw [List.flatten_cons, List.map_append] at hbares
    obtain ⟨forms₁, forms₂, rfl, hbares₁, hbares₂⟩ := List.map_eq_append_iff.mp hbares.symm
    obtain ⟨w, t₁, h₁, h₂⟩ := evalForms_append_ok h
    have hready : (s.ready part).Matches SameBody before t := by
      rw [hs.ready]
      exact { hst with deeds := hst.deeds.trans ((hs.ready part) ▸ deeds_ready s part).symm }
    obtain ⟨w', r, hr, hmatches⟩ := exists_evalForms_ok hbares₁.symm hready .nil h₁
    have hevaluate : s.evaluate chunk = (⟨.ok w', r.printed.toList⟩, r.clearPrinted) := by
      rw [evaluate_of_ok hpart, hr]
      rfl
    -- the lines of the chunk are taken, and the script has printed them as well
    have hidle : r.clearPrinted.Idle := ⟨rfl, depth_of_evalForms hr⟩
    have hnext : r.clearPrinted.Matches SameBody (before ++ r.printed.toList) t₁ :=
      { hmatches with printed := hmatches.printed.trans (List.append_nil _).symm }
    obtain ⟨hresults, hprinted, hleft⟩ := ih hbares₂.symm hidle hnext h₂
    unfold evaluateAll
    rw [hevaluate]
    dsimp only
    refine ⟨List.forall_mem_cons.mpr ⟨⟨w', rfl⟩, hresults⟩, ?_, hleft⟩
    rw [hprinted, List.flatMap_cons, List.append_assoc]

end

end Session

namespace Prompt

/-- **A script at the prompt.** Let a text be evaluated without an error in a fresh session, let none of its lines end
after a key that has no value yet, and let no entry ask to leave. Type it line by line into a line editor that takes
its pieces as they are. Then all chunks that it submits are evaluated without an error in a fresh session; together
they print the lines of the script, and they leave the same engine and the same frames, up to the spans in the bodies
of functions. -/
theorem evaluateAll_submitted (settings : Settings) (engine : Engine) (edit : List Char → List Char) (source : String)
    (hedit : ∀ input, input <:+: source.toList → edit input = input) (hkeys : KeysHaveValues source)
    (hstay : ∀ entry ∈ entriesBy edit [] (inputLines [] source.toList), isExit (trimmed entry) = false)
    {v : Value} (hok : ((Session.start settings engine).evaluate source).1.result = .ok v) :
    let start := Session.start settings engine
    let script := start.evaluate source
    let typed := start.evaluateAll (submitted edit source)
    (∀ evaluation ∈ typed.1, ∃ w, evaluation.result = .ok w) ∧
      typed.1.flatMap Evaluation.printed = script.1.printed ∧ typed.2.engine = script.2.engine ∧
        typed.2.Matches SameBody [] script.2 := by
  have hidle := Session.idle_start settings engine
  generalize Session.start settings engine = s at hok hidle
  intro start script typed
  cases hforms : readForms source with
  | error e =>
    rw [(Session.evaluate_of_error hforms s).1] at hok
    cases hok
  | ok forms =>
    have hsource : String.ofList ([] ++ source.toList) = source := String.ofList_toList
    obtain ⟨parts, hparts, hbares⟩ := exists_parts (lined_inputLines [] source.toList) (fun _ _ => rfl)
      (hsource.symm ▸ hforms) hedit (hsource.symm ▸ hkeys)
    obtain ⟨parts', hparts', hbares'⟩ := exists_parts_chunks hparts hstay
    have hscript : script = Session.close (Session.evalForms forms .nil globalFrame (s.ready forms)) :=
      Session.evaluate_of_ok hforms s
    have hready : s.Matches SameBody [] (s.ready forms) := by
      have hscopes : s.scopes.Matches SameBody s.scopes := Scopes.matches_self_iff.mpr fun _ _ => rfl
      have hself := Session.Matches.of_scopes hscopes
      rw [hidle.ready]
      exact { hself with deeds := (hidle.ready forms) ▸ Session.deeds_ready s forms }
    rw [Session.evaluate_of_ok hforms s] at hok
    rw [hscript]
    cases hrun : Session.evalForms forms .nil globalFrame (s.ready forms) with
    | error e u =>
      rw [hrun] at hok
      cases hok
    | ok w u =>
      obtain ⟨hresults, hprinted, hmatches⟩ :=
        Session.evaluateAll_chunks hparts' (hbares'.trans hbares) hidle hready hrun
      exact ⟨hresults, hprinted.symm, hmatches.engine.symm, hmatches⟩

set_option maxRecDepth 100000 in
/-- A map over two lines, then a comment that ends in a blank the scanner does not know, and a line that prints the
map: two chunks. -/
theorem evaluateAll_submitted_map : ∃ source : String,
    (∀ input, input <:+: source.toList → withoutBackspaces input = input) ∧ KeysHaveValues source ∧
    (∀ entry ∈ entriesBy withoutBackspaces [] (inputLines [] source.toList), isExit (trimmed entry) = false) ∧
    ((Session.start .standard .fresh).evaluate source).1.result = .ok .nil ∧
    submitted withoutBackspaces source = ["(def m \x7b:a :b\n:c :d\x7d) ;", "(print m)"] ∧
    ((Session.start .standard .fresh).evaluateAll (submitted withoutBackspaces source)).1.flatMap Evaluation.printed =
      ["\x7b:a :b, :c :d\x7d"] := by
  let source := "(def m \x7b:a :b\n:c :d\x7d) ;\u00a0\n(print m)"
  have hforms : readForms source = .ok [.list ⟨0, 21⟩ [.atom ⟨1, 4⟩ (.symbol "def"), .atom ⟨5, 6⟩ (.symbol "m"),
      .map ⟨7, 20⟩ [(.atom ⟨8, 10⟩ (.keyword "a"), .atom ⟨11, 13⟩ (.keyword "b")),
        (.atom ⟨14, 16⟩ (.keyword "c"), .atom ⟨17, 19⟩ (.keyword "d"))]],
      .list ⟨26, 35⟩ [.atom ⟨27, 32⟩ (.symbol "print"), .atom ⟨33, 34⟩ (.symbol "m")]] := by
    cbv
  have hedit : ∀ input, input <:+: source.toList → withoutBackspaces input = input := by
    intro input hinput
    exact withoutBackspaces_eq_self fun hmem => absurd (hinput.subset hmem) (by decide)
  have hkeys : KeysHaveValues source := by decide +kernel
  have hstay : ∀ entry ∈ entriesBy withoutBackspaces [] (inputLines [] source.toList),
      isExit (trimmed entry) = false := by
    decide +kernel
  have hok : ((Session.start .standard .fresh).evaluate source).1.result = .ok .nil := by
    rw [Session.evaluate_of_ok hforms]
    with_unfolding_all rfl
  have hprinted : ((Session.start .standard .fresh).evaluate source).1.printed = ["\x7b:a :b, :c :d\x7d"] := by
    rw [Session.evaluate_of_ok hforms]
    with_unfolding_all rfl
  obtain ⟨-, hlines, -⟩ := evaluateAll_submitted .standard .fresh withoutBackspaces source hedit hkeys hstay hok
  exact ⟨source, hedit, hkeys, hstay, hok, by decide +kernel, hlines.trans hprinted⟩

end Prompt

end MusicLisp
