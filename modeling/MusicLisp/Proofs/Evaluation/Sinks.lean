import MusicLisp.Proofs.Evaluation.Handles
import MusicLisp.Proofs.Evaluation.Matching
import MusicLisp.Proofs.Evaluation.Upheld
import MusicLisp.Proofs.Native.Effects

/-!
# Where lines and messages go

A printed line is kept for the host and, if the settings say so, noted in the journal. A message of the engine is
recorded by the engine and noted in the journal. The two places never tell different stories: with natives of the
standard operations alone, what an evaluation notes of lines and messages is what it printed and sent.

* `Event.onPrint`, `Event.bySend`: the events that are shown as lines and as messages.
* `Session.Tally`: what one session has more than another, the same in both places. Every effect of a standard operation
  adds to it (`tally_perform`), so all that an evaluation does (`upheld_tallied`).
* `Session.evaluate_of_confined`: **where no native of a host is bound, it does not matter what natives a host has**.
* `Session.Muted`: a second session that logs no lines and is the same in everything else. Evaluations keep this, whatever
  natives they call (`lockstep_muted`).
* `Session.evaluate_sinks`: both for **the evaluation of a text**, however it ends.
-/

namespace MusicLisp

namespace Event

/-- The event is shown as a line: it stands at the level and the target where lines are logged. -/
def onPrint (e : Event) : Bool := e.level == .info && e.target == "cadenza::print"

/-- The event is shown as a message that the engine recorded. -/
def bySend (e : Event) : Bool :=
  e.level == .debug && e.target == "cadenza::audio" && "offline engine ".toList.isPrefixOf e.text.toList

theorem onPrint_iff {e : Event} : e.onPrint ↔ ∃ line, e = .printed line := by
  cases e with
  | printed line => exact iff_of_true rfl ⟨line, rfl⟩
  | parsed | failed | slept | sent | tempoChanged => exact iff_of_false Bool.false_ne_true nofun

theorem bySend_iff {e : Event} : e.bySend ↔ ∃ message, e = .sent message := by
  cases e with
  | sent message =>
    refine iff_of_true ?_ ⟨message, rfl⟩
    unfold bySend text
    rw [String.toList_append]
    exact List.isPrefixOf_iff_prefix.mpr (List.prefix_append _ _)
  | tempoChanged bpm =>
    -- the same target, but the text begins in another way
    refine iff_of_false (fun h => ?_) nofun
    unfold bySend text at h
    rw [String.toList_append] at h
    cases h
  | parsed | failed | printed | slept => exact iff_of_false Bool.false_ne_true nofun

end Event

namespace Session

variable {s t u : Session} {events events' : List Event} {lines lines' : List String}
  {messages messages' : List Message}

/-! ### What was added -/

/-- **What `t` has more than `s`:** events in the journal, lines for the host, and messages of the engine. The events
that are shown as lines are the lines, if these are logged, and those shown as messages are the messages. -/
structure Tally (s t : Session) (events : List Event) (lines : List String) (messages : List Message) : Prop where
  settings : t.settings = s.settings
  journal : t.journal.toList = s.journal.toList ++ events
  printed : t.printed.toList = s.printed.toList ++ lines
  sent : t.engine.sent.toList = s.engine.sent.toList ++ messages
  onPrint : events.filter Event.onPrint = (if s.settings.logPrinted then lines else []).map .printed
  bySend : events.filter Event.bySend = messages.map .sent

namespace Tally

theorem refl (s : Session) : Tally s s [] [] [] where
  settings := rfl
  journal := (List.append_nil _).symm
  printed := (List.append_nil _).symm
  sent := (List.append_nil _).symm
  onPrint := by split <;> rfl
  bySend := rfl

theorem trans (h : Tally s t events lines messages) (h' : Tally t u events' lines' messages') :
    Tally s u (events ++ events') (lines ++ lines') (messages ++ messages') where
  settings := h'.settings.trans h.settings
  journal := by rw [h'.journal, h.journal, List.append_assoc]
  printed := by rw [h'.printed, h.printed, List.append_assoc]
  sent := by rw [h'.sent, h.sent, List.append_assoc]
  onPrint := by
    rw [List.filter_append, h.onPrint, h'.onPrint, h.settings, ← List.map_append]
    split <;> rfl
  bySend := by rw [List.filter_append, h.bySend, h'.bySend, List.map_append]

/-- An event that is of neither sort. -/
theorem note (s : Session) {e : Event} (hprint : ¬ e.onPrint) (hsend : ¬ e.bySend) : Tally s (s.note e) [e] [] [] where
  settings := rfl
  journal := Array.toList_push
  printed := (List.append_nil _).symm
  sent := (List.append_nil _).symm
  onPrint := by
    rw [List.filter_cons_of_neg hprint]
    split <;> rfl
  bySend := List.filter_cons_of_neg hsend

/-- A line that is printed. -/
theorem print (s : Session) (line : String) :
    Tally s (s.perform (.print line)) (if s.settings.logPrinted then [.printed line] else []) [line] [] := by
  unfold perform
  dsimp only
  cases hlog : s.settings.logPrinted with
  | true =>
    exact ⟨rfl, Array.toList_push, Array.toList_push, (List.append_nil _).symm, by rw [hlog]; rfl, rfl⟩
  | false =>
    exact ⟨rfl, (List.append_nil _).symm, Array.toList_push, (List.append_nil _).symm, by rw [hlog]; rfl, rfl⟩

/-- A command that the engine performs. -/
theorem command (s : Session) (c : Command) :
    Tally s (s.perform (.command c)) [.sent (s.engine.message c)] [] [s.engine.message c] where
  settings := rfl
  journal := Array.toList_push
  printed := (List.append_nil _).symm
  sent := Array.toList_push
  onPrint := by split <;> rfl
  bySend := List.filter_cons_of_pos (Event.bySend_iff.mpr ⟨_, rfl⟩)

/-- The engine's other event, which is of neither sort. -/
theorem setTempo (s : Session) (bpm : Float) : Tally s (s.perform (.setTempo bpm)) [.tempoChanged bpm] [] [] := by
  have hprint : ¬ (Event.tempoChanged bpm).onPrint := fun h => nomatch Event.onPrint_iff.mp h
  have hsend : ¬ (Event.tempoChanged bpm).bySend := fun h => nomatch Event.bySend_iff.mp h
  obtain ⟨hsettings, hjournal, hprinted, hsent, hon, hby⟩ := note s hprint hsend
  exact ⟨hsettings, hjournal, hprinted, hsent, hon, hby⟩

end Tally

/-- **An effect adds the same to both places.** -/
theorem tally_perform (s : Session) (x : Effect) :
    ∃ events lines messages, Tally s (s.perform x) events lines messages := by
  cases x with
  | none => exact ⟨_, _, _, .refl s⟩
  | print line => exact ⟨_, _, _, .print s line⟩
  | sleep seconds => exact ⟨_, _, _, .note s Bool.false_ne_true Bool.false_ne_true⟩
  | command c => exact ⟨_, _, _, .command s c⟩
  | setTempo bpm => exact ⟨_, _, _, .setTempo s bpm⟩

/-- **A session that has the same more than `s` in both places**, with no natives at hand but those of standard
operations. -/
structure Tallied (s t : Session) : Prop where
  confined : t.scopes.All (Value.Confined (· ∈ Operation.standard))
  tally : ∃ events lines messages, Tally s t events lines messages

namespace Tallied

/-- The frames and the counters do not matter, but for the natives in the frames. -/
theorem withScopes (h : Tallied s t) {scopes : Scopes}
    (hscopes : scopes.All (Value.Confined (· ∈ Operation.standard))) (depth lambdas : Nat) :
    Tallied s { t with scopes, depth, lambdas } := by
  obtain ⟨events, lines, messages, h⟩ := h.tally
  exact ⟨hscopes, events, lines, messages, h.settings, h.journal, h.printed, h.sent, h.onPrint, h.bySend⟩

theorem perform (h : Tallied s t) (x : Effect) : Tallied s (t.perform x) := by
  obtain ⟨events, lines, messages, htally⟩ := h.tally
  obtain ⟨events', lines', messages', hx⟩ := tally_perform t x
  refine ⟨?_, _, _, _, htally.trans hx⟩
  rw [Eval.scopes_perform]
  exact h.confined

end Tallied

/-- **All that an evaluation does** adds the same to both places, and does not depend on the host. -/
theorem upheld_tallied (host host' : HostNatives) (s : Session) :
    Eval.Upheld host host' (Value.Confined (· ∈ Operation.standard)) (Tallied s) where
  kind := Value.kind_confined _
  lambda := Value.confined_lambda
  lookup h hv := h.confined.lookup hv
  bind frame name _ h hv := h.withScopes (h.confined.bind frame name hv) _ _
  enclose outer _ h hentries := h.withScopes (h.confined.push (some outer) hentries) _ _
  counters depth lambdas h := h.withScopes h.confined depth lambdas
  native := by
    intro f args span hf hargs t ht
    obtain ⟨op, hcode, -⟩ := Value.confined_native.mp hf
    unfold Native.call
    rw [hcode]
    refine ⟨rfl, ?_⟩
    dsimp only
    unfold callNative
    cases hanswer : op.answer t.settings t.engine args with
    | error cause => exact .error _ ht
    | ok a =>
      refine .ok ?_ (ht.perform a.2)
      cases Operation.answer_yields (Value.kind_confined _) t.settings t.engine op hargs a hanswer with
      | old hv => exact hv
      | new => exact Value.confined_synthNode _

/-- **The host does not matter** where no native of a host is bound. -/
theorem evaluate_of_confined (host host' : HostNatives)
    (h : s.scopes.All (Value.Confined (· ∈ Operation.standard))) (code : String) :
    @evaluate host code s = @evaluate host' code s := by
  cases hread : readForms code with
  | error e =>
    unfold evaluate run
    rw [hread]
  | ok forms =>
    have hready : Tallied (s.ready forms) (s.ready forms) := ⟨h, _, _, _, .refl _⟩
    have hrun := Eval.upholds_evalForms (upheld_tallied host host' _) forms (Value.kind_confined _).nil globalFrame
      (s.ready forms) hready
    rw [@evaluate_of_ok host _ _ hread, @evaluate_of_ok host' _ _ hread, hrun.1]

/-- **What the evaluation of a text adds** to both places: the lines are those that the host gets with the result. -/
theorem exists_tally [host : HostNatives] (h : s.scopes.All (Value.Confined (· ∈ Operation.standard))) (code : String) :
    ∃ t events messages, Tally s.clearPrinted.resetDepth t events (s.evaluate code).1.printed messages ∧
      (s.evaluate code).2 = t.clearPrinted := by
  let base := s.clearPrinted.resetDepth
  -- the journal's own events of an evaluation are of neither sort
  have hfailed : ∀ (t : Session) (message : String), Tally t (t.note (.failed message)) [.failed message] [] [] :=
    fun t message => .note t Bool.false_ne_true Bool.false_ne_true
  cases hread : readForms code with
  | error e =>
    unfold evaluate run
    rw [hread]
    exact ⟨base.note (.failed e.message), _, _, hfailed base e.message, rfl⟩
  | ok forms =>
    have hparsed : Tally base (s.ready forms) [.parsed forms.length] [] [] :=
      .note base Bool.false_ne_true Bool.false_ne_true
    obtain ⟨-, hrun⟩ := Eval.upholds_evalForms (upheld_tallied host host base) forms (Value.kind_confined _).nil
      globalFrame (s.ready forms) ⟨h, _, _, _, hparsed⟩
    rw [evaluate_of_ok hread]
    generalize evalForms forms .nil globalFrame (s.ready forms) = r at hrun
    cases hrun with
    | @ok v t _ ht =>
      obtain ⟨events, lines, messages, htally⟩ := ht.tally
      obtain rfl : t.printed.toList = lines := htally.printed
      exact ⟨t, _, _, htally, rfl⟩
    | @error e t ht =>
      obtain ⟨events, lines, messages, htally⟩ := ht.tally
      obtain rfl : t.printed.toList = lines := htally.printed
      have hall := htally.trans (hfailed t e.cause.message)
      rw [List.append_nil] at hall
      exact ⟨_, _, _, hall, rfl⟩

/-! ### Without logging -/

/-- The session with settings by which printed lines are not logged. -/
def unlogged (s : Session) : Session := { s with settings := { s.settings with logPrinted := false } }

/-- **A session that logs no printed lines**, and is the same in everything else. What was noted `before` does not
matter. -/
structure Muted (before : List Event) (s t : Session) : Prop where
  settings : t.settings = { s.settings with logPrinted := false }
  scopes : t.scopes = s.scopes
  engine : t.engine = s.engine
  printed : t.printed = s.printed
  depth : t.depth = s.depth
  lambdas : t.lambdas = s.lambdas
  journal : ∃ events, s.journal.toList = before ++ events ∧
    t.journal.toList = before ++ events.filter fun e => !e.onPrint

namespace Muted

variable {before : List Event}

theorem eq_unlogged (h : s.Muted before t) : t = { s.unlogged with journal := t.journal } := by
  obtain ⟨settings, scopes, engine, printed, depth, lambdas, journal⟩ := t
  obtain ⟨hsettings, hscopes, hengine, hprinted, hdepth, hlambdas, -⟩ := h
  dsimp only at hsettings hscopes hengine hprinted hdepth hlambdas
  rw [hsettings, hscopes, hengine, hprinted, hdepth, hlambdas]
  rfl

/-- Events other than printed lines are noted in both. -/
theorem note (h : s.Muted before t) {e : Event} (he : ¬ e.onPrint) : (s.note e).Muted before (t.note e) where
  settings := h.settings
  scopes := h.scopes
  engine := h.engine
  printed := h.printed
  depth := h.depth
  lambdas := h.lambdas
  journal := by
    obtain ⟨events, hs, ht⟩ := h.journal
    refine ⟨events ++ [e], ?_, ?_⟩
    · rw [← List.append_assoc, ← hs]
      exact Array.toList_push
    · have hkept : [e].filter (fun e => !e.onPrint) = [e] := List.filter_cons_of_pos (by simpa using he)
      rw [List.filter_append, hkept, ← List.append_assoc, ← ht]
      exact Array.toList_push

/-- Printed lines are noted in the first only. -/
theorem note_printed (h : s.Muted before t) (line : String) : (s.note (.printed line)).Muted before t where
  settings := h.settings
  scopes := h.scopes
  engine := h.engine
  printed := h.printed
  depth := h.depth
  lambdas := h.lambdas
  journal := by
    obtain ⟨events, hs, ht⟩ := h.journal
    refine ⟨events ++ [.printed line], ?_, ?_⟩
    · rw [← List.append_assoc, ← hs]
      exact Array.toList_push
    · rw [List.filter_append, ht]
      exact congrArg (before ++ ·) (List.append_nil _).symm

theorem put (h : s.Muted before t) (line : String) : (s.put line).Muted before (t.put line) :=
  { h with printed := congrArg (·.push line) h.printed }

theorem withEngine (h : s.Muted before t) (e : Engine) :
    Muted before { s with engine := e } { t with engine := e } :=
  { h with engine := rfl }

theorem perform (h : s.Muted before t) (x : Effect) : (s.perform x).Muted before (t.perform x) := by
  cases x with
  | none => exact h
  | print line =>
    unfold Session.perform
    dsimp only
    rw [h.settings]
    split
    · exact (h.note_printed line).put line
    · exact h.put line
  | sleep seconds => exact h.note Bool.false_ne_true
  | command c =>
    unfold Session.perform
    dsimp only
    rw [h.engine]
    exact (h.withEngine _).note Bool.false_ne_true
  | setTempo bpm =>
    unfold Session.perform
    dsimp only
    rw [h.engine]
    exact (h.withEngine _).note Bool.false_ne_true

end Muted

end Session

/-- What an operation answers does not depend on whether lines are logged. -/
theorem Operation.answer_unlogged (settings : Settings) (engine : Engine) (op : Operation) (args : List Value) :
    op.answer { settings with logPrinted := false } engine args = op.answer settings engine args := by
  cases op <;> rfl

/-- **Forms are evaluated alike** whether or not lines are logged. -/
theorem lockstep_muted (before : List Event) :
    Lockstep (Form.Same fun _ => True) (fun _ => Form.Same fun _ => True) (Session.Muted before) where
  depth h := h.depth.symm
  limit h := by rw [h.settings]
  next h := by rw [h.scopes]
  lambdas h := h.lambdas.symm
  lookup {s t _ _ name} _ h frame := by
    rw [h.scopes]
    cases s.scopes.lookup frame name with
    | none => exact .none
    | some v => exact .some (Value.matches_self v fun _ _ => ⟨rfl, trivial⟩)
  bind hname hvw h frame := by
    obtain rfl := hvw.eq_of fun _ _ _ hform => hform.1
    exact { h with scopes := congrArg (Scopes.bind frame _ _) h.scopes }
  enclose hde h outer := by
    obtain rfl := (Value.entriesMatch_iff.mpr hde).eq_of fun _ _ _ hform => hform.1
    exact { h with scopes := congrArg (Scopes.enclose outer _) h.scopes }
  body h := h
  fresh h _ := h
  made h := { h with lambdas := congrArg (· + 1) h.lambdas }
  deeper h := { h with depth := congrArg (· + 1) h.depth }
  back h := { h with depth := congrArg (· - 1) h.depth }
  answer {s t args args'} h hargs op := by
    rw [h.settings, h.engine, op.answer_unlogged]
    exact op.answer_matches s.settings s.engine hargs
  perform h x := h.perform x

namespace Session

variable {s t : Session} {before : List Event}

theorem muted_unlogged (s : Session) : s.Muted s.journal.toList s.unlogged where
  settings := rfl
  scopes := rfl
  engine := rfl
  printed := rfl
  depth := rfl
  lambdas := rfl
  journal := ⟨[], (List.append_nil _).symm, (List.append_nil _).symm⟩

theorem Muted.clearPrinted (h : s.Muted before t) : s.clearPrinted.Muted before t.clearPrinted :=
  { h with printed := rfl }

theorem Muted.resetDepth (h : s.Muted before t) : s.resetDepth.Muted before t.resetDepth := { h with depth := rfl }

theorem Muted.ready (h : s.Muted before t) (forms : List Form) : (s.ready forms).Muted before (t.ready forms) := by
  unfold Session.ready
  exact h.clearPrinted.resetDepth.note Bool.false_ne_true

theorem Muted.failed (h : s.Muted before t) (message : String) :
    (s.note (.failed message)).clearPrinted.Muted before (t.note (.failed message)).clearPrinted :=
  (h.note (e := .failed message) Bool.false_ne_true).clearPrinted

/-- **A text comes to the same** whether or not lines are logged. -/
theorem Muted.evaluate (h : s.Muted before t) (code : String) :
    (t.evaluate code).1 = (s.evaluate code).1 ∧ (s.evaluate code).2.Muted before (t.evaluate code).2 := by
  cases hread : readForms code with
  | error e =>
    unfold Session.evaluate run
    rw [hread]
    exact ⟨rfl, h.clearPrinted.resetDepth.failed e.message⟩
  | ok forms =>
    have hforms : List.Forall₂ (Form.Same fun _ => True) forms forms :=
      List.forall₂_same.mpr fun _ _ => ⟨rfl, trivial⟩
    have hrun := Eval.alike_evalForms (Form.matching_same Form.closed_true) (lockstep_muted before) hforms .nil
      globalFrame (s.ready forms) (t.ready forms) (h.ready forms)
    rw [evaluate_of_ok hread, evaluate_of_ok hread]
    generalize evalForms forms .nil globalFrame (s.ready forms) = r at hrun
    generalize evalForms forms .nil globalFrame (t.ready forms) = r' at hrun
    cases hrun with
    | @ok v w s' t' hvw hst =>
      obtain rfl : w = v := hvw.eq_of fun _ _ _ hform => hform.1
      exact ⟨congrArg (Evaluation.mk (.ok w)) (congrArg Array.toList hst.printed), hst.clearPrinted⟩
    | @error e e' s' t' hblames hst =>
      obtain rfl : e' = e := hblames.eq_of fun _ _ hform => hform.1
      exact ⟨congrArg (Evaluation.mk (.error (.eval e'))) (congrArg Array.toList hst.printed),
        hst.failed e'.cause.message⟩

/-- In a fresh session only natives of the standard operations are bound. -/
theorem confined_start (settings : Settings) (engine : Engine) :
    (start settings engine).scopes.All (Value.Confined (· ∈ Operation.standard)) := by
  have hnone : ∀ entry ∈ ([] : List (String × Value)), entry.2.Confined (· ∈ Operation.standard) :=
    List.forall_mem_nil _
  refine start_induction (P := fun s => s.scopes.All (Value.Confined (· ∈ Operation.standard)))
    (Scopes.all_empty.push none hnone) fun entry hentry s hs => hs.bind globalFrame entry.1 ?_
  rcases List.mem_append.mp hentry with hentry | hentry
  · simp only [List.mem_cons, List.not_mem_nil, or_false] at hentry
    rcases hentry with rfl | rfl | rfl
    · exact (Value.kind_confined _).boolean true
    · exact (Value.kind_confined _).boolean false
    · exact (Value.kind_confined _).nil
  · obtain ⟨op, hop, rfl⟩ := List.mem_map.mp hentry
    exact Value.confined_native.mpr ⟨op, rfl, hop⟩

/-- **Lines and messages are the same in both places.** Evaluate any text in a session in which only natives of the
standard operations are bound. Of the events noted by then, those shown as lines are the lines that the host gets, in
order, if lines are logged, and none if not; those shown as messages are the messages that the engine has recorded. This
is so however the evaluation ends. Without logging the text comes to the same and leaves the same session, but for the
events of the lines. -/
theorem evaluate_sinks [host : HostNatives] (h : s.scopes.All (Value.Confined (· ∈ Operation.standard)))
    (code : String) : ∃ events messages,
      (s.evaluate code).2.journal.toList = s.journal.toList ++ events ∧
      (s.evaluate code).2.engine.sent.toList = s.engine.sent.toList ++ messages ∧
      events.filter Event.onPrint =
        (if s.settings.logPrinted then (s.evaluate code).1.printed else []).map .printed ∧
      events.filter Event.bySend = messages.map .sent ∧
      s.unlogged.evaluate code = ((s.evaluate code).1, { (s.evaluate code).2.unlogged with
        journal := (s.journal.toList ++ events.filter fun e => !e.onPrint).toArray }) := by
  obtain ⟨t, events, messages, htally, hafter⟩ := exists_tally h code
  rw [evaluate_of_confined (s := s.unlogged) host .none h code]
  obtain ⟨heq, hmuted⟩ := (muted_unlogged s).evaluate code
  rw [evaluate_of_confined .none host h code] at heq hmuted
  have hjournal : (s.evaluate code).2.journal.toList = s.journal.toList ++ events := hafter ▸ htally.journal
  refine ⟨events, messages, hjournal, hafter ▸ htally.sent, htally.onPrint, htally.bySend, Prod.ext heq ?_⟩
  -- the events of the two arguments are the same
  obtain ⟨events', hevents, hkept⟩ := hmuted.journal
  obtain rfl : events = events' := List.append_cancel_left (hjournal.symm.trans hevents)
  rw [hmuted.eq_unlogged, ← hkept]

set_option maxRecDepth 4000 in
/-- A text that prints a line and sends a message, and then fails. -/
theorem evaluate_sinks_midway : ∃ (s : Session) (code : String) (e : ProgramError),
    s.settings.logPrinted = true ∧ s.scopes.All (Value.Confined (· ∈ Operation.standard)) ∧
    (s.evaluate code).1.result = .error e ∧ (s.evaluate code).1.printed = [":a"] ∧
    (s.unlogged.evaluate code).1.printed = [":a"] ∧
    ∃ events, (s.evaluate code).2.journal.toList = s.journal.toList ++ events ∧
      events.filter Event.onPrint = [.printed ":a"] ∧ events.filter Event.bySend = [.sent ⟨"go", []⟩] := by
  have hread : readForms "(print :a) (osc :go) nope" = .ok [
      .list ⟨0, 10⟩ [.atom ⟨1, 6⟩ (.symbol "print"), .atom ⟨7, 9⟩ (.keyword "a")],
      .list ⟨11, 20⟩ [.atom ⟨12, 15⟩ (.symbol "osc"), .atom ⟨16, 19⟩ (.keyword "go")],
      .atom ⟨21, 25⟩ (.symbol "nope")] := by cbv
  have hresult : ((start {} .fresh).evaluate "(print :a) (osc :go) nope").1.result =
      .error (.eval ⟨.undefinedSymbol "nope", ⟨21, 25⟩⟩) := by
    rw [evaluate_of_ok hread]
    with_unfolding_all rfl
  have hprinted : ((start {} .fresh).evaluate "(print :a) (osc :go) nope").1.printed = [":a"] := by
    rw [evaluate_of_ok hread]
    with_unfolding_all rfl
  have hsent : ((start {} .fresh).evaluate "(print :a) (osc :go) nope").2.engine.sent.toList = [⟨"go", []⟩] := by
    rw [evaluate_of_ok hread]
    with_unfolding_all rfl
  obtain ⟨events, messages, hjournal, hmessages, hon, hby, hunlogged⟩ :=
    evaluate_sinks (confined_start {} .fresh) "(print :a) (osc :go) nope"
  obtain rfl : messages = [⟨"go", []⟩] := hmessages.symm.trans hsent
  rw [hprinted] at hon
  refine ⟨_, _, _, rfl, confined_start {} .fresh, hresult, hprinted, ?_, events, hjournal, hon, hby⟩
  rw [hunlogged]
  exact hprinted

end Session

end MusicLisp
