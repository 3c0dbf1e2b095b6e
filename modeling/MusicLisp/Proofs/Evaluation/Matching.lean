import MusicLisp.Evaluation
import MusicLisp.Proofs.Evaluation.Lockstep
import MusicLisp.Proofs.Form.Nodes

/-!
# Sessions that match

* `Session.Matches`: two sessions with the same settings, engine and counters and with frames that match, of which the
  second may have printed more before and may have noted other counts of forms.
* `lockstep_matches`: evaluations of forms that match keep it. So in sessions that match they come to values that
  match, or to errors that blame forms that match, with sessions that match (`Eval.alike_evalForms`).
* `Scopes.KeptBy`, `lockstep_keptBy`: a property of frames that evaluation of some forms keeps, and how it is kept.
* `Session.Matches.eq_of`, `Blames.eq_of`: for the relation of being the same form, sessions that match differ in the
  journal only.
* `evaluate_of_ok`, `evaluate_of_error`: what the evaluation of a text is, if the text can be read and if not.
-/

namespace MusicLisp

/-! ### What is noted -/

/-- The event counts the forms that were read. -/
def Event.isParsed : Event → Bool
  | .parsed _ => true
  | _ => false

/-- What is noted in a session but for counts of forms. -/
def Session.deeds (s : Session) : List Event := s.journal.toList.filter fun e => !e.isParsed

theorem Session.deeds_note (s : Session) (e : Event) :
    (s.note e).deeds = s.deeds ++ if e.isParsed then [] else [e] := by
  unfold deeds note
  rw [Array.toList_push, List.filter_append]
  cases h : e.isParsed with
  | true => rw [List.filter_singleton, h]; rfl
  | false => rw [List.filter_singleton, h]; rfl

/-! ### Sessions -/

/-- **Two sessions that differ in the bodies of their functions,** which are related, in what the second printed
before, and in how many forms they note to have read. -/
structure Session.Matches (R : Nat → Form → Form → Prop) (before : List String) (s t : Session) : Prop where
  settings : t.settings = s.settings
  scopes : s.scopes.Matches R t.scopes
  engine : t.engine = s.engine
  printed : t.printed.toList = before ++ s.printed.toList
  depth : t.depth = s.depth
  lambdas : t.lambdas = s.lambdas
  deeds : t.deeds = s.deeds

namespace Session.Matches

variable {R : Nat → Form → Form → Prop} {before : List String} {s t : Session}

theorem note (h : s.Matches R before t) (e : Event) : (s.note e).Matches R before (t.note e) where
  settings := h.settings
  scopes := h.scopes
  engine := h.engine
  printed := h.printed
  depth := h.depth
  lambdas := h.lambdas
  deeds := by rw [deeds_note, deeds_note, h.deeds]

theorem put (h : s.Matches R before t) (line : String) : (s.put line).Matches R before (t.put line) where
  settings := h.settings
  scopes := h.scopes
  engine := h.engine
  printed := by
    unfold Session.put
    rw [Array.toList_push, Array.toList_push, h.printed, List.append_assoc]
  depth := h.depth
  lambdas := h.lambdas
  deeds := h.deeds

theorem withEngine (h : s.Matches R before t) (e : Engine) :
    Matches R before { s with engine := e } { t with engine := e } :=
  ⟨h.settings, h.scopes, rfl, h.printed, h.depth, h.lambdas, h.deeds⟩

theorem perform (h : s.Matches R before t) (x : Effect) : (s.perform x).Matches R before (t.perform x) := by
  cases x with
  | none => exact h
  | print line =>
    unfold Session.perform
    dsimp only
    rw [h.settings]
    split
    · exact (h.note _).put line
    · exact h.put line
  | sleep seconds => exact h.note _
  | command c =>
    unfold Session.perform
    dsimp only
    rw [h.engine]
    exact (h.withEngine _).note _
  | setTempo bpm =>
    unfold Session.perform
    dsimp only
    rw [h.engine]
    exact (h.withEngine _).note _

theorem clearPrinted (h : s.Matches R before t) : s.clearPrinted.Matches R [] t.clearPrinted :=
  { h with printed := rfl }

/-- Counts of forms make no difference. -/
theorem parsed (h : s.Matches R before t) (m n : Nat) :
    (s.note (.parsed m)).Matches R before (t.note (.parsed n)) :=
  { h with
    deeds := by
      rw [deeds_note, deeds_note, h.deeds]
      rfl }

/-- A session matches itself if its frames do. -/
theorem of_scopes (h : s.scopes.Matches R s.scopes) : s.Matches R [] s := ⟨rfl, h, rfl, rfl, rfl, rfl, rfl⟩

/-- **Sessions that match by equality** differ in the journal only. -/
theorem eq_of (hR : ∀ id form form', R id form form' → form' = form) (h : s.Matches R [] t) :
    t = { s with journal := t.journal } := by
  obtain ⟨settings, scopes, engine, printed, depth, lambdas, journal⟩ := s
  obtain ⟨settings', scopes', engine', printed', depth', lambdas', journal'⟩ := t
  obtain ⟨rfl, hscopes, rfl, hprinted, rfl, rfl, -⟩ := h
  obtain rfl : scopes' = scopes := hscopes.eq_of hR
  obtain rfl : printed' = printed := Array.toList_inj.mp hprinted
  rfl

end Session.Matches

/-- Errors that blame forms that match have one cause, and the spans of two forms that match. -/
theorem Blames.exists_forms {R : Form → Form → Prop} {e f : EvalError} (h : Blames R e f) :
    f.cause = e.cause ∧ ∃ form form', R form form' ∧ e.span = form.span ∧ f.span = form'.span := by
  cases h with
  | symbol h => exact ⟨rfl, _, _, h, rfl, rfl⟩
  | head found h hhead => exact ⟨rfl, _, _, hhead, rfl, rfl⟩
  | call hcause h => exact ⟨rfl, _, _, h, rfl, rfl⟩
  | key found h hkey => exact ⟨rfl, _, _, hkey, rfl, rfl⟩
  | shape text h => exact ⟨rfl, _, _, h, rfl, rfl⟩

theorem Blames.eq_of {R : Form → Form → Prop} (hR : ∀ form form', R form form' → form' = form) {e f : EvalError}
    (h : Blames R e f) : f = e := by
  obtain ⟨hcause, form, form', hform, he, hf⟩ := h.exists_forms
  obtain ⟨cause, span⟩ := e
  obtain ⟨cause', span'⟩ := f
  rw [hR _ _ hform, ← he] at hf
  obtain rfl : cause' = cause := hcause
  exact congrArg _ hf

theorem Session.lambdas_perform (s : Session) (x : Effect) : (s.perform x).lambdas = s.lambdas := by
  rw [s.perform_eq x]

/-- **Evaluations of forms that match keep sessions that match.** The bodies of functions are forms that match, and for
the functions numbered from `base` on any such forms may be. -/
theorem lockstep_matches {R : Form → Form → Prop} {Q : Nat → Form → Form → Prop} {base : Nat}
    (hbody : ∀ id form form', Q id form form' → R form form')
    (hfresh : ∀ id form form', base ≤ id → R form form' → Q id form form') (before : List String) :
    Lockstep R Q fun s t => base ≤ s.lambdas ∧ s.Matches Q before t where
  depth h := h.2.depth.symm
  limit h := by rw [h.2.settings]
  next h := h.2.scopes.next
  lambdas h := h.2.lambdas.symm
  lookup _ h frame := h.2.scopes.lookup frame _
  bind _ hvw h frame := ⟨h.1, { h.2 with scopes := h.2.scopes.bind frame _ hvw }⟩
  enclose hde h outer := ⟨h.1, { h.2 with scopes := h.2.scopes.enclose outer hde }⟩
  body hform := hbody _ _ _ hform
  fresh hform h := hfresh _ _ _ h.1 hform
  made h := ⟨Nat.le_succ_of_le h.1, { h.2 with lambdas := congrArg (· + 1) h.2.lambdas }⟩
  deeper h := ⟨h.1, { h.2 with depth := congrArg (· + 1) h.2.depth }⟩
  back h := ⟨h.1, { h.2 with depth := congrArg (· - 1) h.2.depth }⟩
  answer {s _ _ _} h hargs op := by
    rw [h.2.settings, h.2.engine]
    exact op.answer_matches s.settings s.engine hargs
  perform {s _} h x := ⟨(s.lambdas_perform x).symm ▸ h.1, h.2.perform x⟩

/-- With a property of forms, the bodies of all functions have it. -/
theorem lockstep_same (P : Form → Prop) : Lockstep (Form.Same P) (fun _ => Form.Same P)
    fun s t => 0 ≤ s.lambdas ∧ s.Matches (fun _ => Form.Same P) [] t :=
  lockstep_matches (R := Form.Same P) (Q := fun _ => Form.Same P) (fun _ _ _ h => h) (fun _ _ _ _ h => h) []

/-- **A property of frames that evaluation keeps** if the forms that it meets have the property `P`: it is kept by
binding the name of such a symbol, and by making a frame. -/
structure Scopes.KeptBy (P : Form → Prop) (I : Scopes → Prop) : Prop where
  bind : ∀ {s span name}, P (.atom span (.symbol name)) → I s → ∀ frame v, I (s.bind frame name v)
  enclose : ∀ {s}, I s → ∀ outer d, I (s.enclose outer d)

theorem Scopes.keptBy_true (P : Form → Prop) : Scopes.KeptBy P fun _ => True :=
  ⟨fun _ _ _ _ => trivial, fun _ _ _ => trivial⟩

/-- With such a property of frames as well. -/
theorem lockstep_keptBy {P : Form → Prop} {I : Scopes → Prop} (hI : Scopes.KeptBy P I) :
    Lockstep (Form.Same P) (fun _ => Form.Same P)
      fun s t => (0 ≤ s.lambdas ∧ s.Matches (fun _ => Form.Same P) [] t) ∧ I s.scopes where
  depth h := (lockstep_same P).depth h.1
  limit h := (lockstep_same P).limit h.1
  next h := (lockstep_same P).next h.1
  lambdas h := (lockstep_same P).lambdas h.1
  lookup hform h := (lockstep_same P).lookup hform h.1
  bind hform hvw h frame := ⟨(lockstep_same P).bind hform hvw h.1 frame, hI.bind hform.2 h.2 frame _⟩
  enclose hde h outer := ⟨(lockstep_same P).enclose hde h.1 outer, hI.enclose h.2 outer _⟩
  body hform := hform
  fresh hform _ := hform
  made h := ⟨(lockstep_same P).made h.1, h.2⟩
  deeper h := ⟨(lockstep_same P).deeper h.1, h.2⟩
  back h := ⟨(lockstep_same P).back h.1, h.2⟩
  answer h hargs op := (lockstep_same P).answer h.1 hargs op
  perform {s _} h x := by
    refine ⟨(lockstep_same P).perform h.1 x, ?_⟩
    rw [s.perform_eq x]
    exact h.2

/-! ### Evaluations of a text -/

namespace Session

/-- The session in which the forms of a text are evaluated. -/
def ready (s : Session) (forms : List Form) : Session := s.clearPrinted.resetDepth.note (.parsed forms.length)

theorem deeds_ready (s : Session) (forms : List Form) : (s.ready forms).deeds = s.deeds := by
  unfold ready
  rw [deeds_note]
  exact List.append_nil _

/-- What an evaluation of forms comes to for the host. -/
def close : EStateM.Result EvalError Session Value → Evaluation × Session
  | .ok v s => (⟨.ok v, s.printed.toList⟩, s.clearPrinted)
  | .error e s => (⟨.error (.eval e), s.printed.toList⟩, (s.note (.failed e.cause.message)).clearPrinted)

theorem evaluate_of_ok [HostNatives] {source : String} {forms : List Form} (h : readForms source = .ok forms)
    (s : Session) : s.evaluate source = close (evalForms forms .nil globalFrame (s.ready forms)) := by
  unfold evaluate run
  rw [h]
  dsimp only
  unfold ready
  cases evalForms forms .nil globalFrame (s.clearPrinted.resetDepth.note (.parsed forms.length)) with
  | ok v t => rfl
  | error e t => rfl

theorem evaluate_of_error {source : String} {e : ReadError} (h : readForms source = .error e) (s : Session) :
    (s.evaluate source).1.result = .error (.read e) ∧ (s.evaluate source).2.scopes = s.scopes := by
  unfold evaluate run
  rw [h]
  exact ⟨rfl, rfl⟩

/-- What can be read fails only in evaluation. -/
theorem exists_eval_error {source : String} {forms : List Form} (h : readForms source = .ok forms) {s : Session}
    {err : ProgramError} (herr : (s.evaluate source).1.result = .error err) : ∃ e, err = .eval e := by
  rw [evaluate_of_ok h] at herr
  generalize evalForms forms .nil globalFrame (s.ready forms) = r at herr
  cases r with
  | ok v t => cases herr
  | error e t => exact ⟨e, (Except.error.inj herr).symm⟩

end Session

end MusicLisp
