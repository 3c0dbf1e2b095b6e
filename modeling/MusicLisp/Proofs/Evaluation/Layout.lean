import MusicLisp.Evaluation
import MusicLisp.Proofs.Evaluation.Spanless
import MusicLisp.Proofs.Evaluation.Termination

/-!
# Layout and meaning

Where things stand in the source never matters for what they mean. Two evaluations of the same up to spans, in
sessions that are the same up to the spans in the bodies of their functions, go step by step alike and come to
the same, up to spans.

* `iterate_congr`, `ends_spanless`: runs of the machine from moments that are the same up to spans.
* `ReadAlike`, `ResultAlike`, `Session.Alike`: what may differ in what two texts read as, in what they come to,
  and in two sessions.
* `evaluate_alike`: **texts that read alike are evaluated alike.**
-/

namespace MusicLisp

namespace Machine

/-! ### Runs -/

section

variable {m m' : Machine}

theorem step_congr (h : m.spanless = m'.spanless) : (step m).spanless = (step m').spanless := by
  rw [← step_spanless m, h, step_spanless]

/-- **Two runs** from moments that are the same up to spans go on so. -/
theorem iterate_congr (h : m.spanless = m'.spanless) (n : Nat) :
    (step^[n] m).spanless = (step^[n] m').spanless := by
  induction n with
  | zero => exact h
  | succ n ih =>
    rw [Function.iterate_succ_apply', Function.iterate_succ_apply']
    exact step_congr ih

/-- They also end alike, though the ends may be reached at different times. -/
theorem ends_spanless {a a' : Machine} (h : m.spanless = m'.spanless) (ha : Reaches m a) (hfa : step a = a)
    (ha' : Reaches m' a') (hfa' : step a' = a') : a.spanless = a'.spanless := by
  obtain ⟨n, hn⟩ := ha
  obtain ⟨n', hn'⟩ := ha'
  have hlate : step^[n' + n] m = a := by
    rw [Function.iterate_add_apply, hn, Function.iterate_fixed hfa]
  have hlate' : step^[n' + n] m' = a' := by
    rw [Nat.add_comm, Function.iterate_add_apply, hn', Function.iterate_fixed hfa']
  rw [← hlate, ← hlate']
  exact iterate_congr h _

end

end Machine

/-! ### Evaluations -/

/-- What an evaluation comes to, without spans. -/
def Eval.spanless : EStateM.Result EvalError Session Value → EStateM.Result EvalError Session Value
  | .ok value s => .ok value.spanless s.spanless
  | .error e s => .error e.spanless s.spanless

namespace Eval

theorem spanless_ofResult (r : EStateM.Result EvalError Session Value) :
    (Machine.ofResult .answer [] r).spanless = Machine.ofResult .answer [] (spanless r) := by
  cases r <;> rfl

/-- Evaluations come to the same up to spans by both answering or both failing. -/
theorem spanless_eq_cases {r r' : EStateM.Result EvalError Session Value} (h : spanless r = spanless r') :
    (∃ v w s t, r = .ok v s ∧ r' = .ok w t ∧ v.spanless = w.spanless ∧ s.spanless = t.spanless) ∨
    ∃ e f s t, r = .error e s ∧ r' = .error f t ∧ e.spanless = f.spanless ∧ s.spanless = t.spanless := by
  cases r with
  | ok v s =>
    cases r' with
    | ok w t =>
      injection h with hvalue hsession
      exact .inl ⟨v, w, s, t, rfl, rfl, hvalue, hsession⟩
    | error f t => nomatch h
  | error e s =>
    cases r' with
    | ok w t => nomatch h
    | error f t =>
      injection h with herror hsession
      exact .inr ⟨e, f, s, t, rfl, rfl, herror, hsession⟩

end Eval

section

open Machine Eval

variable {s t : Session}

/-- **A form is evaluated alike** without its spans. -/
theorem eval_spanless {form form' : Form} (hform : form.bare = form'.bare) (frame : FrameId)
    (hst : s.spanless = t.spanless) :
    Eval.spanless (Session.eval form frame s) = Eval.spanless (Session.eval form' frame t) := by
  have hstart : (Machine.mk (.form form frame) [] s).spanless =
      (Machine.mk (.form form' frame) [] t).spanless :=
    spanless_eq (congrArg (Control.form · frame) hform) rfl hst
  have hends := ends_spanless hstart (reaches_eval sparesCounter_none form frame s) (step_ofResult_nil _)
    (reaches_eval sparesCounter_none form' frame t) (step_ofResult_nil _)
  rw [spanless_ofResult, spanless_ofResult] at hends
  exact ofResult_answer_injective hends

theorem evalForms_spanless {forms forms' : List Form} (hforms : forms.map Form.bare = forms'.map Form.bare)
    (frame : FrameId) {last last' : Value} (hlast : last.spanless = last'.spanless)
    (hst : s.spanless = t.spanless) :
    Eval.spanless (Session.evalForms forms last frame s) =
      Eval.spanless (Session.evalForms forms' last' frame t) := by
  induction forms generalizing forms' last last' s t with
  | nil =>
    obtain rfl := List.map_eq_nil_iff.mp hforms.symm
    change EStateM.Result.ok last.spanless s.spanless = .ok last'.spanless t.spanless
    rw [hlast, hst]
  | cons form rest ih =>
    obtain ⟨form', rest', rfl, hform, hrest⟩ := List.map_eq_cons_iff.mp hforms.symm
    unfold Session.evalForms
    change Eval.spanless (EStateM.bind _ _ s) = Eval.spanless (EStateM.bind _ _ t)
    unfold EStateM.bind
    obtain ⟨v, w, s', t', h, h', hvalue, hsession⟩ | ⟨e, f, s', t', h, h', herror, hsession⟩ :=
      spanless_eq_cases (eval_spanless hform.symm frame hst)
    · rw [h, h']
      exact ih hrest.symm hvalue hsession
    · rw [h, h']
      change EStateM.Result.error e.spanless s'.spanless = .error f.spanless t'.spanless
      rw [herror, hsession]

end

/-! ### Texts -/

/-- The error with its span forgotten, and that of the token it names. -/
def ReadError.spanless : ReadError → ReadError
  | unexpectedToken found expected => unexpectedToken { found with span := .point 0 } expected
  | unexpectedEnd expected _ => unexpectedEnd expected (.point 0)
  | oddMap _ => oddMap (.point 0)
  | scan e => scan { e with span := .point 0 }

/-- The error with its spans forgotten. -/
def ProgramError.spanless : ProgramError → ProgramError
  | read e => read e.spanless
  | eval e => eval e.spanless

theorem ProgramError.message_spanless (e : ProgramError) : e.spanless.message = e.message := by
  cases e with
  | read e => cases e <;> rfl
  | eval e => rfl

theorem ProgramError.label_spanless (e : ProgramError) : e.spanless.label = e.label := by
  cases e with
  | read e => cases e <;> rfl
  | eval e => rfl

/-- **Two texts read alike:** as the same forms up to spans, or they fail to for the same reason. -/
inductive ReadAlike : Except ReadError (List Form) → Except ReadError (List Form) → Prop
  | ok {forms forms' : List Form} (h : forms.map Form.bare = forms'.map Form.bare) :
    ReadAlike (.ok forms) (.ok forms')
  | error {e f : ReadError} (h : e.spanless = f.spanless) : ReadAlike (.error e) (.error f)

/-- **Two results are alike:** values that are the same up to the spans in their functions, and are shown the
same, or errors of the same kind that differ in nothing but spans, and say the same. -/
inductive ResultAlike : Except ProgramError Value → Except ProgramError Value → Prop
  | ok {v w : Value} (h : v.spanless = w.spanless) (htext : v.text = w.text) : ResultAlike (.ok v) (.ok w)
  | error {e f : ProgramError} (h : e.spanless = f.spanless) (hmessage : e.message = f.message)
    (hlabel : e.label = f.label) : ResultAlike (.error e) (.error f)

/-- **Two sessions are alike:** their functions may differ in the spans in their bodies. Which of the functions
made so far they are does not count, nor what the journals say. -/
structure Session.Alike (s t : Session) : Prop where
  settings : s.settings = t.settings
  scopes : s.scopes.spanless = t.scopes.spanless
  engine : s.engine = t.engine
  printed : s.printed = t.printed
  depth : s.depth = t.depth

theorem Session.alike_iff {s t : Session} : s.Alike t ↔ s.spanless = t.spanless := by
  constructor
  · rintro ⟨hsettings, hscopes, hengine, hprinted, hdepth⟩
    unfold spanless
    rw [hsettings, hscopes, hengine, hprinted, hdepth]
  · intro h
    injection h with hsettings hscopes hengine hprinted hdepth
    exact ⟨hsettings, hscopes, hengine, hprinted, hdepth⟩

theorem ResultAlike.of_values {v w : Value} (h : v.spanless = w.spanless) : ResultAlike (.ok v) (.ok w) :=
  .ok h (by rw [← v.text_spanless, h, w.text_spanless])

theorem ResultAlike.of_errors {e f : ProgramError} (h : e.spanless = f.spanless) :
    ResultAlike (.error e) (.error f) :=
  .error h (by rw [← e.message_spanless, h, f.message_spanless])
    (by rw [← e.label_spanless, h, f.label_spanless])

namespace Session

variable {a b : String} {s t : Session}

theorem run_alike (hread : ReadAlike (readForms a) (readForms b)) (hst : s.spanless = t.spanless) :
    ResultAlike (s.run a).1 (t.run b).1 ∧ (s.run a).2.spanless = (t.run b).2.spanless := by
  unfold run
  generalize readForms a = reading at hread
  generalize readForms b = reading' at hread
  cases hread with
  | error h => exact ⟨.of_errors (congrArg ProgramError.read h), hst⟩
  | @ok forms forms' h =>
    obtain ⟨v, w, s', t', hs, ht, hvalue, hsession⟩ | ⟨e, f, s', t', hs, ht, herror, hsession⟩ :=
      Eval.spanless_eq_cases (evalForms_spanless h globalFrame rfl
        (s := s.note (.parsed forms.length)) (t := t.note (.parsed forms'.length)) hst)
    · dsimp only
      rw [hs, ht]
      exact ⟨.of_values hvalue, hsession⟩
    · dsimp only
      rw [hs, ht]
      exact ⟨.of_errors (congrArg ProgramError.eval herror), hsession⟩

theorem noteResult_spanless (result : Except ProgramError Value) (s : Session) :
    (s.noteResult result).spanless = s.spanless := by
  cases result <;> rfl

end Session

/-- **Where things stand in the source never matters for what they mean.** Texts that read alike are evaluated
alike in sessions that are alike, print the same lines, and leave sessions that are alike. -/
theorem evaluate_alike {a b : String} {s t : Session} (hread : ReadAlike (readForms a) (readForms b))
    (hst : s.Alike t) : ResultAlike (s.evaluate a).1.result (t.evaluate b).1.result ∧
      (s.evaluate a).1.printed = (t.evaluate b).1.printed ∧ (s.evaluate a).2.Alike (t.evaluate b).2 := by
  have hstart : s.clearPrinted.resetDepth.spanless = t.clearPrinted.resetDepth.spanless :=
    congrArg (fun s : Session => s.clearPrinted.resetDepth) (Session.alike_iff.mp hst)
  obtain ⟨hresult, hleft⟩ := Session.run_alike hread hstart
  have hnoted : ((s.clearPrinted.resetDepth.run a).2.noteResult (s.clearPrinted.resetDepth.run a).1).spanless =
      ((t.clearPrinted.resetDepth.run b).2.noteResult (t.clearPrinted.resetDepth.run b).1).spanless := by
    rw [Session.noteResult_spanless, Session.noteResult_spanless, hleft]
  refine ⟨hresult, congrArg Array.toList (Session.alike_iff.mpr hnoted).printed, ?_⟩
  exact Session.alike_iff.mpr (congrArg Session.clearPrinted hnoted)

/-- A function with an unbound name in its body, read at two places and called by two texts, fails at two places
for the same reason. -/
theorem evaluate_alike_moved : ∃ s t : Session, s.scopes ≠ t.scopes ∧
    ReadAlike (readForms "(f)") (readForms "; f\n( f )") ∧ s.Alike t ∧
    (s.evaluate "(f)").1.result = .error (.eval ⟨.undefinedSymbol "nope", ⟨9, 13⟩⟩) ∧
    (t.evaluate "; f\n( f )").1.result = .error (.eval ⟨.undefinedSymbol "nope", ⟨20, 24⟩⟩) ∧
    ResultAlike (s.evaluate "(f)").1.result (t.evaluate "; f\n( f )").1.result ∧
    (s.evaluate "(f)").1.printed = (t.evaluate "; f\n( f )").1.printed ∧
    (s.evaluate "(f)").2.Alike (t.evaluate "; f\n( f )").2 := by
  let f (id : Nat) (span : Span) : Value :=
    .function (.lambda ⟨id, [], .atom span (.symbol "nope"), 0, some "f"⟩)
  let s := (Session.bare {} .fresh).bind 0 "f" (f 0 ⟨9, 13⟩)
  let t := (Session.bare {} .fresh).bind 0 "f" (f 1 ⟨20, 24⟩)
  have ha : readForms "(f)" = .ok [.list ⟨0, 3⟩ [.atom ⟨1, 2⟩ (.symbol "f")]] := by with_unfolding_all rfl
  have hb : readForms "; f\n( f )" = .ok [.list ⟨4, 9⟩ [.atom ⟨6, 7⟩ (.symbol "f")]] := by with_unfolding_all rfl
  have hread : ReadAlike (readForms "(f)") (readForms "; f\n( f )") := by
    rw [ha, hb]
    exact .ok rfl
  have hf : (f 0 ⟨9, 13⟩).spanless = (f 1 ⟨20, 24⟩).spanless := rfl
  have hscopes : s.scopes.spanless = t.scopes.spanless := by
    change (Scopes.bind 0 "f" _ _).spanless = (Scopes.bind 0 "f" _ _).spanless
    rw [← Scopes.bind_spanless, hf, Scopes.bind_spanless]
  have hst : s.Alike t := ⟨rfl, hscopes, rfl, rfl, rfl⟩
  refine ⟨s, t, ?_, hread, hst, ?_, ?_, evaluate_alike hread hst⟩
  · intro h
    cases h
  · unfold Session.evaluate Session.run
    rw [ha]
    with_unfolding_all rfl
  · unfold Session.evaluate Session.run
    rw [hb]
    with_unfolding_all rfl

end MusicLisp
