import MusicLisp.Proofs.Dict.Entries
import MusicLisp.Proofs.Evaluation.Termination

/-!
# Map literals

A map literal is evaluated pair by pair, and in a pair the key before the value. The value is put under the key of its
pair at the end of the pair, in place of what an earlier pair has put there.

* `Value.key?`: what a value stands for as a key. Keywords and strings are all keys in one space; `share_key_iff` says
  which of them meet.
* `Entered`: a run over the pairs, with the keys and values that it gets; there is one only (`Entered.unique`).
* `eval_map`: **a map literal** fails as its run fails, or comes to the map of the pairs of the run.
-/

namespace MusicLisp

/-! ### Keys -/

/-- **The key that a value is in a map**, if it can be one: a keyword with its colon, a string as it stands. -/
def Value.key? : Value → Option String
  | keyword name => some (":" ++ name)
  | string text => some text
  | _ => none

/-- **Two keys meet** only if one is a keyword and the other a string that spells it with its colon. -/
theorem Value.share_key_iff (a b : Value) : (a ≠ b ∧ ∃ key, a.key? = some key ∧ b.key? = some key) ↔
    ∃ w, (a = .keyword w ∧ b = .string (":" ++ w)) ∨ (b = .keyword w ∧ a = .string (":" ++ w)) := by
  constructor
  · rintro ⟨hne, key, ha, hb⟩
    cases a with
    | keyword w =>
      cases b with
      | keyword v =>
        have hsame : ":" ++ w = ":" ++ v := (Option.some.inj ha).trans (Option.some.inj hb).symm
        exact absurd (congrArg Value.keyword ((String.append_right_inj _).mp hsame)) hne
      | string t =>
        have hsame : ":" ++ w = t := (Option.some.inj ha).trans (Option.some.inj hb).symm
        exact ⟨w, .inl ⟨rfl, hsame ▸ rfl⟩⟩
      | _ => cases hb
    | string t =>
      cases b with
      | keyword w =>
        have hsame : t = ":" ++ w := (Option.some.inj ha).trans (Option.some.inj hb).symm
        exact ⟨w, .inr ⟨rfl, hsame ▸ rfl⟩⟩
      | string u =>
        have hsame : t = u := (Option.some.inj ha).trans (Option.some.inj hb).symm
        exact absurd (congrArg Value.string hsame) hne
      | _ => cases hb
    | _ => cases ha
  · rintro ⟨w, ⟨rfl, rfl⟩ | ⟨rfl, rfl⟩⟩
    · exact ⟨nofun, _, rfl, rfl⟩
    · exact ⟨nofun, _, rfl, rfl⟩

namespace Eval

theorem mapKey_eq (v : Value) (span : Span) (s : Session) : mapKey v span s =
    match v.key? with
    | some key => .ok key s
    | none => .error ⟨.invalidMapKey v.typeName, span⟩ s := by
  cases v <;> rfl

/-! ### Runs over pairs -/

/-- **A run over the pairs of a map literal** in a frame: from a session, with the keys and values it gets, to its end.
Each part is evaluated in the session that the part before it left. The run stops at the first part that fails; a key
that can be none fails when the value of its pair is there, before the pairs after it. -/
inductive Entered (frame : FrameId) : List (Form × Form) → Session → List (Value × Value) →
    EStateM.Result EvalError Session Unit → Prop
  | done {s : Session} : Entered frame [] s [] (.ok () s)
  | keyFails {keyForm valueForm : Form} {rest : List (Form × Form)} {s t : Session} {e : EvalError}
    (hkey : Session.eval keyForm frame s = .error e t) :
    Entered frame ((keyForm, valueForm) :: rest) s [] (.error e t)
  | valueFails {keyForm valueForm : Form} {rest : List (Form × Form)} {s t u : Session} {key : Value} {e : EvalError}
    (hkey : Session.eval keyForm frame s = .ok key t) (hvalue : Session.eval valueForm frame t = .error e u) :
    Entered frame ((keyForm, valueForm) :: rest) s [] (.error e u)
  | noKey {keyForm valueForm : Form} {rest : List (Form × Form)} {s t u : Session} {key value : Value}
    (hkey : Session.eval keyForm frame s = .ok key t) (hvalue : Session.eval valueForm frame t = .ok value u)
    (hnone : key.key? = none) :
    Entered frame ((keyForm, valueForm) :: rest) s [] (.error ⟨.invalidMapKey key.typeName, keyForm.span⟩ u)
  | pair {keyForm valueForm : Form} {rest : List (Form × Form)} {s t u : Session} {key value : Value} {name : String}
    {pairs : List (Value × Value)} {r : EStateM.Result EvalError Session Unit}
    (hkey : Session.eval keyForm frame s = .ok key t) (hvalue : Session.eval valueForm frame t = .ok value u)
    (hname : key.key? = some name) (hrest : Entered frame rest u pairs r) :
    Entered frame ((keyForm, valueForm) :: rest) s ((key, value) :: pairs) r

variable {frame : FrameId}

/-- There is one run only. -/
theorem Entered.unique {entries : List (Form × Form)} {s : Session} {pairs pairs' : List (Value × Value)}
    {r r' : EStateM.Result EvalError Session Unit} (h : Entered frame entries s pairs r)
    (h' : Entered frame entries s pairs' r') : pairs' = pairs ∧ r' = r := by
  induction h generalizing pairs' r' with
  | done =>
    cases h'
    exact ⟨rfl, rfl⟩
  | keyFails hkey =>
    cases h' with
    | keyFails hkey' =>
      cases hkey.symm.trans hkey'
      exact ⟨rfl, rfl⟩
    | valueFails hkey' | noKey hkey' | pair hkey' => cases hkey.symm.trans hkey'
  | valueFails hkey hvalue =>
    cases h' with
    | keyFails hkey' => cases hkey.symm.trans hkey'
    | valueFails hkey' hvalue' =>
      cases hkey.symm.trans hkey'
      cases hvalue.symm.trans hvalue'
      exact ⟨rfl, rfl⟩
    | noKey hkey' hvalue' | pair hkey' hvalue' =>
      cases hkey.symm.trans hkey'
      cases hvalue.symm.trans hvalue'
  | noKey hkey hvalue hnone =>
    cases h' with
    | keyFails hkey' => cases hkey.symm.trans hkey'
    | valueFails hkey' hvalue' =>
      cases hkey.symm.trans hkey'
      cases hvalue.symm.trans hvalue'
    | noKey hkey' hvalue' =>
      cases hkey.symm.trans hkey'
      cases hvalue.symm.trans hvalue'
      exact ⟨rfl, rfl⟩
    | pair hkey' hvalue' hname =>
      cases hkey.symm.trans hkey'
      cases hnone.symm.trans hname
  | pair hkey hvalue hname _ ih =>
    cases h' with
    | keyFails hkey' => cases hkey.symm.trans hkey'
    | valueFails hkey' hvalue' =>
      cases hkey.symm.trans hkey'
      cases hvalue.symm.trans hvalue'
    | noKey hkey' _ hnone =>
      cases hkey.symm.trans hkey'
      cases hnone.symm.trans hname
    | pair hkey' hvalue' _ hrest' =>
      cases hkey.symm.trans hkey'
      cases hvalue.symm.trans hvalue'
      obtain ⟨rfl, rfl⟩ := ih hrest'
      exact ⟨rfl, rfl⟩

/-- A run that does not fail gets a key and a value of every pair. -/
theorem Entered.length_eq {entries : List (Form × Form)} {s t : Session} {pairs : List (Value × Value)}
    (h : Entered frame entries s pairs (.ok () t)) : pairs.length = entries.length := by
  generalize hr : EStateM.Result.ok () t = r at h
  induction h with
  | done => rfl
  | keyFails | valueFails | noKey => cases hr
  | pair _ _ _ _ ih => exact congrArg (· + 1) (ih hr)

/-! ### The map -/

/-- Values under the keys of their pairs. -/
def keyed (pairs : List (Value × Value)) : List (String × Value) :=
  pairs.filterMap fun p => p.1.key?.map fun key => (key, p.2)

/-- **The value of the last pair with a key.** -/
def LastUnder (pairs : List (Value × Value)) (key : String) (value : Value) : Prop :=
  ∃ before keyValue after, pairs = before ++ (keyValue, value) :: after ∧ keyValue.key? = some key ∧
    ∀ p ∈ after, p.1.key? ≠ some key

theorem mem_ofEntries_keyed {pairs : List (Value × Value)} {key : String} {value : Value} :
    (key, value) ∈ Dict.ofEntries (keyed pairs) ↔ LastUnder pairs key value := by
  have hkeyed : ∀ (p : Value × Value) (v : Value),
      (p.1.key?.map fun key => (key, p.2)) = some (key, v) ↔ p.1.key? = some key ∧ p.2 = v := by
    rintro ⟨keyValue, w⟩ v
    simp [Option.map_eq_some_iff]
  unfold keyed LastUnder
  rw [Dict.mem_ofEntries_filterMap_iff]
  constructor
  · rintro ⟨before, ⟨keyValue, v⟩, after, rfl, hpair, hafter⟩
    obtain ⟨hkey, rfl⟩ := (hkeyed _ _).mp hpair
    exact ⟨before, keyValue, after, rfl, hkey, fun p hp hsame => hafter p hp p.2 ((hkeyed _ _).mpr ⟨hsame, rfl⟩)⟩
  · rintro ⟨before, keyValue, after, rfl, hkey, hafter⟩
    refine ⟨before, _, after, rfl, (hkeyed _ _).mpr ⟨hkey, rfl⟩, fun p hp v hv => ?_⟩
    exact hafter p hp ((hkeyed _ _).mp hv).1

/-- What a literal comes to whose run gets these pairs and ends so, if `found` was there before. -/
def literal (found : Dict Value) (pairs : List (Value × Value)) :
    EStateM.Result EvalError Session Unit → EStateM.Result EvalError Session Value
  | .ok _ t => .ok (.map ((keyed pairs).foldl (fun d entry => Dict.insert entry.1 entry.2 d) found)) t
  | .error e t => .error e t

theorem evalEntries_cons (run : Body) (keyForm valueForm : Form) (rest : List (Form × Form)) (found : Dict Value)
    (s : Session) : evalEntries run ((keyForm, valueForm) :: rest) found frame s =
      match evalForm run keyForm frame s with
      | .error e t => .error e t
      | .ok key t =>
        match evalForm run valueForm frame t with
        | .error e u => .error e u
        | .ok value u =>
          match key.key? with
          | some name => evalEntries run rest (found.insert name value) frame u
          | none => .error ⟨.invalidMapKey key.typeName, keyForm.span⟩ u := by
  rw [evalEntries]
  show EStateM.bind _ _ s = _
  unfold EStateM.bind
  cases evalForm run keyForm frame s with
  | error e t => rfl
  | ok key t =>
    dsimp only
    show EStateM.bind _ _ t = _
    unfold EStateM.bind
    cases evalForm run valueForm frame t with
    | error e u => rfl
    | ok value u =>
      dsimp only
      show EStateM.bind _ _ u = _
      unfold EStateM.bind
      rw [mapKey_eq]
      cases key.key? <;> rfl

/-- The evaluator makes the run, and puts each pair in when it has it. -/
theorem exists_entered {n : Nat} (entries : List (Form × Form)) (found : Dict Value) {s : Session} (hs : s.room = n) :
    ∃ pairs r, Entered frame entries s pairs r ∧
      evalEntries (bodyWithin n) entries found frame s = literal found pairs r := by
  induction entries generalizing found s with
  | nil =>
    refine ⟨[], _, .done, ?_⟩
    rw [evalEntries]
    rfl
  | cons entry rest ih =>
    obtain ⟨keyForm, valueForm⟩ := entry
    rw [evalEntries_cons]
    have heval : ∀ form, ∀ {t : Session}, t.room = n → evalForm (bodyWithin n) form frame t = Session.eval form frame t := by
      rintro form t rfl
      rfl
    cases hkey : evalForm (bodyWithin n) keyForm frame s with
    | error e t => exact ⟨[], _, .keyFails ((heval _ hs).symm.trans hkey), rfl⟩
    | ok key t =>
      have ht : t.room = n := Machine.room_of_form sparesCounter_none hkey hs
      dsimp only
      cases hvalue : evalForm (bodyWithin n) valueForm frame t with
      | error e u =>
        exact ⟨[], _, .valueFails ((heval _ hs).symm.trans hkey) ((heval _ ht).symm.trans hvalue), rfl⟩
      | ok value u =>
        have hu : u.room = n := Machine.room_of_form sparesCounter_none hvalue ht
        dsimp only
        cases hname : key.key? with
        | none =>
          exact ⟨[], _, .noKey ((heval _ hs).symm.trans hkey) ((heval _ ht).symm.trans hvalue) hname, rfl⟩
        | some name =>
          obtain ⟨pairs, r, hrest, hresult⟩ := ih (found.insert name value) hu
          refine ⟨(key, value) :: pairs, r,
            .pair ((heval _ hs).symm.trans hkey) ((heval _ ht).symm.trans hvalue) hname hrest, hresult.trans ?_⟩
          have hkeyed : keyed ((key, value) :: pairs) = (name, value) :: keyed pairs := by
            unfold keyed
            rw [List.filterMap_cons, hname]
            rfl
          unfold literal
          rw [hkeyed]
          rfl

/-- **A map literal.** It has one run over its pairs. Where the run fails, the literal fails with the same error and
leaves the same session. Where it does not, the literal comes to an ordered map, which has for each key the value of the
last pair with that key, and nothing else. Two different keys are one in a map exactly if one is a keyword and the other
the string of its colon and its name. -/
theorem eval_map (span : Span) (entries : List (Form × Form)) (frame : FrameId) (s : Session) :
    (∃ pairs r, Entered frame entries s pairs r ∧
      (∀ pairs' r', Entered frame entries s pairs' r' → pairs' = pairs ∧ r' = r) ∧
      match r with
      | .error e t => Session.eval (.map span entries) frame s = .error e t
      | .ok _ t => pairs.length = entries.length ∧ ∃ m, Session.eval (.map span entries) frame s = .ok (.map m) t ∧
        Dict.Ordered m ∧ ∀ key value, (key, value) ∈ m ↔ LastUnder pairs key value) ∧
    ∀ a b : Value, (a ≠ b ∧ ∃ key, a.key? = some key ∧ b.key? = some key) ↔
      ∃ w, (a = .keyword w ∧ b = .string (":" ++ w)) ∨ (b = .keyword w ∧ a = .string (":" ++ w)) := by
  refine ⟨?_, Value.share_key_iff⟩
  obtain ⟨pairs, r, hrun, hresult⟩ : ∃ pairs r, Entered frame entries s pairs r ∧
      evalEntries (bodyWithin s.room) entries [] frame s = literal [] pairs r := exists_entered entries [] rfl
  have heval : Session.eval (.map span entries) frame s = literal [] pairs r := by
    rw [← hresult]
    unfold Session.eval evalWithin
    rw [evalForm]
  refine ⟨pairs, r, hrun, fun _ _ h => hrun.unique h, ?_⟩
  cases r with
  | error e t => exact heval
  | ok _ t =>
    exact ⟨hrun.length_eq, _, heval, Dict.ordered_ofEntries _, fun key value => mem_ofEntries_keyed⟩

end Eval

end MusicLisp
