import MusicLisp.Proofs.Evaluation.Handles
import MusicLisp.Proofs.Evaluation.Records
import MusicLisp.Proofs.Scopes.Heap

/-!
# The frames in all sessions

What frames there are, what is around them and what is bound in them is in order in every session that a host can come
to, whether evaluations answer or fail and whatever the host does with the frames in between.

* `Act.writes`, `Machine.writes`: the bindings that a step makes.
* `Machine.Sound`: at a moment the frames are those that the bindings so far leave, and all frames that the moment holds
  are there. **Every step keeps this** (`sound_step`), so it holds all through an evaluation.
* `Reachable`: the sessions that a host can come to, with all bindings made by then.
* `reachable_heap`: in these sessions the frames are well formed, and **look-up finds what the name was bound to last in
  the nearest frame in which it ever was**.
-/

namespace MusicLisp

/-- The bindings that an act makes, one after the other. -/
def Act.writes (s : Session) : Act → List Write
  | bind frame name value => [⟨frame, name, value⟩]
  | enclose _ entries => writesIn s.scopes.next entries
  | rest => []
  | perform _ _ => []

/-- **The bindings that the step from a moment makes.** -/
def Machine.writes (m : Machine) : List Write := m.act.writes m.session

theorem Machine.writes_of_rest (m : Machine) (h : m.act = .rest) : m.writes = [] := by
  rw [writes, h]
  rfl

/-- The frames of the session are those that this history leaves, and the global one is there. -/
structure Session.Sound (history : List Write) (s : Session) : Prop where
  global : globalFrame < s.scopes.next
  follows : s.scopes.Follows history

/-- **A moment whose frames are those that this history leaves**, with all frames that it holds among them. -/
structure Machine.Sound (history : List Write) (m : Machine) : Prop where
  session : m.session.Sound history
  only : m.Only m.session.scopes.Made

namespace Act

variable {s : Session} {a : Act}

/-- What is there before an act is there after it. -/
theorem made_on (a : Act) (h : Handle) (hh : s.scopes.Made h) : (a.on s).scopes.Made h := by
  cases a with
  | rest => exact hh
  | bind frame name value =>
    change (s.scopes.bind frame name value).Made h
    rwa [Scopes.made_bind]
  | enclose outer entries => exact Scopes.made_push _ h hh
  | perform op effect =>
    change (s.perform effect).scopes.Made h
    rwa [Eval.scopes_perform]

theorem made_of_makes {h : Handle} (hmakes : a.Makes s h) : (a.on s).scopes.Made h := by
  cases hmakes with
  | frame => exact Nat.lt_of_lt_of_eq (Nat.lt_succ_self _) (Scopes.next_push s.scopes _).symm
  | node => trivial

/-- An act leaves the frames that its bindings leave. -/
theorem sound_on {history : List Write} (h : s.Sound history) (ha : a.Only s.scopes.Made) :
    (a.on s).Sound (history ++ a.writes s) where
  global := made_on a (.frame globalFrame) h.global
  follows := by
    cases a with
    | rest =>
      rw [writes, List.append_nil]
      exact h.follows
    | bind frame name value => exact h.follows.bind ha.1 name ha.2
    | enclose outer entries =>
      have houter : ∀ o, some outer = some o → o < s.scopes.next := fun o ho => Option.some.inj ho ▸ ha.1
      exact h.follows.push houter ha.2
    | perform op effect =>
      rw [writes, List.append_nil]
      change (s.perform effect).scopes.Follows history
      rw [Eval.scopes_perform]
      exact h.follows

end Act

/-- Only the frames matter. -/
theorem Session.Sound.of_scopes {history : List Write} {s t : Session} (h : s.Sound history)
    (hscopes : t.scopes = s.scopes) : t.Sound history := ⟨hscopes ▸ h.global, hscopes ▸ h.follows⟩

/-- **Every step keeps the frames sound.** -/
theorem Machine.sound_step (history : List Write) (m : Machine) (h : m.Sound history) :
    (step m).Sound (history ++ m.writes) := by
  have hscopes : (step m).session.scopes = (m.act.on m.session).scopes := (step_act m).1
  refine ⟨(Act.sound_on h.session (only_act h.only)).of_scopes hscopes, ?_⟩
  rw [hscopes]
  exact only_step (h.only.mono (Act.made_on m.act)) fun _ => Act.made_of_makes

/-! ### Calls of a host -/

namespace Host

/-- All that the host hands over is there. -/
def Allowed (s : Session) : Host → Prop
  | evaluate _ => True
  | eval _ frame => frame < s.scopes.next
  | apply f args _ => (Value.function f).Only s.scopes.Made ∧ ∀ v ∈ args, v.Only s.scopes.Made

variable {s : Session} {history log : List Write} {call : Host}

theorem sound_start (h : s.Sound history) (hcall : call.Allowed s) {m : Machine} (hm : call.start? s = some m) :
    m.Sound history := by
  cases call with
  | evaluate source =>
    cases hread : readForms source with
    | error e => cases (start?_evaluate_of_error hread s).symm.trans hm
    | ok forms =>
      cases (start?_evaluate_of_ok hread s).symm.trans hm
      exact ⟨⟨h.global, h.follows⟩, ⟨Value.only_nil, h.global⟩, nofun, h.follows.wellFormed.closures⟩
  | eval form frame =>
    cases hm
    exact ⟨h, hcall, nofun, h.follows.wellFormed.closures⟩
  | apply f args span =>
    cases hm
    exact ⟨h, hcall, nofun, h.follows.wellFormed.closures⟩

/-- **A call of the host keeps the frames sound**, and all functions in its answer were made in frames that are there. -/
theorem sound_run (h : s.Sound history) (hcall : call.Allowed s) (hlog : call.Records Machine.writes s log) :
    (call.run s).Sound (history ++ log) ∧ ∀ v, call.answer? s = some v → v.Only (call.run s).scopes.Made := by
  cases hlog with
  | unread hstart =>
    obtain ⟨hscopes, -, hanswer⟩ := of_start?_eq_none hstart
    rw [List.append_nil]
    exact ⟨h.of_scopes hscopes, fun v hv => by cases hanswer.symm.trans hv⟩
  | @run m e _ hstart hend hrun =>
    have hsound : e.Sound (history ++ log) := hrun.keeps Machine.sound_step (sound_start h hcall hstart)
    refine ⟨hsound.session.of_scopes hend.scopes.symm, fun v hv => ?_⟩
    have hcontrol := hsound.only.control
    rwa [hend.answer v hv, hend.scopes] at hcontrol

end Host

/-! ### All sessions -/

/-- The bindings of a fresh session. -/
def startWrites : List Write := writesIn globalFrame startEntries

/-- **The sessions that a host can come to**, with all bindings made by then. It evaluates texts, forms in frames and
calls, makes frames on their own or inside others, binds names in frames, and does whatever leaves the frames alone. It
gives no frame that is not there, nor a function made in one. -/
inductive Reachable (settings : Settings) (engine : Engine) : List Write → Session → Prop
  | start : Reachable settings engine startWrites (Session.start settings engine)
  | call {history log : List Write} {s : Session} (h : Reachable settings engine history s) {call : Host}
    (hcall : call.Allowed s) (hlog : call.Records Machine.writes s log) :
    Reachable settings engine (history ++ log) (call.run s)
  | root {history : List Write} {s : Session} (h : Reachable settings engine history s) :
    Reachable settings engine history { s with scopes := s.scopes.pushRoot }
  | enclosed {history : List Write} {s : Session} (h : Reachable settings engine history s) {outer : FrameId}
    (houter : outer < s.scopes.next) : Reachable settings engine history (s.enclose outer [])
  | set {history : List Write} {s : Session} (h : Reachable settings engine history s) {frame : FrameId}
    (hframe : frame < s.scopes.next) (name : String) {value : Value} (hvalue : value.Only s.scopes.Made) :
    Reachable settings engine (history ++ [⟨frame, name, value⟩]) (s.bind frame name value)
  | other {history : List Write} {s t : Session} (h : Reachable settings engine history s)
    (hscopes : t.scopes = s.scopes) : Reachable settings engine history t

theorem Scopes.follows_empty : Scopes.empty.Follows [] where
  wellFormed := {
    outer := fun i outer h => by cases (outer?_eq_none empty (Nat.zero_le i)).symm.trans h
    ordered := nofun
    closures := only_empty }
  bound i name := bound?_eq_none empty (Nat.zero_le i) name

/-- Values without handles may be bound in the global frame one after the other. -/
theorem Session.Sound.foldl_bind {history : List Write} {s : Session} (h : s.Sound history)
    (entries : List (String × Value)) (hentries : ∀ entry ∈ entries, ∀ A, entry.2.Only A) :
    (entries.foldl (fun s entry => s.bind globalFrame entry.1 entry.2) s).Sound
      (history ++ writesIn globalFrame entries) := by
  induction entries generalizing history s with
  | nil =>
    change s.Sound (history ++ [])
    rwa [List.append_nil]
  | cons entry rest ih =>
    obtain ⟨hentry, hrest⟩ := List.forall_mem_cons.mp hentries
    have hbind := Act.sound_on (a := .bind globalFrame entry.1 entry.2) h ⟨h.global, hentry _⟩
    have := ih hbind hrest
    rwa [List.append_assoc] at this

theorem sound_start (settings : Settings) (engine : Engine) : (Session.start settings engine).Sound startWrites := by
  have hbare : (Session.bare settings engine).Sound [] := by
    have houter : ∀ o, (none : Option FrameId) = some o → o < Scopes.empty.next := nofun
    have hnone : ∀ entry ∈ ([] : List (String × Value)), entry.2.Only Scopes.empty.Made := nofun
    exact ⟨Nat.zero_lt_one, Scopes.follows_empty.push houter hnone⟩
  rw [Session.start_eq]
  exact hbare.foldl_bind startEntries fun entry hentry A => only_startEntries entry hentry

theorem sound_reachable {settings : Settings} {engine : Engine} {history : List Write} {s : Session}
    (h : Reachable settings engine history s) : s.Sound history := by
  induction h with
  | start => exact sound_start settings engine
  | call _ hcall hlog ih => exact (Host.sound_run ih hcall hlog).1
  | @root history s _ ih =>
    have houter : ∀ o, (none : Option FrameId) = some o → o < s.scopes.next := nofun
    have hnone : ∀ entry ∈ ([] : List (String × Value)), entry.2.Only s.scopes.Made := nofun
    have hpush := ih.follows.push houter hnone
    rw [show writesIn s.scopes.next [] = [] from rfl, List.append_nil] at hpush
    exact ⟨Scopes.made_push _ (.frame globalFrame) ih.global, hpush⟩
  | @enclosed history s _ outer houter ih =>
    have hnone : ∀ entry ∈ ([] : List (String × Value)), entry.2.Only s.scopes.Made := nofun
    have henclose := Act.sound_on (a := .enclose outer []) ih ⟨houter, hnone⟩
    rwa [show Act.writes s (.enclose outer []) = [] from rfl, List.append_nil] at henclose
  | @set history s _ frame hframe name value hvalue ih =>
    exact Act.sound_on (a := .bind frame name value) ih ⟨hframe, hvalue⟩
  | other _ hscopes ih => exact ih.of_scopes hscopes

/-- **The frames are in order in every session a host can come to.** They are well formed. What a call of the host puts
on record is determined, and the functions that it answers were made in frames that are there. The path of a frame comes
to no frame twice, and what a name stands for is what it was bound to last in the first frame on the path in which it
ever was bound; it is had, and is among the names, just if it stands for something. -/
theorem reachable_heap {settings : Settings} {engine : Engine} {history : List Write} {s : Session}
    (h : Reachable settings engine history s) :
    s.scopes.WellFormed ∧
    (∀ call : Host, call.Allowed s → (∃! log, call.Records Machine.writes s log) ∧
      ∀ v, call.answer? s = some v → v.Only (call.run s).scopes.Made) ∧
    ∀ f < s.scopes.next, ∃ path, s.scopes.Path f path ∧ path.Pairwise (· > ·) ∧ ∀ name,
      s.scopes.lookup f name = (path.findSome? fun i => latest history i name) ∧
      (s.scopes.has f name ↔ ∃ v, s.scopes.lookup f name = some v) ∧
      (name ∈ s.scopes.names f ↔ s.scopes.has f name) := by
  have hsound := sound_reachable h
  have hwell := hsound.follows.wellFormed
  refine ⟨hwell, fun call hcall => ?_, fun f hf => ?_⟩
  · have hunique := Host.existsUnique_records Machine.writes_of_rest call s
    obtain ⟨log, hlog⟩ := hunique.exists
    exact ⟨hunique, (Host.sound_run hsound hcall hlog).2⟩
  · obtain ⟨path, hpath⟩ := hwell.exists_path hf
    refine ⟨path, hpath, hwell.pairwise_path hpath, fun name => ⟨?_, ?_, Scopes.mem_names_iff⟩⟩
    · rw [hwell.lookup_path hpath]
      exact congrArg (path.findSome? ·) (funext fun i => hsound.follows.bound i name)
    · rw [Scopes.has_eq_isSome, Option.isSome_iff_exists]

set_option maxRecDepth 100000 in
/-- After a definition, a frame in the global one, and in it a function that was made in it: frame and function hold on
to each other, and the path of the frame still ends. -/
theorem reachable_heap_cycle : ∃ (settings : Settings) (engine : Engine) (history : List Write) (s : Session) (f : Lambda),
    Reachable settings engine history s ∧ f.closure = 1 ∧ s.scopes.bound? 1 "f" = some (.function (.lambda f)) ∧
    s.scopes.WellFormed ∧ ∃ path, s.scopes.Path 1 path ∧ path.Pairwise (· > ·) ∧
      s.scopes.lookup 1 "x" = path.findSome? fun i => latest history i "x" := by
  let start := Session.start {} .fresh
  let call : Host := .evaluate "(def x :k)"
  let f : Lambda := ⟨7, [], .atom (.point 0) (.symbol "x"), 1, none⟩
  have hread : readForms "(def x :k)" = .ok [.list ⟨0, 10⟩
      [.atom ⟨1, 4⟩ (.symbol "def"), .atom ⟨5, 6⟩ (.symbol "x"), .atom ⟨7, 9⟩ (.keyword "k")]] := by cbv
  have hnext : (call.run start).scopes.next = 1 := by
    change (start.evaluate "(def x :k)").2.scopes.next = 1
    rw [Session.evaluate_of_ok hread]
    with_unfolding_all rfl
  obtain ⟨log, hlog⟩ := (Host.existsUnique_records Machine.writes_of_rest call start).exists
  have hcall : call.Allowed start := trivial
  have hglobal : globalFrame < (call.run start).scopes.next := hnext ▸ Nat.zero_lt_one
  have hmade : 1 < ((call.run start).enclose globalFrame []).scopes.next := by
    change 1 < ((call.run start).scopes.enclose globalFrame []).next
    rw [Scopes.next_enclose, hnext]
    exact Nat.one_lt_two
  have hreach : Reachable {} .fresh _ (((call.run start).enclose globalFrame []).bind 1 "f" (.function (.lambda f))) :=
    .set (.enclosed (.call .start hcall hlog) hglobal) hmade "f" (Value.only_lambda.mpr hmade)
  obtain ⟨hwell, -, hlookup⟩ := reachable_heap hreach
  obtain ⟨path, hpath, hdown, hname⟩ := hlookup 1 (Nat.lt_of_lt_of_eq hmade (Scopes.next_bind _ 1 "f" _).symm)
  refine ⟨{}, .fresh, _, _, f, hreach, rfl, ?_, hwell, path, hpath, hdown, (hname "x").1⟩
  change (((call.run start).enclose globalFrame []).scopes.bind 1 "f" _).bound? 1 "f" = _
  rw [Scopes.bound?_bind, if_pos ⟨⟨rfl, rfl⟩, hmade⟩]

end MusicLisp
