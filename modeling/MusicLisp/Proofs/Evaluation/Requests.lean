import MusicLisp.Proofs.Evaluation.Handles
import MusicLisp.Proofs.Evaluation.Records

/-!
# What the engine is asked for

Natives and the host ask the engine to start synths and for other things. The engine numbers the synths that it starts,
and a program gets the numbers in nodes, which it may bind, put into collections, take out again and forget.

* `Request`: something the engine was asked for, by whom, and the state it was in.
* `Engine.Accounted`: a state of the engine that these requests leave. Nodes are numbered one after the other, and all
  messages that were ever sent are those of the requests in order. Whatever is asked for keeps it
  (`Accounted.perform`).
* `Request.Starts`: the request was made by one of the two operations that start synths, and started just this node.
* `Machine.Honest`: at a moment all nodes in values were started by some request. **Every step keeps this**
  (`honest_step`).
* `Played`: the sessions that texts, one after the other, and a host that asks for things itself can come to.
* `played_nodes`: in these sessions **every node was started by one request and no other**, and its message was sent.
-/

namespace MusicLisp

/-- **The engine was asked for something**: by an operation or else by the host, and in this state. -/
structure Request where
  caller : Option Operation
  engine : Engine
  command : Command

namespace Request

/-- The message that was sent. -/
def message (r : Request) : Message := r.engine.message r.command

/-- The number of the node that was started. -/
def id? (r : Request) : Option Int :=
  match r.command with
  | .trigger _ _ => some r.engine.nextNode
  | _ => none

/-- **The request started the node**: an operation that starts synths made it, and the engine gave the node this
number. -/
structure Starts (r : Request) (node : SynthNode) : Prop where
  caller : r.caller = some .synth ∨ r.caller = some .playNote
  command : r.command = .trigger node.synth node.params
  id : r.engine.nextNode = node.id
  ordered : node.params.Ordered

theorem Starts.id?_eq {r : Request} {node : SynthNode} (h : r.Starts node) : r.id? = some node.id := by
  unfold id?
  rw [h.command]
  exact congrArg some h.id

/-- The message of a node: its synth, its number, the place of the node, and the parameters in order of name. -/
theorem Starts.message_eq {r : Request} {node : SynthNode} (h : r.Starts node) :
    r.message = ⟨"/s_new", .text node.synth :: .number (Binary64.ofInt node.id) :: .number 0 :: .number 0 ::
      node.params.flatMap fun param => [.text param.1, .number param.2]⟩ := by
  unfold message
  rw [h.command, ← h.id]
  rfl

/-- The numbers of the nodes that were started, in order. -/
def ids (requests : List Request) : List Int := requests.filterMap id?

/-- A node that a request started; frames are not looked at. -/
def Known (requests : List Request) : Handle → Prop
  | .frame _ => True
  | .node node => ∃ r ∈ requests, r.Starts node

theorem Known.append {requests : List Request} {h : Handle} (hh : Known requests h) (log : List Request) :
    Known (requests ++ log) h := by
  cases h with
  | frame => trivial
  | node node =>
    obtain ⟨r, hr, hstarts⟩ := hh
    exact ⟨r, List.mem_append_left log hr, hstarts⟩

end Request

/-! ### The engine -/

/-- The first `n` numbers that are given out. -/
def Engine.numbers (n : Nat) : List Int := List.map (fun i : Nat => firstNode + i) (List.range n)

theorem Engine.numbers_succ (n : Nat) : numbers (n + 1) = numbers n ++ [firstNode + n] := by
  unfold numbers
  rw [List.range_succ, List.map_append]
  rfl

theorem Engine.nodup_numbers (n : Nat) : (numbers n).Nodup := by
  refine List.Nodup.map (fun i j hij => ?_) List.nodup_range
  omega

/-- **A state of the engine that these requests leave**, when these messages have been taken away. -/
structure Engine.Accounted (requests : List Request) (taken : List Message) (e : Engine) : Prop where
  next : e.nextNode = firstNode + (Request.ids requests).length
  numbered : Request.ids requests = numbers (Request.ids requests).length
  sent : taken ++ e.sent.toList = requests.map Request.message

namespace Engine.Accounted

open Request (Known)

variable {requests : List Request} {taken : List Message} {e : Engine}

theorem perform (h : e.Accounted requests taken) (caller : Option Operation) (c : Command) :
    (e.perform c).Accounted (requests ++ [⟨caller, e, c⟩]) taken := by
  have hsent : taken ++ (e.perform c).sent.toList =
      (requests ++ [(⟨caller, e, c⟩ : Request)]).map Request.message := by
    rw [sent_perform, Array.toList_push, ← List.append_assoc, h.sent, List.map_append]
    rfl
  have hids : Request.ids (requests ++ [⟨caller, e, c⟩]) =
      Request.ids requests ++ ((⟨caller, e, c⟩ : Request).id?).toList := by
    unfold Request.ids
    rw [List.filterMap_append]
    cases h : (⟨caller, e, c⟩ : Request).id? <;> simp [h]
  cases c with
  | trigger synth params =>
    -- the new number is the next one
    have hnew : Request.ids (requests ++ [⟨caller, e, .trigger synth params⟩]) = Request.ids requests ++ [e.nextNode] :=
      hids
    refine ⟨?_, ?_, hsent⟩
    · rw [hnew, List.length_append]
      change e.nextNode + 1 = _
      rw [h.next]
      push_cast
      rw [List.length_singleton]
      omega
    · rw [hnew, List.length_append, List.length_singleton, numbers_succ, ← h.numbered, h.next]
  | free id | setParam id param value | raw address arguments =>
    have hsame : Request.ids (requests ++ [_]) = Request.ids requests := hids.trans (List.append_nil _)
    refine ⟨?_, ?_, hsent⟩
    · rw [hsame]
      exact h.next
    · rw [hsame]
      exact h.numbered

theorem setTempo (h : e.Accounted requests taken) (bpm : Float) : (e.setTempo bpm).Accounted requests taken :=
  ⟨h.next, h.numbered, h.sent⟩

theorem clear (h : e.Accounted requests taken) : e.clear.Accounted requests (taken ++ e.sent.toList) :=
  ⟨h.next, h.numbered, (List.append_nil _).trans h.sent⟩

theorem nodup (h : e.Accounted requests taken) : (Request.ids requests).Nodup := by
  rw [h.numbered]
  exact nodup_numbers _

/-- The request that starts a node is the only one that gave out its number. -/
theorem exists_split (h : e.Accounted requests taken) {r : Request} (hr : r ∈ requests) {node : SynthNode}
    (hstarts : r.Starts node) : ∃ before after, requests = before ++ r :: after ∧
      ∀ other ∈ before ++ after, other.id? ≠ some node.id := by
  obtain ⟨before, after, rfl⟩ := List.append_of_mem hr
  refine ⟨before, after, rfl, fun other hother hid => ?_⟩
  have hnodup := h.nodup
  unfold Request.ids at hnodup
  rw [List.filterMap_append, List.filterMap_cons_some hstarts.id?_eq] at hnodup
  have hmem : node.id ∈ before.filterMap Request.id? ++ after.filterMap Request.id? := by
    rw [← List.filterMap_append]
    exact List.mem_filterMap.mpr ⟨other, hother, hid⟩
  have hsplit := List.nodup_middle.mp hnodup
  exact (List.nodup_cons.mp hsplit).1 hmem

/-- Nodes with the same number were started by the same request. -/
theorem node_eq (h : e.Accounted requests taken) {m n : SynthNode} (hm : Known requests (.node m))
    (hn : Known requests (.node n)) (hid : m.id = n.id) : m = n := by
  obtain ⟨r, hr, hm⟩ := hm
  obtain ⟨r', hr', hn⟩ := hn
  obtain ⟨before, after, hsplit, hothers⟩ := h.exists_split hr hm
  have hsame : r' = r := by
    by_contra hne
    have hother : r' ∈ before ++ after := by
      rw [hsplit] at hr'
      simpa [hne] using hr'
    exact hothers r' hother (hid ▸ hn.id?_eq)
  rw [hsame] at hn
  have hcommand := hm.command.symm.trans hn.command
  obtain ⟨id, synth, params⟩ := m
  obtain ⟨id', synth', params'⟩ := n
  cases hcommand
  cases hid
  rfl

end Engine.Accounted

/-! ### Runs -/

open Request (Known)

/-- What an act asks the engine for. -/
def Act.requests (s : Session) : Act → List Request
  | perform op (.command c) => [⟨some op, s.engine, c⟩]
  | _ => []

/-- **What the step from a moment asks the engine for.** -/
def Machine.requests (m : Machine) : List Request := m.act.requests m.session

theorem Machine.requests_of_rest (m : Machine) (h : m.act = .rest) : m.requests = [] := by
  rw [requests, h]
  rfl

/-- **A moment in which all nodes are known**, and the engine is as the requests leave it. -/
structure Machine.Honest (taken : List Message) (requests : List Request) (m : Machine) : Prop where
  only : m.Only (Known requests)
  engine : m.session.engine.Accounted requests taken

theorem Act.accounted_on {s : Session} {requests : List Request} {taken : List Message}
    (h : s.engine.Accounted requests taken) (a : Act) :
    (a.on s).engine.Accounted (requests ++ a.requests s) taken := by
  cases a with
  | rest | bind | enclose =>
    change s.engine.Accounted (requests ++ []) taken
    rwa [List.append_nil]
  | perform op x =>
    cases x with
    | command c => exact h.perform (some op) c
    | print line =>
      change (s.perform (.print line)).engine.Accounted (requests ++ []) taken
      unfold Session.perform
      dsimp only
      rw [List.append_nil]
      split <;> exact h
    | none | sleep =>
      change s.engine.Accounted (requests ++ []) taken
      rwa [List.append_nil]
    | setTempo bpm =>
      change (s.engine.setTempo bpm).Accounted (requests ++ []) taken
      rw [List.append_nil]
      exact h.setTempo bpm

/-- **Every step keeps nodes known.** -/
theorem Machine.honest_step (taken : List Message) (requests : List Request) (m : Machine)
    (h : m.Honest taken requests) : (step m).Honest taken (requests ++ m.requests) := by
  refine ⟨only_step (h.only.mono fun x hx => hx.append m.requests) fun x hmakes => ?_, ?_⟩
  · unfold Machine.requests
    generalize m.act = a at hmakes
    cases hmakes with
    | frame => trivial
    | @node op name params hop hparams =>
      refine ⟨_, List.mem_append_right requests (List.mem_singleton_self _), ?_⟩
      exact ⟨hop.imp (congrArg some) (congrArg some), rfl, rfl, hparams⟩
  · rw [(step_act m).2]
    exact Act.accounted_on h.engine m.act

/-! ### All sessions -/

/-- **The sessions that texts and a host can come to**, with the results of the texts, all requests so far and the
messages taken away. Texts are evaluated one after the other, and in between the host asks for things, sets the tempo
and takes messages away. -/
inductive Played (settings : Settings) (bpm : Float) :
    List (Except ProgramError Value) → List Request → List Message → Session → Prop
  | start : Played settings bpm [] [] [] (Session.start settings (.atTempo bpm))
  | text {results : List (Except ProgramError Value)} {requests log : List Request} {taken : List Message} {s : Session}
    (h : Played settings bpm results requests taken s) (source : String)
    (hlog : (Host.evaluate source).Records Machine.requests s log) :
    Played settings bpm (results ++ [(s.evaluate source).1.result]) (requests ++ log) taken (s.evaluate source).2
  | command {results : List (Except ProgramError Value)} {requests : List Request} {taken : List Message} {s : Session}
    (h : Played settings bpm results requests taken s) (c : Command) :
    Played settings bpm results (requests ++ [⟨none, s.engine, c⟩]) taken { s with engine := s.engine.perform c }
  | tempo {results : List (Except ProgramError Value)} {requests : List Request} {taken : List Message} {s : Session}
    (h : Played settings bpm results requests taken s) (bpm' : Float) :
    Played settings bpm results requests taken { s with engine := s.engine.setTempo bpm' }
  | take {results : List (Except ProgramError Value)} {requests : List Request} {taken : List Message} {s : Session}
    (h : Played settings bpm results requests taken s) :
    Played settings bpm results requests (taken ++ s.engine.sent.toList) { s with engine := s.engine.clear }

/-- **The node stands somewhere** in a result, or in what a name is bound to in a frame. -/
def Borne (results : List (Except ProgramError Value)) (s : Session) (node : SynthNode) : Prop :=
  (∃ v, .ok v ∈ results ∧ v.Bears (.node node)) ∨
    ∃ i name v, s.scopes.bound? i name = some v ∧ v.Bears (.node node)

/-- All nodes in the results and in the session are known, and the engine is as the requests leave it. -/
structure Session.Honest (results : List (Except ProgramError Value)) (requests : List Request)
    (taken : List Message) (s : Session) : Prop where
  results : ∀ v, .ok v ∈ results → v.Only (Known requests)
  scopes : s.scopes.Only (Known requests)
  engine : s.engine.Accounted requests taken

/-- A text keeps nodes known, those in its result among them. -/
theorem Session.Honest.evaluate {results : List (Except ProgramError Value)} {requests log : List Request}
    {taken : List Message} {s : Session} (h : s.Honest results requests taken) {source : String}
    (hlog : (Host.evaluate source).Records Machine.requests s log) :
    (s.evaluate source).2.Honest (results ++ [(s.evaluate source).1.result]) (requests ++ log) taken := by
  have hresults : (∀ v, (s.evaluate source).1.result = .ok v → v.Only (Known (requests ++ log))) →
      ∀ v, .ok v ∈ results ++ [(s.evaluate source).1.result] → v.Only (Known (requests ++ log)) := by
    intro hlast v hv
    rcases List.mem_append.mp hv with hv | hv
    · exact (h.results v hv).mono fun x hx => hx.append log
    · exact hlast v (List.mem_singleton.mp hv).symm
  have hanswer : ∀ v, (s.evaluate source).1.result = .ok v → (Host.evaluate source).answer? s = some v := by
    intro v hv
    change (s.evaluate source).1.result.toOption = some v
    rw [hv]
    rfl
  cases hlog with
  | unread hstart =>
    obtain ⟨hscopes, hengine, hnone⟩ := Host.of_start?_eq_none hstart
    refine ⟨hresults fun v hv => ?_, ?_, ?_⟩
    · cases hnone.symm.trans (hanswer v hv)
    · rw [List.append_nil]
      exact hscopes.symm ▸ h.scopes
    · rw [List.append_nil]
      exact hengine.symm ▸ h.engine
  | @run m e _ hstart hend hrun =>
    have hm : m.Honest taken requests := by
      cases hread : readForms source with
      | error err => cases (Host.start?_evaluate_of_error hread s).symm.trans hstart
      | ok forms =>
        cases (Host.start?_evaluate_of_ok hread s).symm.trans hstart
        exact ⟨⟨⟨Value.only_nil, trivial⟩, nofun, h.scopes⟩, h.engine⟩
    have he : e.Honest taken (requests ++ log) := hrun.keeps (Machine.honest_step taken) hm
    refine ⟨hresults fun v hv => ?_, hend.scopes ▸ he.only.scopes, hend.engine ▸ he.engine⟩
    have hcontrol := he.only.control
    rwa [hend.answer v (hanswer v hv)] at hcontrol

theorem honest_start (settings : Settings) (bpm : Float) :
    (Session.start settings (.atTempo bpm)).Honest [] [] [] where
  results := nofun
  scopes := Session.only_start settings (.atTempo bpm)
  engine := by
    have hengine : (Session.start settings (.atTempo bpm)).engine = .atTempo bpm := rfl
    rw [hengine]
    exact ⟨rfl, rfl, rfl⟩

theorem honest_played {settings : Settings} {bpm : Float} {results : List (Except ProgramError Value)}
    {requests : List Request} {taken : List Message} {s : Session} (h : Played settings bpm results requests taken s) :
    s.Honest results requests taken := by
  induction h with
  | start => exact honest_start settings bpm
  | text _ source hlog ih => exact ih.evaluate hlog
  | @command results requests taken s _ c ih =>
    have happend : ∀ x, Known requests x → Known (requests ++ [⟨none, s.engine, c⟩]) x := fun x hx => hx.append _
    exact ⟨fun v hv => (ih.results v hv).mono happend, ih.scopes.mono happend, ih.engine.perform none c⟩
  | tempo _ bpm' ih => exact ⟨ih.results, ih.scopes, ih.engine.setTempo bpm'⟩
  | take _ ih => exact ⟨ih.results, ih.scopes, ih.engine.clear⟩

theorem Session.Honest.known {results : List (Except ProgramError Value)} {requests : List Request}
    {taken : List Message} {s : Session} (h : s.Honest results requests taken) {node : SynthNode}
    (hnode : Borne results s node) : Known requests (.node node) := by
  rcases hnode with ⟨v, hv, hb⟩ | ⟨i, name, v, hv, hb⟩
  · exact h.results v hv _ hb
  · exact h.scopes i name v hv _ hb

/-- **Nodes are not forged, lost or shared.** The nodes that were started have the numbers from the first one on, in the
order of the requests, and as long as these fit a word so does the next one. All messages that were ever sent are those
of the requests in order. A text has one sequence of requests. Each node in a result or in a binding was started by one
request of an operation that starts synths; its message was sent for that request, and no other request was given the
number of the node. Two nodes with the same number have the same synth and parameters. -/
theorem played_nodes {settings : Settings} {bpm : Float} {results : List (Except ProgramError Value)}
    {requests : List Request} {taken : List Message} {s : Session} (h : Played settings bpm results requests taken s) :
    (Request.ids requests = Engine.numbers (Request.ids requests).length ∧
      s.engine.nextNode = Engine.firstNode + (Request.ids requests).length ∧
      ((Request.ids requests).length + 1000 < 2 ^ 63 → Operation.fitsWord s.engine.nextNode)) ∧
    taken ++ s.engine.sent.toList = requests.map Request.message ∧
    (∀ source, ∃! log, (Host.evaluate source).Records Machine.requests s log) ∧
    (∀ node, Borne results s node → ∃ before r after, requests = before ++ r :: after ∧ r.Starts node ∧
      r.message = ⟨"/s_new", .text node.synth :: .number (Binary64.ofInt node.id) :: .number 0 :: .number 0 ::
        node.params.flatMap fun param => [.text param.1, .number param.2]⟩ ∧
      ∀ other ∈ before ++ after, other.id? ≠ some node.id) ∧
    ∀ m n, Borne results s m → Borne results s n → m.id = n.id → m.synth = n.synth ∧ m.params = n.params := by
  have hs := honest_played h
  refine ⟨⟨hs.engine.numbered, hs.engine.next, fun hbound => ?_⟩, hs.engine.sent, fun source => ?_, fun node hnode => ?_,
    fun m n hm hn hid => ?_⟩
  · rw [hs.engine.next]
    have hword : Int.pow 2 63 = 2 ^ 63 := rfl
    unfold Engine.firstNode
    rw [Operation.fitsWord_iff, hword]
    omega
  · exact Host.existsUnique_records Machine.requests_of_rest (.evaluate source) s
  · obtain ⟨r, hr, hstarts⟩ := hs.known hnode
    obtain ⟨before, after, hsplit, hothers⟩ := hs.engine.exists_split hr hstarts
    exact ⟨before, r, after, hsplit, hstarts, hstarts.message_eq, hothers⟩
  · obtain rfl := hs.engine.node_eq (hs.known hm) (hs.known hn) hid
    exact ⟨rfl, rfl⟩

set_option maxRecDepth 100000 in
/-- The host starts a synth, and then a text starts one and binds its node: the node has the second number. -/
theorem played_nodes_second : ∃ settings bpm results requests taken s,
    Played settings bpm results requests taken s ∧ Borne results s ⟨Engine.firstNode + 1, "saw", []⟩ ∧
    ∃ before r after, requests = before ++ r :: after ∧ r.Starts ⟨Engine.firstNode + 1, "saw", []⟩ ∧
      ∀ other ∈ before ++ after, other.id? ≠ some (Engine.firstNode + 1) := by
  obtain ⟨start, hstart⟩ : ∃ s, s = Session.start { synthPrefix := "" } (.atTempo 120) := ⟨_, rfl⟩
  obtain ⟨host, hhost⟩ : ∃ s, s = { start with engine := start.engine.perform (.trigger "other" []) } := ⟨_, rfl⟩
  have hread : readForms "(def n (synth :saw))" = .ok [.list ⟨0, 20⟩ [.atom ⟨1, 4⟩ (.symbol "def"),
      .atom ⟨5, 6⟩ (.symbol "n"), .list ⟨7, 19⟩ [.atom ⟨8, 13⟩ (.symbol "synth"),
        .atom ⟨14, 18⟩ (.keyword "saw")]]] := by cbv
  have hresult : (host.evaluate "(def n (synth :saw))").1.result =
      .ok (.synthNode ⟨Engine.firstNode + 1, "saw", []⟩) := by
    rw [hhost, hstart, Session.evaluate_of_ok hread]
    with_unfolding_all rfl
  obtain ⟨log, hlog⟩ :=
    (Host.existsUnique_records Machine.requests_of_rest (.evaluate "(def n (synth :saw))") host).exists
  have hplayed : Played { synthPrefix := "" } 120 [] [⟨none, start.engine, .trigger "other" []⟩] [] host := by
    rw [hhost, hstart]
    exact .command .start _
  have hnode := List.mem_append_right [] (List.mem_singleton.mpr hresult.symm)
  have hborne : Borne _ (host.evaluate "(def n (synth :saw))").2 ⟨Engine.firstNode + 1, "saw", []⟩ :=
    .inl ⟨_, hnode, .node _⟩
  obtain ⟨-, -, -, hnodes, -⟩ := played_nodes (hplayed.text _ hlog)
  obtain ⟨before, r, after, hsplit, hstarts, -, hothers⟩ := hnodes _ hborne
  exact ⟨_, _, _, _, _, _, hplayed.text _ hlog, hborne, before, r, after, hsplit, hstarts, hothers⟩

end MusicLisp
