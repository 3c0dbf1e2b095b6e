import MusicLisp.Native
import MusicLisp.Proofs.Dict.Entries
import MusicLisp.Proofs.Text.ByteOrder

/-!
# The parameters of a synth

What a map says about the parameters of a synth, told from the map alone: two keys can name the same parameter, and of
those the one with the greater bytes counts.

* `KeyOf`: the keys that name a parameter (`paramName_eq_iff`).
* `Parameter`: the number that a map gives a parameter; `mem_paramsOf`: `synth` takes just these.
* `callNative_synth`: **what starting a synth answers and sends**.
-/

namespace MusicLisp

namespace Settings

variable (s : Settings) (name : String)

/-- A full name starts with the common beginning. -/
theorem exists_synthName : ∃ rest, s.synthName name = s.synthPrefix ++ rest := by
  unfold synthName
  split
  · next h =>
    obtain ⟨rest, hrest⟩ := List.isPrefixOf_iff_prefix.mp h
    refine ⟨String.ofList rest, String.toList_inj.mp ?_⟩
    rw [String.toList_append, String.toList_ofList, hrest]
  · exact ⟨name, rfl⟩

/-- What has the common beginning is a full name already. -/
theorem synthName_append (rest : String) : s.synthName (s.synthPrefix ++ rest) = s.synthPrefix ++ rest := by
  refine if_pos (List.isPrefixOf_iff_prefix.mpr ?_)
  rw [String.toList_append]
  exact List.prefix_append _ _

theorem synthName_synthName : s.synthName (s.synthName name) = s.synthName name := by
  obtain ⟨rest, h⟩ := s.exists_synthName name
  rw [h, synthName_append]

end Settings

namespace Operation

/-! ### Keys -/

/-- The text starts with a colon. -/
def Colon (text : String) : Prop := ∃ rest, text = ":" ++ rest

/-- **The keys that name a parameter:** its name behind a colon, and its name itself unless that starts with a colon. -/
def KeyOf (param key : String) : Prop := key = ":" ++ param ∨ (key = param ∧ ¬ Colon param)

theorem colon_append (text : String) : (":" ++ text).toList = ':' :: text.toList := String.toList_append

theorem paramName_eq_iff {param key : String} : paramName key = param ↔ KeyOf param key := by
  unfold paramName
  split
  · next bare hkey =>
    have hcolon : key = ":" ++ String.ofList bare := by
      rw [← String.toList_inj, hkey, colon_append, String.toList_ofList]
    constructor
    · rintro rfl
      exact .inl hcolon
    · rintro (h | ⟨rfl, hnot⟩)
      · exact (String.append_right_inj ":").mp (hcolon.symm.trans h)
      · exact absurd ⟨_, hcolon⟩ hnot
  · next hkey =>
    constructor
    · rintro rfl
      refine .inr ⟨rfl, ?_⟩
      rintro ⟨rest, rfl⟩
      exact hkey rest.toList (colon_append rest)
    · rintro (rfl | ⟨rfl, -⟩)
      · exact absurd (colon_append param) (hkey param.toList)
      · rfl

/-! ### Parameters -/

/-- **The number that a map gives a parameter:** that under the key of it with the greatest bytes, of the keys that hold
numbers. -/
def Parameter (m : Dict Value) (param : String) (x : Float) : Prop :=
  ∃ key, KeyOf param key ∧ Dict.get? key m = some (.number x) ∧
    ∀ other y, KeyOf param other → Dict.get? other m = some (.number y) → other ≠ key →
      Text.bytes other < Text.bytes key

variable {m : Dict Value} {param : String}

/-- What an entry of a map makes a parameter of. -/
theorem entry_eq_some_iff {entry : String × Value} {p : String × Float} :
    (entry.2.number?.map fun x => (paramName entry.1, x)) = some p ↔
      entry.2 = .number p.2 ∧ KeyOf p.1 entry.1 := by
  obtain ⟨key, value⟩ := entry
  obtain ⟨param, x⟩ := p
  rw [← paramName_eq_iff]
  cases value with
  | number y => simp [Value.number?, and_comm]
  | string | keyword | boolean | nil | function | list | vector | map | synthNode => simp [Value.number?]

/-- **`synth` takes just the parameters of its map.** -/
theorem mem_paramsOf (hm : m.Ordered) {x : Float} : (param, x) ∈ paramsOf m ↔ Parameter m param x := by
  unfold paramsOf
  rw [Dict.mem_ofEntries_filterMap_iff]
  constructor
  · rintro ⟨before, ⟨key, value⟩, after, rfl, hentry, hafter⟩
    obtain ⟨rfl, hkey⟩ := entry_eq_some_iff.mp hentry
    refine ⟨key, hkey, hm.mem_iff_get?.mp (by simp), fun other y hother hget hne => ?_⟩
    rcases List.mem_append.mp (hm.mem_iff_get?.mpr hget) with hmem | hmem
    · exact Text.lt_iff_bytes_lt.mp ((List.pairwise_append.mp hm).2.2 _ hmem _ List.mem_cons_self)
    · rcases List.mem_cons.mp hmem with heq | hmem
      · exact absurd (Prod.mk.inj heq).1 hne
      · exact absurd (entry_eq_some_iff.mpr ⟨rfl, hother⟩) (hafter _ hmem y)
  · rintro ⟨key, hkey, hget, hgreatest⟩
    obtain ⟨before, after, rfl⟩ := List.append_of_mem (hm.mem_iff_get?.mpr hget)
    refine ⟨before, _, after, rfl, entry_eq_some_iff.mpr ⟨rfl, hkey⟩, ?_⟩
    rintro ⟨other, value⟩ hmem y hentry
    obtain ⟨rfl, hother⟩ := entry_eq_some_iff.mp hentry
    -- a later entry has a greater key, and that of the parameter is the greatest
    have hlt : key < other := (List.pairwise_cons.mp (List.pairwise_append.mp hm).2.1).1 _ hmem
    have hget' := hm.mem_iff_get?.mp (List.mem_append_right before (List.mem_cons_of_mem _ hmem))
    have hgt := hgreatest other y hother hget' (fun h => String.lt_irrefl key (h ▸ hlt))
    exact String.lt_asymm hlt (Text.lt_iff_bytes_lt.mpr hgt)

/-- A parameter is there exactly if one of its keys holds a number. -/
theorem exists_parameter_iff (hm : m.Ordered) : (∃ x, Parameter m param x) ↔
    (∃ x, Dict.get? (":" ++ param) m = some (.number x)) ∨
      (¬ Colon param ∧ ∃ x, Dict.get? param m = some (.number x)) := by
  have hkeys : (∃ x, Parameter m param x) ↔ ∃ key x, KeyOf param key ∧ Dict.get? key m = some (.number x) := by
    constructor
    · rintro ⟨x, key, hkey, hget, -⟩
      exact ⟨key, x, hkey, hget⟩
    · rintro ⟨key, x, hkey, hget⟩
      have hentry : (param, x) ∈ m.filterMap fun entry => entry.2.number?.map fun x => (paramName entry.1, x) :=
        List.mem_filterMap.mpr ⟨(key, .number x), Dict.mem_of_get? hget, entry_eq_some_iff.mpr ⟨rfl, hkey⟩⟩
      have hname : param ∈ (paramsOf m).names :=
        Dict.mem_names_ofEntries.mpr (List.mem_map.mpr ⟨(param, x), hentry, rfl⟩)
      obtain ⟨y, hy⟩ := Option.isSome_iff_exists.mp (Dict.mem_names_iff.mp hname)
      exact ⟨y, (mem_paramsOf hm).mp (Dict.mem_of_get? hy)⟩
  rw [hkeys]
  constructor
  · rintro ⟨_, x, rfl | ⟨rfl, hnot⟩, hget⟩
    · exact .inl ⟨x, hget⟩
    · exact .inr ⟨hnot, x, hget⟩
  · rintro (⟨x, hget⟩ | ⟨hnot, x, hget⟩)
    · exact ⟨_, x, .inl rfl, hget⟩
    · exact ⟨_, x, .inr ⟨rfl, hnot⟩, hget⟩

end Operation

/-- **Starting a synth.** A name and a map are answered with a new node, and one message is sent. The synth has a full
name; its parameters are what the map gives them, each once in the order of the bytes of their names; and the node and
the message have the same ones. The number of the next node still fits a word, if there was room for one more. -/
theorem callNative_synth (s : Session) (span : Span) {n : Value} {name : String}
    (hn : n = .keyword name ∨ n = .string name) {m : Dict Value} (hm : m.Ordered) :
    ∃ full params t, callNative .synth [n, .map m] span s = .ok (.synthNode ⟨s.engine.nextNode, full, params⟩) t ∧
      full = s.settings.synthName name ∧ (∃ rest, full = s.settings.synthPrefix ++ rest) ∧
      s.settings.synthName full = full ∧
      t.engine = { s.engine with
        nextNode := s.engine.nextNode + 1
        sent := s.engine.sent.push ⟨"/s_new", .text full :: .number (Binary64.ofInt s.engine.nextNode) :: .number 0 ::
          .number 0 :: params.flatMap fun p => [.text p.1, .number p.2]⟩ } ∧
      t = { s with engine := t.engine, journal := t.journal } ∧
      (Operation.fitsWord s.engine.nextNode → s.engine.nextNode + 1 < Int.pow 2 63 →
        Operation.fitsWord t.engine.nextNode) ∧
      params.Pairwise (fun p q => Text.bytes p.1 < Text.bytes q.1) ∧
      (∀ p x, (p, x) ∈ params ↔ Operation.Parameter m p x) ∧
      ∀ p, (∃ x, (p, x) ∈ params) ↔ (∃ x, Dict.get? (":" ++ p) m = some (.number x)) ∨
        (¬ Operation.Colon p ∧ ∃ x, Dict.get? p m = some (.number x)) := by
  have hanswer : Operation.synth.answer s.settings s.engine [n, .map m] =
      Operation.trigger s.engine (s.settings.synthName name) (Operation.paramsOf m) := by
    rcases hn with rfl | rfl <;> rfl
  refine ⟨s.settings.synthName name, Operation.paramsOf m,
    s.perform (.command (.trigger (s.settings.synthName name) (Operation.paramsOf m))), ?_, rfl,
    s.settings.exists_synthName name, s.settings.synthName_synthName name, rfl, rfl,
    fun h hroom => Operation.fitsWord_command h hroom _, ?_, fun p x => Operation.mem_paramsOf hm,
    fun p => ?_⟩
  · unfold callNative
    rw [hanswer]
    rfl
  · exact (Dict.ordered_ofEntries _).imp fun h => Text.lt_iff_bytes_lt.mp h
  · rw [← Operation.exists_parameter_iff hm]
    exact exists_congr fun x => Operation.mem_paramsOf hm

/-- Keys that name the same parameters, with a colon and without. -/
def twofold : Dict Value :=
  Dict.ofEntries [("note", .number 61), (":note", .number 60), ("::x", .number 3), ("", .number 2), (":", .number 1)]

/-- Of a keyword and a string the string counts, since no letter is below a colon. -/
theorem callNative_synth_twofold : ∃ params t,
    callNative .synth [.keyword "saw", .map twofold] ⟨0, 12⟩ (Session.bare .standard .fresh) =
      .ok (.synthNode ⟨1000, "sonic-pi-saw", params⟩) t ∧ ("note", 61) ∈ params ∧ ∃ x, (":x", x) ∈ params := by
  obtain ⟨full, params, t, hcall, hfull, -, -, -, -, -, -, hparams, hnames⟩ :=
    callNative_synth (Session.bare .standard .fresh) ⟨0, 12⟩ (.inl rfl : Value.keyword "saw" = .keyword "saw" ∨ _)
      (Dict.ordered_ofEntries _ : twofold.Ordered)
  have hname : full = "sonic-pi-saw" := hfull.trans (by decide +kernel)
  have hget : Dict.get? "note" twofold = some (.number 61) := rfl
  have hx : Dict.get? "::x" twofold = some (.number 3) := rfl
  have hplain : ¬ Operation.Colon "note" := by
    rintro ⟨rest, h⟩
    cases (congrArg String.toList h).trans (Operation.colon_append rest)
  refine ⟨params, t, hname ▸ hcall, (hparams _ _).mpr ⟨"note", .inr ⟨rfl, hplain⟩, hget, ?_⟩,
    (hnames _).mpr (.inl ⟨3, hx⟩)⟩
  rintro other y (rfl | ⟨rfl, -⟩) - hne
  · exact Text.lt_iff_bytes_lt.mp (by decide)
  · exact absurd rfl hne

end MusicLisp
