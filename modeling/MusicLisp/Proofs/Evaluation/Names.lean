import MusicLisp.Proofs.Evaluation.Blame
import MusicLisp.Proofs.Evaluation.Handles
import MusicLisp.Proofs.Evaluation.Unmentioned

/-!
# What is bound has a name

A name gets bound in the global frame because a text, or the body of a function out of an earlier text, has it as a
symbol; or it is there from the start. So every name that is bound globally can be written as a symbol, whatever has
been evaluated.

* `Form.Names N`: every name that a form mentions has the property `N`. It goes down to the parts of forms.
* `Scopes.Names N`: every name bound in the global frame has it. Evaluation of such forms keeps this
  (`Scopes.Names.keptBy`), since it binds names of symbols, and makes frames behind the global one.
* `Session.isName_of_has`: **every name bound in a session is a symbol.**
-/

namespace MusicLisp

/-! ### Names in forms -/

/-- Every name that the form mentions has the property. -/
def Form.Names (N : String → Prop) (form : Form) : Prop := ∀ name, form.Mentions name → N name

theorem Form.closed_names (N : String → Prop) : Form.Closed (Form.Names N) :=
  closed_of_parts fun h hpart name hmentions => h name (hmentions.of_part hpart)

/-- The name can be written as a symbol. -/
def IsName (name : String) : Prop := Piece.IsSymbol name.toList

instance : DecidablePred IsName := fun name => inferInstanceAs (Decidable (Piece.IsSymbol name.toList))

/-- What a text has as a symbol is one. -/
theorem Mentioned.isName {name source : String} (h : Mentioned name source) : IsName name := by
  obtain ⟨tokens, htokens, t, ht, hkind⟩ := h
  obtain ⟨ts, mark, rfl, hmark, hts⟩ := (tokenize_ok_iff.mp htokens).scanned
  rcases List.mem_append.mp ht with ht | ht
  · have hscanned := hts t ht
    rw [hkind] at hscanned
    exact hscanned
  · obtain rfl := List.mem_singleton.mp ht
    rw [hkind] at hmark
    cases hmark

/-! ### Names in the global frame -/

/-- **Every name bound in the global frame has the property**, and this frame is there. -/
structure Scopes.Names (N : String → Prop) (s : Scopes) : Prop where
  global : globalFrame < s.next
  bound : ∀ name, (s.bound? globalFrame name).isSome → N name

namespace Scopes.Names

variable {N : String → Prop} {s : Scopes}

theorem bind (h : s.Names N) {name : String} (hname : N name) (frame : FrameId) (v : Value) :
    (s.bind frame name v).Names N where
  global := by
    rw [next_bind]
    exact h.global
  bound other hother := by
    rw [bound?_bind] at hother
    split at hother
    · next heq =>
      rw [← heq.1.2]
      exact hname
    · exact h.bound other hother

/-- A new frame is another than the global one. -/
theorem enclose (h : s.Names N) (outer : FrameId) (d : Dict Value) : (s.enclose outer d).Names N where
  global := by
    rw [next_enclose]
    exact Nat.lt_succ_of_lt h.global
  bound name hname := by
    unfold Scopes.enclose at hname
    rw [bound?_push, if_neg (Nat.ne_of_lt h.global)] at hname
    exact h.bound name hname

/-- **Evaluation keeps it**, if the names in the forms have the property. -/
theorem keptBy (N : String → Prop) : KeptBy (Form.Names N) (Names N) where
  bind {_ span name} hform h frame v := h.bind (hform name (Form.mentions_symbol name span)) frame v
  enclose h outer d := h.enclose outer d

/-- What is seen from the global frame is bound there. -/
theorem of_has (h : s.Names N) {name : String} (hname : s.has globalFrame name = true) : N name := by
  rw [has_eq_isSome, lookup_step] at hname
  have hnone : (s.outer? globalFrame).filter (fun outer => decide (outer < globalFrame)) = none :=
    Option.filter_eq_none_iff.mpr fun outer _ hlt => Nat.not_lt_zero outer (of_decide_eq_true hlt)
  rw [hnone, Option.bind_none, Option.or_none] at hname
  exact h.bound name hname

end Scopes.Names

/-! ### Sessions -/

theorem isName_startEntries : ∀ entry ∈ startEntries, IsName entry.1 := by
  intro entry hentry
  rcases List.mem_append.mp hentry with hentry | hentry
  · have hconstants : ∀ name ∈ ["true", "false", "nil"], IsName name := by decide
    exact hconstants entry.1 (List.mem_map_of_mem hentry)
  · obtain ⟨op, hop, rfl⟩ := List.mem_map.mp hentry
    have hnatives : ∀ op ∈ Operation.standard, IsName op.name := by decide
    exact hnatives op hop

theorem SpecialForm.isName_word (form : SpecialForm) : IsName form.word := by cases form <;> decide

namespace Session

theorem names_start (settings : Settings) (engine : Engine) : (start settings engine).scopes.Names IsName := by
  refine start_induction (P := fun s => s.scopes.Names IsName) ⟨Nat.zero_lt_one, fun name hname => ?_⟩
    fun entry hentry s hs => hs.bind (isName_startEntries entry hentry) globalFrame entry.2
  cases hname

/-- **Every name bound in a session is a symbol**, whatever has been evaluated in it. -/
theorem isName_of_has (settings : Settings) (engine : Engine) (texts : List String) {name : String}
    (h : ((start settings engine).evaluateAll texts).2.scopes.has globalFrame name = true) : IsName name := by
  have hread : ∀ text ∈ texts, ∀ forms, readForms text = .ok forms → ∀ form ∈ forms, form.Names IsName :=
    fun text _ forms hforms form hform name hname => (Form.mentioned_of_read hforms hform hname).isName
  exact (evaluateAll_keptBy (Form.closed_names IsName) (Scopes.Names.keptBy IsName) (start_matches _ settings engine)
    (names_start settings engine) texts hread).2.of_has h

end Session

end MusicLisp
