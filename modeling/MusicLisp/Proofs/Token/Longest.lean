import MusicLisp.Proofs.Token.Classes

/-!
# The longest match

The scanner looks at the first characters of a text and takes a run. Here that is compared with the patterns of
the classes: what it takes is a match, and no match at the front of the text is longer.

* `length_le_front`: the scanner takes at least as much as any match at the front of the text.
* `class_front`: a match that stands alone is taken for its class, so no text matches two (`class_unique`).
* `Front`: what the front is when it is a lexeme, one case for each branch. It matches the pattern of its class
  (`Front.mem_pattern`), and it is the same lexeme in a text that is cut off behind it (`Front.take`).
-/

namespace MusicLisp

open Lexeme

namespace Lexeme

variable {p : Char → Bool} {r : List Char}

/-! ### Runs -/

theorem run_le_length (p : Char → Bool) (cs : List Char) : run p cs ≤ cs.length :=
  (List.takeWhile_prefix p).length_le

theorem length_le_run (hr : ∀ c ∈ r, p c = true) (rest : List Char) :
    r.length ≤ run p (r ++ rest) := by
  rw [run, List.takeWhile_append_of_pos hr, List.length_append]
  exact Nat.le_add_right _ _

theorem forall_mem_take_run (p : Char → Bool) (cs : List Char) :
    ∀ c ∈ cs.take (run p cs), p c = true := by
  rw [Piece.take_run]
  exact fun c hc => List.mem_takeWhile_imp hc

theorem numberTail_le_length (cs : List Char) : numberTail cs ≤ cs.length := by
  have hwhole := run_le_length Char.isDigit cs
  unfold numberTail
  dsimp only
  split
  · next r hr =>
    have hpoint : (cs.drop (run Char.isDigit cs)).length = r.length + 1 := by rw [hr]; rfl
    rw [List.length_drop] at hpoint
    have hplaces := run_le_length Char.isDigit r
    omega
  · exact hwhole

theorem run_le_numberTail (cs : List Char) : run Char.isDigit cs ≤ numberTail cs := by
  unfold numberTail
  dsimp only
  split <;> omega

theorem NumberTail.length_le (h : NumberTail r) (rest : List Char) :
    r.length ≤ numberTail (r ++ rest) := by
  obtain ⟨ds, hds, rfl | ⟨ps, hps, rfl⟩⟩ := h
  · exact (length_le_run hds rest).trans (run_le_numberTail _)
  · have hpoint : Stops Char.isDigit ('.' :: (ps ++ rest)) := by rintro c ⟨⟩; rfl
    have hplaces := length_le_run hps rest
    unfold numberTail
    dsimp only
    rw [List.append_assoc, List.cons_append, run_append hds hpoint, List.drop_left]
    change _ ≤ ds.length + 1 + run Char.isDigit (ps ++ rest)
    rw [List.length_append, List.length_cons]
    omega

theorem numberTail_take (cs : List Char) : NumberTail (cs.take (numberTail cs)) := by
  have hwhole := forall_mem_take_run Char.isDigit cs
  unfold numberTail
  dsimp only
  split
  · next r hr =>
    refine ⟨_, hwhole, .inr ⟨_, forall_mem_take_run Char.isDigit r, ?_⟩⟩
    rw [Nat.add_assoc, List.take_add, hr, Nat.add_comm 1, List.take_succ_cons]
  · exact ⟨_, hwhole, .inl rfl⟩

theorem run_cons_of_pos {c : Char} (hc : p c = true) (r : List Char) : run p (c :: r) = run p r + 1 := by
  unfold run
  rw [List.takeWhile_cons_of_pos hc, List.length_cons]

theorem run_cons_of_neg {c : Char} (hc : ¬ p c = true) (r : List Char) : run p (c :: r) = 0 := by
  unfold run
  rw [List.takeWhile_cons_of_neg hc, List.length_nil]

/-- A text that is cut off behind a run starts with the same run. -/
theorem run_take {cs : List Char} {m : Nat} (h : run p cs ≤ m) : run p (cs.take m) = run p cs := by
  induction cs generalizing m with
  | nil => rw [List.take_nil]
  | cons c r ih =>
    by_cases hc : p c = true
    · rw [run_cons_of_pos hc] at h ⊢
      obtain ⟨m, rfl⟩ := Nat.exists_eq_add_of_le' (Nat.le_of_add_left_le h)
      rw [List.take_succ_cons, run_cons_of_pos hc, ih (by omega)]
    · rw [run_cons_of_neg hc]
      cases m with
      | zero => rfl
      | succ m => rw [List.take_succ_cons, run_cons_of_neg hc]

theorem numberTail_of_point {cs r : List Char} (h : cs.drop (run Char.isDigit cs) = '.' :: r) :
    numberTail cs = run Char.isDigit cs + 1 + run Char.isDigit r := by
  unfold numberTail
  dsimp only
  rw [h]
  rfl

theorem numberTail_of_no_point {cs : List Char} (h : ∀ r, cs.drop (run Char.isDigit cs) ≠ '.' :: r) :
    numberTail cs = run Char.isDigit cs := by
  unfold numberTail
  dsimp only
  split
  · next r hr => exact absurd hr (h r)
  · rfl

/-- A text that is cut off behind a number starts with the same number. -/
theorem numberTail_take_of_le {cs : List Char} {m : Nat} (h : numberTail cs ≤ m) :
    numberTail (cs.take m) = numberTail cs := by
  have hrun : run Char.isDigit (cs.take m) = run Char.isDigit cs := run_take ((run_le_numberTail cs).trans h)
  have hdrop : (cs.take m).drop (run Char.isDigit (cs.take m)) =
      (cs.drop (run Char.isDigit cs)).take (m - run Char.isDigit cs) := by
    rw [hrun, List.drop_take]
  by_cases hpoint : ∃ r, cs.drop (run Char.isDigit cs) = '.' :: r
  · obtain ⟨r, hr⟩ := hpoint
    rw [numberTail_of_point hr] at h ⊢
    obtain ⟨k, rfl⟩ := Nat.exists_eq_add_of_le (Nat.le_of_add_right_le h)
    have hk : run Char.isDigit cs + 1 + k - run Char.isDigit cs = k + 1 := by omega
    rw [hr, hk, List.take_succ_cons] at hdrop
    rw [numberTail_of_point hdrop, hrun, run_take (by omega)]
  · have hno : ∀ r, (cs.take m).drop (run Char.isDigit (cs.take m)) ≠ '.' :: r := by
      intro r hr
      rw [hdrop] at hr
      refine hpoint ⟨r ++ (cs.drop (run Char.isDigit cs)).drop (m - run Char.isDigit cs), ?_⟩
      rw [← List.cons_append, ← hr, List.take_append_drop]
    rw [numberTail_of_no_point hno, hrun, numberTail_of_no_point fun r hr => hpoint ⟨r, hr⟩]

theorem Body.stringBody_append {b : List Char} (h : Body b) (n : Nat) (rest : List Char) :
    stringBody n (b ++ rest) = stringBody (n + b.length) rest := by
  induction h generalizing n with
  | nil => rfl
  | plain hq hs _ ih =>
    rw [List.cons_append, stringBody_plain hq hs, ih, List.length_cons, Nat.add_assoc, Nat.add_comm 1]
  | pair _ ih =>
    rw [List.cons_append, List.cons_append, stringBody_pair, ih, List.length_cons, List.length_cons]
    congr 1
    omega

theorem le_stringBody (n : Nat) (cs : List Char) : n ≤ (stringBody n cs).2 := by
  fun_induction stringBody n cs with
  | case1 n => exact Nat.le_refl n
  | case2 n r => exact Nat.le_refl n
  | case3 n => exact Nat.le_refl n
  | case4 n c r ih => omega
  | case5 n c r hq hlast hpair ih => omega

/-- A string is closed by the quote after its body. -/
theorem body_of_stringBody {n m : Nat} {cs : List Char} (h : stringBody n cs = (true, m)) :
    ∃ b rest, cs = b ++ '"' :: rest ∧ Body b ∧ m = n + b.length := by
  fun_induction stringBody n cs with
  | case1 n => cases h
  | case2 n r =>
    cases h
    exact ⟨[], r, rfl, .nil, rfl⟩
  | case3 n => cases h
  | case4 n c r ih =>
    obtain ⟨b, rest, rfl, hb, rfl⟩ := ih h
    exact ⟨'\\' :: c :: b, rest, rfl, .pair hb, by rw [List.length_cons, List.length_cons]; omega⟩
  | case5 n c r hq hlast hpair ih =>
    have hs : c ≠ '\\' := ne_slash hlast hpair
    obtain ⟨b, rest, rfl, hb, rfl⟩ := ih h
    exact ⟨c :: b, rest, rfl, .plain hq hs hb, by rw [List.length_cons]; omega⟩

/-! ### First characters -/

theorem StartsNumber.append {c : Char} (h : StartsNumber c r) (rest : List Char) :
    StartsNumber c (r ++ rest) := by
  rcases h with h | ⟨rfl, h⟩
  · exact .inl h
  · refine .inr ⟨rfl, ?_⟩
    cases r with
    | nil => cases h
    | cons d r => exact h

/-- A number that is cut off behind its end still starts as one. -/
theorem StartsNumber.take {c : Char} {cs : List Char} {m : Nat} (h : StartsNumber c cs) (hm : numberTail cs ≤ m) :
    StartsNumber c (cs.take m) := by
  rcases h with h | ⟨rfl, h⟩
  · exact .inl h
  · refine .inr ⟨rfl, ?_⟩
    cases cs with
    | nil => cases h
    | cons d r =>
      have hd : d.isDigit = true := h
      have hone : 1 ≤ numberTail (d :: r) := by
        refine le_trans ?_ (run_le_numberTail (d :: r))
        exact length_le_run (List.forall_mem_singleton.mpr hd) r
      obtain ⟨n, rfl⟩ := Nat.exists_eq_add_of_le' (hone.trans hm)
      rw [List.take_succ_cons]
      exact hd

theorem StartsNumber.inner {c : Char} (h : StartsNumber c r) : Inner c := by
  rcases h with h | ⟨rfl, -⟩
  · exact inner_of_isDigit h
  · exact inner_minus

theorem startsNumber_iff (c : Char) (r : List Char) :
    StartsNumber c r ↔ (c.isDigit || (c = '-' && r.head?.any Char.isDigit)) = true := by
  simp [StartsNumber]

/-- A symbol starts no number, unless it is a lone minus with a digit behind it. -/
theorem not_startsNumber {c : Char} (h : startsSymbol c = true ∨ c = '-' ∧ Stops Char.isDigit r) :
    ¬ StartsNumber c r := by
  rintro (hd | ⟨rfl, hd⟩)
  · rcases h with h | ⟨rfl, -⟩
    · rw [isDigit_of_startsSymbol h] at hd
      cases hd
    · cases hd
  · rcases h with h | ⟨-, h⟩
    · cases h
    · rw [h.any_head?] at hd
      cases hd

end Lexeme

namespace Piece

/-- The class that a piece was taken for. -/
def class? : Piece → Option TokenClass
  | lexeme kind => kind.class?
  | broken .unterminatedString => some .string
  | broken (.invalidNumber _) => some .number
  | _ => none

theorem class?_number (cs : List Char) : (number cs).class? = some .number := by
  unfold number
  split <;> rfl

/-! ### Matches are taken whole -/

section Branches

variable {c : Char} {cs : List Char}

theorem front_of_startsNumber (h : StartsNumber c cs) :
    front c cs = (number (c :: cs.take (numberTail cs)), numberTail cs) :=
  front_number h.inner h

theorem front_of_startsSymbol (h : startsSymbol c = true ∨ c = '-') (hd : ¬ StartsNumber c cs) :
    front c cs = (symbol (c :: cs.take (run isSymbolChar cs)), run isSymbolChar cs) := by
  have hinner : Inner c := by
    rcases h with h | rfl
    · exact inner_of_startsSymbol h
    · exact inner_minus
  rw [startsNumber_iff, Bool.not_eq_true] at hd
  exact front_symbol hinner h hd

theorem front_open {n : Nat} (h : stringBody 0 cs = (false, n)) :
    front '"' cs = (.broken .unterminatedString, n) := by
  simp only [front, h]
  rfl

theorem front_quote_class (cs : List Char) :
    (front '"' cs).1.class? = some .string ∧ (stringBody 0 cs).2 ≤ (front '"' cs).2 := by
  cases h : stringBody 0 cs with
  | mk closed n =>
    cases closed with
    | true => rw [front_string h]; exact ⟨rfl, Nat.le_succ n⟩
    | false => rw [front_open h]; exact ⟨rfl, Nat.le_refl n⟩

end Branches

section Match

variable {k : TokenClass} {c : Char} {r : List Char} (h : c :: r ∈ k.pattern)
include h

/-- **The scanner takes at least as much** as any match at the front of the text. -/
theorem length_le_front (rest : List Char) : r.length ≤ (front c (r ++ rest)).2 := by
  cases k with
  | opening b | closing b =>
    obtain ⟨rfl, rfl⟩ := List.cons.inj (Pattern.mem_this.mp h)
    exact Nat.zero_le _
  | number =>
    obtain ⟨_, _, he, hstart, htail⟩ := mem_number.mp h
    obtain ⟨rfl, rfl⟩ := List.cons.inj he
    rw [front_of_startsNumber (hstart.append rest)]
    exact htail.length_le rest
  | symbol =>
    obtain ⟨_, _, he, hstart, hr⟩ := mem_symbol.mp h
    obtain ⟨rfl, rfl⟩ := List.cons.inj he
    by_cases hd : StartsNumber c (r ++ rest)
    · -- only a lone minus can be the start of a longer number
      cases r with
      | nil => exact Nat.zero_le _
      | cons d r => exact absurd hd (not_startsNumber hstart)
    · rw [front_of_startsSymbol (hstart.imp_right And.left) hd]
      exact length_le_run hr rest
  | keyword =>
    obtain ⟨_, he, hr⟩ := mem_keyword.mp h
    obtain ⟨rfl, rfl⟩ := List.cons.inj he
    rw [front_keyword]
    exact length_le_run hr rest
  | string =>
    obtain ⟨b, hb, he | he⟩ := mem_string.mp h
    · obtain ⟨rfl, rfl⟩ := List.cons.inj he
      have hbody := le_stringBody (0 + r.length) rest
      rw [← hb.stringBody_append, Nat.zero_add] at hbody
      exact hbody.trans (front_quote_class (r ++ rest)).2
    · obtain ⟨rfl, rfl⟩ := List.cons.inj he
      have hbody := hb.stringBody_append 0 ('"' :: rest)
      rw [Nat.zero_add] at hbody
      rw [List.append_assoc, List.singleton_append, front_string hbody, List.length_append]
      exact Nat.le_refl _

/-- A match that stands alone is taken for its class. -/
theorem class_front : (front c r).1.class? = some k := by
  cases k with
  | opening b =>
    obtain ⟨rfl, rfl⟩ := List.cons.inj (Pattern.mem_this.mp h)
    rw [front_opening]; rfl
  | closing b =>
    obtain ⟨rfl, rfl⟩ := List.cons.inj (Pattern.mem_this.mp h)
    rw [front_closing]; rfl
  | number =>
    obtain ⟨_, _, he, hstart, -⟩ := mem_number.mp h
    obtain ⟨rfl, rfl⟩ := List.cons.inj he
    rw [front_of_startsNumber hstart]
    exact class?_number _
  | symbol =>
    obtain ⟨_, _, he, hstart, -⟩ := mem_symbol.mp h
    obtain ⟨rfl, rfl⟩ := List.cons.inj he
    rw [front_of_startsSymbol (hstart.imp_right And.left) (not_startsNumber hstart)]
    rfl
  | keyword =>
    obtain ⟨_, he, -⟩ := mem_keyword.mp h
    obtain ⟨rfl, rfl⟩ := List.cons.inj he
    rw [front_keyword]; rfl
  | string =>
    obtain ⟨b, -, he | he⟩ := mem_string.mp h <;>
    · obtain ⟨rfl, rfl⟩ := List.cons.inj he
      exact (front_quote_class _).1

/-- **No text matches two classes.** -/
theorem class_unique {k' : TokenClass} (h' : c :: r ∈ k'.pattern) : k' = k :=
  Option.some.inj ((class_front h').symm.trans (class_front h))

end Match

/-! ### What is taken is a match -/

/-- **What the front of a text is** when it is a lexeme of the kind with `n` characters after the first one. -/
inductive Front (c : Char) (cs : List Char) : TokenKind → Nat → Prop
  | opening (b : Bracket) (hc : c = b.openChar) : Front c cs (.opening b) 0
  | closing (b : Bracket) (hc : c = b.closeChar) : Front c cs (.closing b) 0
  | number {x : Float} (hc : StartsNumber c cs)
    (hx : Binary64.read? (c :: cs.take (numberTail cs)) = some x) :
    Front c cs (.atom (.number x)) (numberTail cs)
  | symbol (hc : startsSymbol c = true ∨ c = '-') (hd : ¬ StartsNumber c cs) :
    Front c cs (.atom (.symbol (String.ofList (c :: cs.take (run isSymbolChar cs)))))
      (run isSymbolChar cs)
  | keyword (hc : c = ':') :
    Front c cs (.atom (.keyword (String.ofList (cs.take (run isSymbolChar cs))))) (run isSymbolChar cs)
  | string {b rest : List Char} (hc : c = '"') (hb : Body b) (hcs : cs = b ++ '"' :: rest) :
    Front c cs (.atom (.string (String.ofList (unescape b)))) (b.length + 1)

variable {c : Char} {cs : List Char} {kind : TokenKind} {n : Nat}

theorem front_of_eq (h : front c cs = (.lexeme kind, n)) : Front c cs kind n := by
  unfold front at h
  split at h
  · cases h
  split at h
  · cases h
  split at h
  · next b hb => cases h; exact .opening b (Bracket.ofOpenChar?_eq_some_iff.mp hb)
  split at h
  · next b hb => cases h; exact .closing b (Bracket.ofCloseChar?_eq_some_iff.mp hb)
  split at h
  · next hd =>
    obtain ⟨hnumber, rfl⟩ := Prod.mk.inj h
    unfold number at hnumber
    split at hnumber
    · next x hx =>
      cases hnumber
      exact .number ((startsNumber_iff c cs).mpr hd) hx
    · cases hnumber
  next hd =>
  split at h
  · next hs =>
    cases h
    exact .symbol (by simpa using hs) fun hn => hd ((startsNumber_iff c cs).mp hn)
  split at h
  · next hc => cases h; exact .keyword hc
  split at h
  · next hc =>
    split at h
    · next n' hbody =>
      cases h
      obtain ⟨b, rest, rfl, hb, hn⟩ := body_of_stringBody hbody
      rw [Nat.zero_add] at hn
      rw [hn, List.take_left]
      exact .string hc hb rfl
    · cases h
  · cases h

namespace Front

variable (h : Front c cs kind n)
include h

theorem le_length : n ≤ cs.length := by
  cases h with
  | opening | closing => exact Nat.zero_le _
  | number => exact numberTail_le_length cs
  | symbol | keyword => exact run_le_length _ cs
  | string _ _ hcs =>
    rw [hcs, List.length_append, List.length_cons]
    omega

/-- **What is taken matches the pattern** of its class. -/
theorem mem_pattern : ∃ k, kind.class? = some k ∧ c :: cs.take n ∈ k.pattern := by
  cases h with
  | opening b hc => exact ⟨_, rfl, by rw [hc, List.take_zero]; rfl⟩
  | closing b hc => exact ⟨_, rfl, by rw [hc, List.take_zero]; rfl⟩
  | number hc => exact ⟨_, rfl, mem_number.mpr ⟨_, _, rfl, hc.take (Nat.le_refl _), numberTail_take cs⟩⟩
  | symbol hc hd =>
    refine ⟨_, rfl, mem_symbol.mpr ?_⟩
    rw [startsNumber_iff] at hd
    have hsymbol := isSymbol_take (by simpa using hc) hd
    rwa [String.toList_ofList] at hsymbol
  | keyword hc =>
    exact ⟨_, rfl, mem_keyword.mpr ⟨_, by rw [hc], forall_mem_take_run isSymbolChar cs⟩⟩
  | @string b rest hc hb hcs =>
    refine ⟨_, rfl, mem_string.mpr ⟨b, hb, .inr ?_⟩⟩
    rw [hc, hcs, List.take_length_add_append]
    rfl

/-- **What comes after a lexeme does not matter** for what it is: the text may be cut off there. -/
theorem take {m : Nat} (hm : n ≤ m) : front c (cs.take m) = (.lexeme kind, n) := by
  cases h with
  | opening b hc => rw [hc, front_opening]
  | closing b hc => rw [hc, front_closing]
  | number hc hx =>
    rw [front_of_startsNumber (hc.take hm), numberTail_take_of_le hm, List.take_take, Nat.min_eq_left hm,
      Piece.number, hx]
  | symbol hc hd =>
    have hd' : ¬ StartsNumber c (cs.take m) := by
      intro hn
      rw [← List.take_append_drop m cs] at hd
      exact hd (hn.append _)
    rw [front_of_startsSymbol hc hd', run_take hm, List.take_take, Nat.min_eq_left hm, Piece.symbol]
  | keyword hc => rw [hc, front_keyword, run_take hm, List.take_take, Nat.min_eq_left hm]
  | @string b rest hc hb hcs =>
    obtain ⟨k, rfl⟩ := Nat.exists_eq_add_of_le hm
    have hbody := hb.stringBody_append 0 ('"' :: rest.take k)
    rw [Nat.zero_add] at hbody
    rw [hc, hcs, Nat.add_assoc, List.take_length_add_append, Nat.add_comm 1, List.take_succ_cons]
    refine (front_string hbody).trans ?_
    rw [List.take_left]

end Front

end Piece

end MusicLisp
