import Mathlib.Data.List.DropRight
import Mathlib.Data.List.SplitBy
import Mathlib.Data.List.TakeWhile
import Normative.Proofs.Identifier.Alphabet

/-!
# The part of a name that comes from an action

An action becomes part of a name in one pass over its characters. The pass puts in underscores, it
stops when the name is long enough, and whether a character is put in depends on what the name holds
so far. The result is the same as that of four steps, each of which is about the text as a whole:
the characters before the first letter or digit are dropped, every maximal run of characters other
than letters and digits becomes one underscore, the text is cut to thirty characters, and an
underscore at its end is removed.

The limit may stop the pass between two underscores of the text or in the middle of a run. It has no
effect on the characters before, so a name with a limit is the beginning of the name without one.

## Main definitions

* `Identifier.condense` : a text with one underscore for every run.
* `Identifier.condensed` : the four steps.
* `Identifier.IsTidy` : a short text with single underscores between its letters and digits.

## Main results

* `Identifier.foldl_addActionChar` : a name with a limit and one without.
* `Identifier.reverse_foldl_extend` : the name without a limit, and the runs of the text.
* `Identifier.actionText_condensed` : the name of an action from the four steps, and the names of
  actions at different positions.
-/

namespace Normative.Identifier

/-! ### Runs -/

/-- Whether two neighbours belong to one run: both are letters or digits, or neither is. -/
def sameRun (c d : Char) : Bool := c.isAlphanum == d.isAlphanum

/-- A run of letters and digits as it is, and an underscore for any other run. -/
def ofRun (run : List Char) : List Char := if run.all Char.isAlphanum then run else ['_']

/-- A text in which every maximal run of characters other than letters and digits has become one
underscore. -/
def condense (text : List Char) : List Char := (text.splitBy sameRun).flatMap ofRun

/-- A text without the underscore at its end, if there is one. -/
def withoutEnd (text : List Char) : List Char :=
  if text.getLast? = some '_' then text.dropLast else text

/-- A text from its first letter or digit on, with one underscore for every run of other characters,
cut to thirty characters, and without an underscore at its end. -/
def condensed (text : List Char) : List Char :=
  withoutEnd ((condense (text.dropWhile fun c ↦ !c.isAlphanum)).take 30)

/-- What a character leaves in a name: itself, or an underscore. -/
def trace (c : Char) : Char := if c.isAlphanum then c else '_'

theorem all_isAlphanum_of_isChain {c : Char} {run : List Char}
    (h : (c :: run).IsChain fun c d ↦ sameRun c d = true) :
    (c :: run).all Char.isAlphanum = c.isAlphanum := by
  induction run generalizing c with
  | nil => simp
  | cons d run ih =>
    obtain ⟨hsame, hrun⟩ := List.isChain_cons_cons.mp h
    have hclass : c.isAlphanum = d.isAlphanum := beq_iff_eq.mp hsame
    rw [List.all_cons, ih hrun, hclass, Bool.and_self]

/-- The runs of a text with two characters in front: the first one joins the run of the second, or
it is a run of its own. -/
theorem splitBy_cons_cons (c d : Char) (text : List Char) :
    ∃ run runs, (d :: run).all Char.isAlphanum = d.isAlphanum ∧
      (d :: text).splitBy sameRun = (d :: run) :: runs ∧
      (c :: d :: text).splitBy sameRun =
        if sameRun c d then (c :: d :: run) :: runs else [c] :: (d :: run) :: runs := by
  obtain ⟨first, runs, hruns⟩ :=
    List.exists_cons_of_ne_nil (List.splitBy_ne_nil (r := sameRun).mpr (List.cons_ne_nil d text))
  obtain ⟨hflatten, hempty, hchains, hborders⟩ := List.splitBy_eq_iff.mp hruns
  obtain ⟨e, run, rfl⟩ := List.exists_cons_of_ne_nil fun h : first = [] ↦
    hempty (h ▸ List.mem_cons_self)
  obtain ⟨rfl, htext⟩ := List.cons.inj hflatten
  have hchain := hchains _ List.mem_cons_self
  refine ⟨run, runs, all_isAlphanum_of_isChain hchain, hruns, ?_⟩
  by_cases hsame : sameRun c d = true
  · rw [if_pos hsame, List.splitBy_eq_iff]
    refine ⟨congrArg (c :: ·) hflatten, ?_, ?_, ?_⟩
    · simpa using hempty
    · refine List.forall_mem_cons.mpr ⟨List.isChain_cons_cons.mpr ⟨hsame, hchain⟩, ?_⟩
      exact (List.forall_mem_cons.mp hchains).2
    · -- The longer run ends where the shorter one does.
      rw [List.isChain_cons] at hborders ⊢
      simpa using hborders
  · rw [if_neg hsame, ← hruns]
    exact List.splitBy_append_cons (l := [c]) text (by simpa using hsame)

theorem ofRun_singleton (c : Char) : ofRun [c] = [trace c] := by
  by_cases hc : c.isAlphanum = true <;> simp [ofRun, trace, hc]

theorem condense_singleton (c : Char) : condense [c] = [trace c] := by
  rw [condense, List.splitBy_of_isChain (List.cons_ne_nil c []) (List.isChain_singleton c),
    List.flatMap_singleton, ofRun_singleton]

theorem condense_cons_cons (c d : Char) (text : List Char) :
    condense (c :: d :: text) =
      if c.isAlphanum || d.isAlphanum then trace c :: condense (d :: text)
      else condense (d :: text) := by
  obtain ⟨run, runs, hall, hruns, hmore⟩ := splitBy_cons_cons c d text
  have hrun : ofRun (d :: run) = if d.isAlphanum then d :: run else ['_'] := by rw [ofRun, hall]
  have hlonger : ofRun (c :: d :: run) =
      if c.isAlphanum && d.isAlphanum then c :: d :: run else ['_'] := by
    rw [ofRun, List.all_cons, hall]
  rw [condense, condense, hruns, hmore]
  by_cases hc : c.isAlphanum = true <;> by_cases hd : d.isAlphanum = true <;>
    simp [sameRun, trace, ofRun_singleton, hc, hd, hrun, hlonger]

theorem head?_condense_cons (c : Char) (text : List Char) :
    (condense (c :: text)).head? = some (trace c) := by
  induction text generalizing c with
  | nil => simp [condense_singleton]
  | cons d text ih =>
    rw [condense_cons_cons]
    by_cases hc : c.isAlphanum = true
    · simp [hc]
    · by_cases hd : d.isAlphanum = true <;> simp [hc, hd, ih, trace]

/-! ### The pass -/

/-- One character added to a name without a limit, which is held in reverse. -/
def extend (name : List Char) (c : Char) : List Char :=
  if c.isAlphanum then c :: name
  else if name.isEmpty || name.head? == some '_' then name
  else '_' :: name

theorem extend_cases (name : List Char) (c : Char) :
    extend name c = name ∨ ∃ d, extend name c = d :: name := by
  rw [extend]
  split
  · exact .inr ⟨_, rfl⟩
  · split
    · exact .inl rfl
    · exact .inr ⟨_, rfl⟩

/-- A name that has reached the limit has the same beginning whatever is added to it. -/
theorem rtake_extend {limit : Nat} {name : List Char} (h : limit ≤ name.length) (c : Char) :
    (extend name c).rtake limit = name.rtake limit := by
  rcases extend_cases name c with hsame | ⟨d, hcons⟩
  · rw [hsame]
  · rw [hcons, List.rtake, List.length_cons, Nat.succ_sub h, List.drop_succ_cons, List.rtake]

theorem rtake_of_length_le {limit : Nat} {name : List Char} (h : name.length ≤ limit) :
    name.rtake limit = name := by
  rw [List.rtake, Nat.sub_eq_zero_of_le h, List.drop_zero]

theorem addActionChar_rtake (name : List Char) (c : Char) :
    addActionChar (name.rtake actionLimit) c = (extend name c).rtake actionLimit := by
  by_cases hfull : actionLimit ≤ name.length
  · have hlength : actionLimit ≤ (name.rtake actionLimit).length := by
      rw [List.rtake, List.length_drop]
      omega
    rw [addActionChar, if_pos hlength, rtake_extend hfull]
  · have hlength : (extend name c).length ≤ actionLimit := by
      rcases extend_cases name c with hsame | ⟨d, hcons⟩
      · rw [hsame]
        omega
      · rw [hcons, List.length_cons]
        omega
    rw [rtake_of_length_le (by omega), rtake_of_length_le hlength, addActionChar, if_neg hfull,
      extend]

/-- A pass with a limit gives the beginning of what a pass without one gives. -/
theorem foldl_addActionChar (action : List Char) :
    action.foldl addActionChar [] = (action.foldl extend []).rtake actionLimit := by
  rw [← List.foldl_hom (fun name : List Char ↦ name.rtake actionLimit) addActionChar_rtake,
    List.rtake_nil]

theorem trace_ne_underscore {c : Char} (hc : c.isAlphanum = true) : trace c ≠ '_' := by
  rw [trace, if_pos hc]
  rintro rfl
  exact absurd hc (by decide)

/-- The invariant of the pass: if the last character of the name is the trace of a character, the
name goes on as the text does from that character. -/
theorem reverse_foldl_extend_cons (text : List Char) (c : Char) (name : List Char) :
    (text.foldl extend (trace c :: name)).reverse = name.reverse ++ condense (c :: text) := by
  induction text generalizing c name with
  | nil => simp [condense_singleton]
  | cons d text ih =>
    rw [List.foldl_cons, condense_cons_cons]
    by_cases hd : d.isAlphanum = true
    · have hstep : extend (trace c :: name) d = trace d :: trace c :: name := by
        simp [extend, trace, hd]
      rw [hstep, ih]
      simp [hd]
    · by_cases hc : c.isAlphanum = true
      · have hstep : extend (trace c :: name) d = trace d :: trace c :: name := by
          have hunderscore : trace d = '_' := if_neg hd
          simp [extend, hd, hunderscore, trace_ne_underscore hc]
        rw [hstep, ih]
        simp [hc]
      · -- The run goes on, and its underscore is there already.
        have hstep : extend (trace c :: name) d = trace d :: name := by
          simp [extend, trace, hc, hd]
        rw [hstep, ih]
        simp [hc, hd]

/-- Without a limit, the pass replaces the runs after the first letter or digit. -/
theorem reverse_foldl_extend (action : List Char) :
    (action.foldl extend []).reverse = condense (action.dropWhile fun c ↦ !c.isAlphanum) := by
  induction action with
  | nil => rfl
  | cons c action ih =>
    by_cases hc : c.isAlphanum = true
    · have hstep : extend [] c = [trace c] := by simp [extend, trace, hc]
      rw [List.foldl_cons, hstep, reverse_foldl_extend_cons]
      simp [hc]
    · have hstep : extend [] c = [] := by simp [extend, hc]
      rw [List.foldl_cons, hstep, ih]
      simp [hc]

/-! ### Single underscores -/

/-- Two neighbours that are not both underscores. -/
def NotBoth (c d : Char) : Prop := ¬ (c = '_' ∧ d = '_')

theorem isChain_condense (text : List Char) : (condense text).IsChain NotBoth := by
  induction text with
  | nil => exact .nil
  | cons c text ih =>
    cases text with
    | nil =>
      rw [condense_singleton]
      exact .singleton _
    | cons d text =>
      rw [condense_cons_cons]
      split
      · rename_i hor
        refine List.isChain_cons.mpr ⟨fun e he ↦ ?_, ih⟩
        rw [head?_condense_cons, Option.mem_some_iff] at he
        rw [← he]
        rintro ⟨hc, hd⟩
        rcases Bool.or_eq_true_iff.mp hor with h | h
        · exact trace_ne_underscore h hc
        · exact trace_ne_underscore h hd
      · exact ih

/-- If no two underscores are neighbours, there is at most one to remove at the end. -/
theorem rdropWhile_eq_withoutEnd {text : List Char} (h : text.IsChain NotBoth) :
    text.rdropWhile (· == '_') = withoutEnd text := by
  rcases List.eq_nil_or_concat' text with rfl | ⟨front, c, rfl⟩
  · rfl
  · rw [List.rdropWhile_concat, withoutEnd, List.getLast?_concat, List.dropLast_concat]
    by_cases hc : c = '_'
    · rw [if_pos (by simp [hc]), if_pos (by simp [hc]), List.rdropWhile_eq_self_iff]
      intro hfront hlast
      exact (List.isChain_append.mp h).2.2 _ (List.getLast_mem_getLast? hfront) c rfl
        ⟨beq_iff_eq.mp hlast, hc⟩
    · rw [if_neg (by simpa using hc), if_neg (by simpa using hc)]

theorem actionBody_eq_condensed (action : List Char) : actionBody action = condensed action := by
  have hpass : action.foldl addActionChar [] =
      ((condense (action.dropWhile fun c ↦ !c.isAlphanum)).take 30).reverse := by
    rw [foldl_addActionChar, List.rtake_eq_reverse_take_reverse, reverse_foldl_extend]
    rfl
  rw [actionBody, hpass, condensed, ← rdropWhile_eq_withoutEnd ((isChain_condense _).take 30)]
  rfl

/-! ### The four steps -/

theorem head?_withoutEnd {text : List Char} (h : text.head? ≠ some '_') :
    (withoutEnd text).head? = text.head? := by
  rcases List.eq_nil_or_concat' text with rfl | ⟨front, c, rfl⟩
  · rfl
  · rw [withoutEnd, List.getLast?_concat, List.dropLast_concat]
    split
    · rename_i hc
      cases front with
      | nil => exact absurd hc h
      | cons d front => rfl
    · rfl

theorem getLast?_withoutEnd {text : List Char} (h : text.IsChain NotBoth) :
    (withoutEnd text).getLast? ≠ some '_' := by
  rw [← rdropWhile_eq_withoutEnd h]
  intro hlast
  obtain ⟨front, hfront⟩ := List.getLast?_eq_some_iff.mp hlast
  have hnot := List.rdropWhile_last_not (p := (· == '_')) text (by simp [hfront])
  simp [hfront] at hnot

theorem withoutEnd_isPrefix (text : List Char) : withoutEnd text <+: text := by
  rw [withoutEnd]
  split
  · exact List.dropLast_prefix text
  · exact List.prefix_rfl

/-- The four steps give a text that begins with the first letter or digit of the action. -/
theorem head?_condensed (text : List Char) :
    (condensed text).head? = text.find? Char.isAlphanum := by
  have hstart : (text.dropWhile fun c ↦ !c.isAlphanum).head? = text.find? Char.isAlphanum :=
    (text.find?_eq_head?_dropWhile_not Char.isAlphanum).symm
  cases hrest : text.dropWhile fun c ↦ !c.isAlphanum with
  | nil =>
    rw [hrest] at hstart
    rw [condensed, hrest, ← hstart]
    rfl
  | cons c rest =>
    rw [hrest, List.head?_cons] at hstart
    have hc : c.isAlphanum = true := List.find?_some hstart.symm
    have hhead : ((condense (c :: rest)).take 30).head? = some (trace c) := by
      rw [List.head?_take, if_neg (by decide), head?_condense_cons]
    have htrace : trace c = c := if_pos hc
    rw [condensed, hrest, head?_withoutEnd, hhead, htrace, hstart]
    rw [hhead]
    exact fun h ↦ trace_ne_underscore hc (Option.some.inj h)

/-- A text of at most thirty characters with single underscores, none of which stands at the
beginning or at the end. -/
structure IsTidy (text : List Char) : Prop where
  head : text.head? ≠ some '_'
  last : text.getLast? ≠ some '_'
  single : ¬ ['_', '_'] <:+: text
  length_le : text.length ≤ 30

theorem isTidy_condensed (text : List Char) : IsTidy (condensed text) := by
  have hchain := (isChain_condense (text.dropWhile fun c ↦ !c.isAlphanum)).take 30
  have hbeginning := withoutEnd_isPrefix
    ((condense (text.dropWhile fun c ↦ !c.isAlphanum)).take 30)
  refine ⟨fun hhead ↦ ?_, getLast?_withoutEnd hchain, fun hpair ↦ ?_, ?_⟩
  · rw [head?_condensed] at hhead
    exact absurd (List.find?_some hhead) (by decide)
  · have hpair := hchain.infix (hpair.trans hbeginning.isInfix)
    exact (List.isChain_cons_cons.mp hpair).1 ⟨rfl, rfl⟩
  · exact hbeginning.length_le.trans (List.length_take_le 30 _)

/-! ### Names of actions -/

/-- A lead is put in front of a name exactly if the part of it that comes from a text begins with a
digit. -/
theorem letterFirst_append (body : List Char) (position : Nat) (lead : String) :
    letterFirst (String.ofList body ++ "_" ++ toString position) lead =
      (if body.head?.any Char.isDigit then lead else "") ++ String.ofList body ++ "_" ++
        toString position := by
  cases body with
  | nil => simp [letterFirst]
  | cons c body => by_cases hc : c.isDigit = true <;> simp [letterFirst, hc, String.append_assoc]

/-- The part of a name that comes from an action is what the four steps give. It is tidy, the lead
stands in front of it exactly if it begins with a digit, and the position behind it tells the names
of actions at different positions apart, whatever the actions are. -/
theorem actionText_condensed (action : String) (position : Nat) :
    actionBody action.toList = condensed action.toList ∧
      IsTidy (actionBody action.toList) ∧
      actionText action position =
        (if (condensed action.toList).head?.any Char.isDigit then "accion_" else "") ++
          String.ofList (condensed action.toList) ++ "_" ++ toString position ∧
      ∀ (action' : String) (position' : Nat), position ≠ position' →
        actionText action position ≠ actionText action' position' := by
  rw [actionBody_eq_condensed]
  refine ⟨rfl, isTidy_condensed _, ?_, fun action' position' hne hsame ↦ hne ?_⟩
  · rw [actionText, actionBody_eq_condensed, letterFirst_append]
  · have hending := congrArg ending hsame
    rw [ending_actionText, ending_actionText] at hending
    exact Option.some.inj (Prod.mk.inj hending).2

/-- An action that is cut behind an underscore, and two actions of which only one needs the lead. -/
theorem actionText_condensed_cutOff :
    actionBody "¡abstenerse de competir con el -- vendedor!".toList =
        "abstenerse_de_competir_con_el".toList ∧
      IsTidy "abstenerse_de_competir_con_el".toList ∧
      actionText "2 -- 1" 2 = "accion_2_1_2" ∧ actionText "accion 2 1" 12 = "accion_2_1_12" ∧
      actionText "2 -- 1" 2 ≠ actionText "accion 2 1" 12 := by
  have hbody : actionBody "¡abstenerse de competir con el -- vendedor!".toList =
      "abstenerse_de_competir_con_el".toList := by decide +kernel
  have htidy := (actionText_condensed "¡abstenerse de competir con el -- vendedor!" 1).2.1
  rw [hbody] at htidy
  exact ⟨hbody, htidy, by decide, by decide,
    (actionText_condensed "2 -- 1" 2).2.2.2 "accion 2 1" 12 (by decide)⟩

end Normative.Identifier
