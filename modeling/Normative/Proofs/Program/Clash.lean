import Normative.Proofs.Program.Closure
import Normative.Proofs.Program.Uniqueness

/-!
# Texts with the same name

The texts of a program have names of four shapes: the institution in lower case, the beginning of an
action with the position of its norm, `condition` with the position of a norm and the number of a
condition, and `violation_string` or `compound_violation_string` with the position of a violation.
Assets, clauses, facts, agendas and subjects have names that are declared once. Texts do not: the
beginning of an action can be spelt like one of the fixed words, and the institution like any name.

This file says exactly when two texts have the same name. Actions differ from one another by their
positions, and conditions and consequences differ from all others of the two kinds. What is left
are an action that is spelt `condition` with a position, at a position that is the number of a
condition of the norm there, an action that is spelt like the word for a violation at its own
position, and the institution.

## Main definitions

* `Schema.actionNames`, `Schema.conditionNames`, `Schema.consequenceNames` : the names of texts.
* `Schema.TextsApart` : a schema for which they are different.
* `Place.ofText?` : the part that the name of a condition or of a consequence tells.

## Main results

* `Schema.nodup_texts_iff_apart` : the texts of a program have different names exactly if they are
  apart.
-/

namespace Normative

open Identifier Place Program Statement

/-! ### The names of texts -/

/-- The word in the name of the text of a consequence. -/
def ViolatedNorms.textWord : ViolatedNorms → String
  | single _ => "violation_string"
  | compound _ _ => "compound_violation_string"

namespace Schema

/-- Whether all norms to which a violation refers exist. -/
def knows (schema : Schema) (violation : Violation) : Bool :=
  violation.norms.ids.all fun id ↦ (schema.norm? id).isSome

/-- The names of the texts of actions. -/
def actionNames (schema : Schema) : List String :=
  schema.numberedNorms.map fun n ↦ actionText n.1.action n.2

/-- The names of the texts of conditions. -/
def conditionNames (schema : Schema) : List String :=
  schema.numberedNorms.flatMap fun n ↦ ((Draft.conditionTexts n.1.conditions).zipIdx 1).map fun c ↦
    "condition" ++ Draft.conditionLabel n.2 c.2

/-- The names of the texts of consequences. -/
def consequenceNames (schema : Schema) : List String :=
  (schema.violations.zipIdx 1).flatMap fun v ↦
    if schema.knows v.1 then [v.1.norms.textWord ++ "_" ++ toString v.2] else []

/-- The texts of a schema are apart if the institution in lower case is not the name of another
text, no action is spelt like a norm that has a condition with the number of its position, and no
action is spelt like the word for the violation at its position. The first condition of a norm has
no number in its name. -/
structure TextsApart (schema : Schema) (institution : Institution) : Prop where
  institution : Text.lowercase institution.name ∉
    schema.actionNames ++ schema.conditionNames ++ schema.consequenceNames
  conditions : ∀ n ∈ schema.numberedNorms, ∀ m ∈ schema.numberedNorms,
    2 ≤ n.2 → n.2 ≤ (Draft.conditionTexts m.1.conditions).length →
      String.ofList (actionBody n.1.action.toList) ≠ "condition" ++ toString m.2
  consequences : ∀ n ∈ schema.numberedNorms, ∀ v ∈ schema.violations.zipIdx 1,
    v.2 = n.2 → schema.knows v.1 = true →
      String.ofList (actionBody n.1.action.toList) ≠ v.1.norms.textWord

end Schema

namespace Draft

variable (draft : Draft)

theorem names_text_texts :
    names .text draft.texts = draft.baseText :: draft.schema.actionNames := by
  simp [texts, name?, Schema.actionNames]

theorem names_text_norms : names .text draft.norms = draft.schema.conditionNames := by
  simp only [names_norms, names_text_norm, Schema.conditionNames]

theorem names_text_violation (violation : Violation) (position : Nat) :
    names .text (draft.violation violation position) =
      if draft.schema.knows violation then
        [violation.norms.textWord ++ "_" ++ toString position] else [] := by
  have hknows : draft.schema.knows violation = true ↔
      ∀ id ∈ violation.norms.ids, draft.schema.assetOf? id ≠ none := by
    simp [Schema.knows, Schema.norm?_isSome_iff, Schema.assetOf?_eq_none_iff]
  rw [Draft.violation]
  rcases draft.schema.mapM_assetOf?_cases violation.norms.ids with
    ⟨assets, hassets, hall⟩ | ⟨hnone, id, hmem, hid⟩
  · have hsome : List.Forall₂ (fun id asset ↦ draft.schema.assetOf? id ≠ none ∧
        draft.schema.assetOf? id = some asset) violation.norms.ids assets :=
      hall.imp fun _ _ hasset ↦ ⟨by simp [hasset], hasset⟩
    rw [hassets, if_pos (hknows.mpr ((List.forall₂_and_left _ _).mp hsome).1)]
    cases violation.norms with
    | single id => rfl
    | compound first second => rfl
  · rw [hnone, if_neg fun h ↦ hknows.mp h id hmem hid]
    rfl

theorem names_text_violations :
    names .text draft.violations = draft.schema.consequenceNames := by
  simp only [names_violations, names_text_violation, Schema.consequenceNames]

theorem names_text_program : names .text draft.program =
    draft.baseText :: (draft.schema.actionNames ++
      (draft.schema.conditionNames ++ draft.schema.consequenceNames)) := by
  simp [Draft.program, names_text_texts, names_subjects, names_baseAsset, names_text_norms,
    names_text_violations, names_facts, names_agendas]

end Draft

/-! ### Conditions and consequences -/

namespace Place

/-- The place that the name of the text of a condition or of a consequence tells. -/
def ofText? (name : String) : Option Place :=
  (ofLabel? name).or
    (match ending name with
    | (some '_', some n) => some (violation n)
    | _ => none)

theorem ofText?_condition (position number : Nat) :
    ofText? ("condition" ++ Draft.conditionLabel position number) =
      some (condition position number) := by
  rw [ofText?, ofLabel?_condition (by simp) rfl, Option.some_or]

/-- A word in front of a number is not taken for a condition if it has no number itself. -/
theorem ofText?_violation {word : String} {c : Char} (hword : word.toList.getLast? = some c)
    (hc : c.isDigit = false) (position : Nat) :
    ofText? (word ++ "_" ++ toString position) = some (violation position) := by
  have hnone : number? word = none := number?_eq_of_ending (ending_eq hword hc)
  rw [ofText?, ofLabel?, ending_append_toString (getLast?_underscore word) rfl]
  simp only [front_append_toString (getLast?_underscore word) rfl, shortened_append, hnone,
    Option.map_none, Option.none_or]

end Place

theorem ViolatedNorms.getLast?_textWord (norms : ViolatedNorms) :
    norms.textWord.toList.getLast? = some 'g' := by
  cases norms <;> simp [textWord]

namespace Schema

variable (schema : Schema)

theorem tells_conditionNames :
    Tells ofText? (⋃ position, ofNorm position) schema.conditionNames := by
  refine .flatMap_zipIdx (fun n ↦ ?_) fun _ _ ↦ notMem_ofNorm
  have hconditions : Tells ofText? (⋃ number, {Place.condition n.2 number})
      (((Draft.conditionTexts n.1.conditions).zipIdx 1).map fun c ↦
        "condition" ++ Draft.conditionLabel n.2 c.2) :=
    .map_zipIdx (fun c ↦ ofText?_condition n.2 c.2) (by simp)
  refine hconditions.mono fun place hplace ↦ ?_
  obtain ⟨number, rfl⟩ := Set.mem_iUnion.mp hplace
  exact .inr ⟨number, rfl⟩

theorem tells_consequenceNames :
    Tells ofText? (⋃ position, {Place.violation position}) schema.consequenceNames := by
  refine .flatMap_zipIdx (fun v ↦ ?_) ?_
  · split
    · exact .singleton (ofText?_violation v.1.norms.getLast?_textWord rfl v.2) rfl
    · exact .nil
  · rintro i j hne _ rfl h
    exact hne (Place.violation.inj h)

/-- The texts of conditions and of consequences have different names. -/
theorem nodup_conditionNames_consequenceNames :
    (schema.conditionNames ++ schema.consequenceNames).Nodup := by
  refine (schema.tells_conditionNames.append schema.tells_consequenceNames ?_).nodup
  intro place hplace
  obtain ⟨position, rfl | ⟨number, rfl⟩⟩ := Set.mem_iUnion.mp hplace <;> simp

end Schema

/-! ### Actions -/

namespace Schema

variable {schema : Schema} {institution : Institution}

theorem nodup_actionNames (schema : Schema) : schema.actionNames.Nodup := by
  have hnumber (n : Norm × Nat) : number? (actionText n.1.action n.2) = some n.2 :=
    number?_eq_of_ending (ending_actionText n.1.action n.2)
  have hplaces : Tells number? (⋃ i, {i}) ((schema.norms.zipIdx 1).map fun n ↦
      actionText n.1.action n.2) := .map_zipIdx hnumber fun _ _ h ↦ h
  exact hplaces.nodup

/-- The name of an action is that of a condition exactly if the action is spelt like the norm of the
condition and has the number of the condition for its position. -/
theorem actionText_eq_condition_iff {action : String} {position position' number : Nat} :
    actionText action position = "condition" ++ Draft.conditionLabel position' number ↔
      number ≠ 1 ∧ String.ofList (actionBody action.toList) = "condition" ++ toString position' ∧
        position = number := by
  by_cases hone : number = 1
  · have hword : "condition".toList.getLast? = some 'n' := by simp
    -- Without a number the name does not end in an underscore and a number.
    refine iff_of_false (fun h ↦ ?_) fun h ↦ h.1 hone
    have hending := congrArg ending h
    rw [hone, ending_actionText, ending_firstLabel hword rfl] at hending
    simp at hending
  · have hhead : ("condition" ++ toString position').toList.head? = some 'c' := by simp
    rw [append_label _ hone, actionText_eq_iff hhead rfl (by decide), and_iff_right hone]

theorem actionText_eq_consequence_iff {action : String} {position position' : Nat}
    (norms : ViolatedNorms) :
    actionText action position = norms.textWord ++ "_" ++ toString position' ↔
      String.ofList (actionBody action.toList) = norms.textWord ∧ position = position' := by
  cases norms with
  | single id =>
    exact actionText_eq_iff (c := 'v') (by simp [ViolatedNorms.textWord]) rfl (by decide)
  | compound first second =>
    exact actionText_eq_iff (c := 'c') (by simp [ViolatedNorms.textWord]) rfl (by decide)

/-- The names of actions differ from those of conditions exactly if no action is spelt like a norm
that has a condition with the number of its position. -/
theorem actionNames_ne_conditionNames_iff :
    (∀ name ∈ schema.actionNames, ∀ name' ∈ schema.conditionNames, name ≠ name') ↔
      ∀ n ∈ schema.numberedNorms, ∀ m ∈ schema.numberedNorms,
        2 ≤ n.2 → n.2 ≤ (Draft.conditionTexts m.1.conditions).length →
          String.ofList (actionBody n.1.action.toList) ≠ "condition" ++ toString m.2 := by
  simp only [actionNames, conditionNames, List.forall_mem_map, List.forall_mem_flatMap, ne_eq,
    actionText_eq_condition_iff]
  refine forall₂_congr fun n _ ↦ forall₂_congr fun m _ ↦ ⟨fun h htwo hle hbody ↦ ?_, ?_⟩
  · have hlt : n.2 - 1 < (Draft.conditionTexts m.1.conditions).length := by omega
    have hmem : ((Draft.conditionTexts m.1.conditions)[n.2 - 1], n.2) ∈
        (Draft.conditionTexts m.1.conditions).zipIdx 1 :=
      List.mem_zipIdx_iff_le_and_getElem?_sub.mpr ⟨by omega, List.getElem?_eq_getElem hlt⟩
    exact h _ hmem ⟨by omega, hbody, rfl⟩
  · rintro h c hc ⟨hne, hbody, hposition⟩
    have hrange := List.mem_zipIdx hc
    exact h (by omega) (by omega) hbody

/-- The names of actions differ from those of consequences exactly if no action is spelt like the
word for the violation at its position. -/
theorem actionNames_ne_consequenceNames_iff :
    (∀ name ∈ schema.actionNames, ∀ name' ∈ schema.consequenceNames, name ≠ name') ↔
      ∀ n ∈ schema.numberedNorms, ∀ v ∈ schema.violations.zipIdx 1,
        v.2 = n.2 → schema.knows v.1 = true →
          String.ofList (actionBody n.1.action.toList) ≠ v.1.norms.textWord := by
  simp only [actionNames, consequenceNames, List.forall_mem_map, List.forall_mem_flatMap]
  refine forall₂_congr fun n _ ↦ forall₂_congr fun v _ ↦ ?_
  by_cases hknows : schema.knows v.1 = true
  · rw [if_pos hknows, List.forall_mem_singleton, ne_eq, actionText_eq_consequence_iff]
    exact ⟨fun h hposition _ hbody ↦ h ⟨hbody, hposition.symm⟩,
      fun h hsame ↦ h hsame.2.symm hknows hsame.1⟩
  · simp [hknows]

/-- The texts of the program that a schema with an institution gives have different names exactly if
they are apart. -/
theorem nodup_texts_iff_apart (hinstitution : schema.institution = some institution)
    (classifier : Classifier) :
    ∃ program, schema.program? classifier = some program ∧
      ((names .text program).Nodup ↔ schema.TextsApart institution) := by
  refine ⟨_, program?_eq_some hinstitution classifier, ?_⟩
  have hothers := schema.nodup_conditionNames_consequenceNames
  rw [Draft.names_text_program, List.nodup_cons, List.nodup_append, ← List.append_assoc]
  constructor
  · rintro ⟨hbase, -, -, hne⟩
    refine ⟨hbase, actionNames_ne_conditionNames_iff.mp fun name hname name' hname' ↦ ?_,
      actionNames_ne_consequenceNames_iff.mp fun name hname name' hname' ↦ ?_⟩
    · exact hne name hname name' (List.mem_append_left _ hname')
    · exact hne name hname name' (List.mem_append_right _ hname')
  · intro h
    refine ⟨h.institution, schema.nodup_actionNames, hothers, fun name hname name' hname' ↦ ?_⟩
    rcases List.mem_append.mp hname' with hname' | hname'
    · exact actionNames_ne_conditionNames_iff.mpr h.conditions name hname name' hname'
    · exact actionNames_ne_consequenceNames_iff.mpr h.consequences name hname name' hname'

/-- A schema in which the institution and both actions are spelt like texts that it does not have: a
condition of the second norm, a second condition of the first norm, and a single violation. -/
def nearClash : Schema where
  institution := some ⟨"Condition2", "contrato", .multiple, "derecho-civil"⟩
  norms :=
    [⟨1, "comprador", .obligation, "violation string", none, [.text "factura"], .authored⟩,
      ⟨2, "vendedor", .obligation, "condition1", none, [.norm 1], .authored⟩]
  violations := [⟨.compound 1 2, "vendedor", .claimRight, "avisar"⟩,
    ⟨.single 3, "vendedor", .claimRight, "avisar"⟩]
  facts := []
  agendas := []

theorem nodup_texts_iff_apart_nearClash :
    ∃ program, nearClash.program? .byKeyword = some program ∧
      nearClash.TextsApart ⟨"Condition2", "contrato", .multiple, "derecho-civil"⟩ ∧
      (names .text program).Nodup := by
  have hinstitution : nearClash.institution =
      some ⟨"Condition2", "contrato", .multiple, "derecho-civil"⟩ := rfl
  have hapart : nearClash.TextsApart ⟨"Condition2", "contrato", .multiple, "derecho-civil"⟩ :=
    ⟨by decide +kernel, by decide +kernel, by decide +kernel⟩
  obtain ⟨program, hprogram, hiff⟩ := nodup_texts_iff_apart hinstitution .byKeyword
  exact ⟨program, hprogram, hapart, hiff.mpr hapart⟩

/-- A schema in which the second action is spelt like the first norm, which has two conditions. -/
def clash : Schema where
  institution := some ⟨"Compraventa", "contrato", .multiple, "derecho-civil"⟩
  norms :=
    [⟨1, "comprador", .obligation, "pagar", none, [.text "factura", .text "plazo"], .authored⟩,
      ⟨2, "vendedor", .obligation, "condition1", none, [], .authored⟩]
  violations := []
  facts := []
  agendas := []

/-- Two texts of the program have the same name and say different things, so that an asset which is
described by one of them is described by the other as well. -/
theorem clash_declares_text_twice :
    ∃ program, clash.program? .byKeyword = some program ∧
      Statement.text "condition1_2" "condition1" ∈ program ∧
      Statement.text "condition1_2" "plazo" ∈ program ∧ ¬ (names .text program).Nodup := by
  have hmem : (clash.program? .byKeyword).map (fun program ↦
      decide (Statement.text "condition1_2" "condition1" ∈ program) &&
        decide (Statement.text "condition1_2" "plazo" ∈ program)) = some true := by decide +kernel
  have hnames : (clash.program? .byKeyword).map (names .text) =
      some ["compraventa", "pagar_1", "condition1_2", "condition1", "condition1_2"] := by
    decide +kernel
  cases hprogram : clash.program? .byKeyword with
  | none => simp [hprogram] at hnames
  | some program =>
    rw [hprogram] at hmem hnames
    have htwice := Bool.and_eq_true_iff.mp (Option.some.inj hmem)
    refine ⟨program, rfl, of_decide_eq_true htwice.1, of_decide_eq_true htwice.2, ?_⟩
    rw [Option.some.inj hnames]
    decide

end Schema

end Normative
