import Normative.Proofs.Enrichment.Interleaving
import Normative.Proofs.Program.Agreement
import Normative.Proofs.Program.Declaration
import Normative.Proofs.Schema.History

/-!
# What enrichment leaves as it was

Everything that a program states depends on the whole schema: the parties are the first two roles,
names come from positions, and references are looked up among all norms. Norms that are added at the
end nevertheless leave the statements for the others alone, provided that the others settle the
parties between them and that every reference has found its norm before. This holds of the norms
that enrichment adds. It does not hold of facts and agendas, which may mention the added norms.

The programs are compared part by part, through what their drafts have in common.

## Main definitions

* `Schema.references` : the norms to which conditions and violations refer.
* `Schema.followedBy` : a schema with more norms at the end.
* `Outline`, `Draft.outline` : a program with the statements for each norm and violation apart.
* `Outline.KeptIn` : a program goes on as another one does.

## Main results

* `Draft.agreesOn_followedBy` : a draft agrees with that of a schema with more norms.
* `Draft.keptIn_followedBy` : norms at the end leave the statements for the others alone.
* `Schema.outline_keptIn_enrich` : so does enrichment.
-/

namespace Normative

/-! ### Norms at the end -/

namespace Schema

variable {schema : Schema} {added : List Norm} {id : NormId}

/-- The norms to which conditions and violations refer. -/
def references (schema : Schema) : List NormId :=
  schema.norms.flatMap Norm.references ++ schema.violations.flatMap (·.norms.ids)

/-- A schema with more norms at the end. -/
def followedBy (schema : Schema) (added : List Norm) : Schema :=
  { schema with norms := schema.norms ++ added }

/-- The norms keep their positions. -/
theorem numberedNorms_prefix_followedBy :
    schema.numberedNorms <+: (schema.followedBy added).numberedNorms :=
  ⟨_, List.zipIdx_append.symm⟩

/-- A norm that is found before the added norms is found in its place. -/
theorem assetOf?_followedBy (h : ∃ norm ∈ schema.norms, norm.id = id) :
    (schema.followedBy added).assetOf? id = schema.assetOf? id := by
  obtain ⟨norm, hnorm, hid⟩ := h
  have hfound : (schema.norms.find? (fun n ↦ n.id == id)).isSome :=
    List.find?_isSome.mpr ⟨norm, hnorm, beq_iff_eq.mpr hid⟩
  have hposition : (schema.norms.findIdx? (fun n ↦ n.id == id)).isSome :=
    List.findIdx?_isSome.trans (List.any_eq_true.mpr ⟨norm, hnorm, beq_iff_eq.mpr hid⟩)
  rw [assetOf?, assetOf?, norm?, norm?, normPosition?, normPosition?, followedBy,
    List.find?_append, List.findIdx?_append, Option.or_of_isSome hfound,
    Option.or_of_isSome hposition]

/-! ### Roles -/

/-- The roles that some norms mention, one for every subject. -/
def rolesOf (norms : List Norm) : List String := (norms.map Norm.role).foldl addRole []

theorem prefix_addRole (roles : List String) (role : String) : roles <+: addRole roles role := by
  rw [addRole]
  split
  · exact List.prefix_rfl
  · exact List.prefix_append _ _

theorem prefix_foldl_addRole (mentioned roles : List String) :
    roles <+: mentioned.foldl addRole roles := by
  induction mentioned generalizing roles with
  | nil => exact List.prefix_rfl
  | cons role mentioned ih => exact (prefix_addRole roles role).trans (ih _)

theorem subject_mem_addRole {role : String} (hrole : role ≠ "") (roles : List String) :
    Identifier.subject role ∈ (addRole roles role).map Identifier.subject := by
  rw [addRole]
  split
  · rename_i hlisted
    simpa [hrole] using hlisted
  · simp

theorem subject_mem_foldl_addRole {role : String} (hrole : role ≠ "") {mentioned : List String}
    (hmem : role ∈ mentioned) (roles : List String) :
    Identifier.subject role ∈ (mentioned.foldl addRole roles).map Identifier.subject := by
  obtain ⟨before, after, rfl⟩ := List.append_of_mem hmem
  rw [List.foldl_append, List.foldl_cons]
  exact ((prefix_foldl_addRole after _).map Identifier.subject).subset
    (subject_mem_addRole hrole _)

/-- The roles of norms come before those of violations and agendas. -/
theorem rolesOf_prefix_roles : rolesOf schema.norms <+: schema.roles := by
  rw [roles, mentionedRoles, List.append_assoc, List.foldl_append]
  exact prefix_foldl_addRole _ _

/-- They also come before those of norms that are added. -/
theorem rolesOf_prefix_followedBy (added : List Norm) :
    rolesOf schema.norms <+: (schema.followedBy added).roles := by
  refine List.IsPrefix.trans ?_ rolesOf_prefix_roles
  rw [rolesOf, rolesOf, followedBy, List.map_append, List.foldl_append]
  exact prefix_foldl_addRole _ _

/-- Norms of two subjects have two roles at the least. -/
theorem exists_prefix_rolesOf {norms : List Norm} {n m : Norm} (hn : n ∈ norms) (hm : m ∈ norms)
    (hnrole : n.role ≠ "") (hmrole : m.role ≠ "")
    (hsubject : Identifier.subject n.role ≠ Identifier.subject m.role) :
    ∃ first second, [first, second] <+: rolesOf norms := by
  have hnmem := subject_mem_foldl_addRole hnrole (List.mem_map_of_mem hn) []
  have hmmem := subject_mem_foldl_addRole hmrole (List.mem_map_of_mem hm) []
  rw [← rolesOf] at hnmem hmmem
  match rolesOf norms, hnmem, hmmem with
  | [role], hnmem, hmmem =>
    exact absurd ((List.mem_singleton.mp hnmem).trans (List.mem_singleton.mp hmmem).symm) hsubject
  | first :: second :: rest, _, _ => exact ⟨first, second, List.prefix_append _ rest⟩

end Schema

/-! ### Outlines -/

/-- A program with the statements for each norm and for each violation apart. -/
structure Outline where
  institutionText : Statement
  /-- A text for every norm. -/
  actionTexts : List Statement
  subjects : List Statement
  institutionAsset : Program
  /-- The asset, the conditions and the clause of every norm. -/
  norms : List Program
  /-- The consequence of every violation. -/
  violations : List Program
  /-- The facts and the agendas. -/
  rest : Program

namespace Outline

/-- The program of which an outline has the parts. -/
def program (outline : Outline) : Program :=
  [Statement.comment "String definitions for actions", outline.institutionText] ++
    outline.actionTexts ++ [Statement.blank] ++
  ([Statement.comment "Subject declarations"] ++ outline.subjects ++ [Statement.blank]) ++
  outline.institutionAsset ++
  ([Statement.comment "Norm assets"] ++ outline.norms.flatten ++ [Statement.blank]) ++
  (if outline.violations.isEmpty then []
    else [Statement.comment "Violation clauses"] ++ outline.violations.flatten ++
      [Statement.blank]) ++
  outline.rest

/-- What an outline has for the institution, its norms and its violations is what another one has,
in the same order, and the first two subjects are the same. The other one may go on with more norms,
and it may have other subjects after the first two, other facts and other agendas. -/
structure KeptIn (outline outline' : Outline) : Prop where
  institutionText : outline'.institutionText = outline.institutionText
  actionTexts : outline.actionTexts <+: outline'.actionTexts
  subjects : ∃ first second, [first, second] <+: outline.subjects ∧
    [first, second] <+: outline'.subjects
  institutionAsset : outline'.institutionAsset = outline.institutionAsset
  norms : outline.norms <+: outline'.norms
  violations : outline'.violations = outline.violations

end Outline

namespace Draft

/-- The outline of the program of a draft. -/
def outline (draft : Draft) : Outline where
  institutionText := .text draft.baseText ("acuerda " ++ draft.baseText)
  actionTexts := draft.schema.numberedNorms.map (fun n ↦
    .text (Identifier.actionText n.1.action n.2) (Identifier.literal n.1.action))
  subjects := draft.roles.map (fun role ↦ .subject (Identifier.subject role) role)
  institutionAsset := draft.baseAsset
  norms := draft.schema.numberedNorms.map (fun n ↦ draft.norm n.1 n.2)
  violations := (draft.schema.violations.zipIdx 1).map (fun v ↦ draft.violation v.1 v.2)
  rest := draft.facts ++ draft.agendas

theorem program_outline (draft : Draft) : draft.outline.program = draft.program := by
  have hviolations : (draft.schema.violations.zipIdx 1).isEmpty =
      draft.schema.violations.isEmpty := by
    cases draft.schema.violations <;> rfl
  simp only [Outline.program, outline, Draft.program, texts, subjects, norms, violations,
    List.flatMap_def, List.isEmpty_map, hviolations, List.append_assoc]

theorem parties_eq {draft : Draft} {first second : String} (h : [first, second] <+: draft.roles) :
    draft.parties = (Identifier.subject first, Identifier.subject second) := by
  obtain ⟨rest, hroles⟩ := h
  rw [parties, ← hroles]
  rfl

variable {schema : Schema} {first second : String} (institution : Institution)
  (classifier : Classifier) (added : List Norm)

/-- Norms at the end leave the parties and the names of the other norms alone. -/
theorem agreesOn_followedBy (hroles : [first, second] <+: Schema.rolesOf schema.norms)
    (hreferences : ∀ id ∈ schema.references, ∃ norm ∈ schema.norms, norm.id = id) :
    AgreesOn schema.references (schema.draft institution classifier)
      ((schema.followedBy added).draft institution classifier) where
  institution := rfl
  classifier := rfl
  parties := (parties_eq (hroles.trans (Schema.rolesOf_prefix_followedBy added))).trans
    (parties_eq (hroles.trans Schema.rolesOf_prefix_roles)).symm
  assetOf? := fun id hid ↦ Schema.assetOf?_followedBy (hreferences id hid)

/-- Norms at the end leave the statements for the others alone. -/
theorem keptIn_followedBy (hroles : [first, second] <+: Schema.rolesOf schema.norms)
    (hreferences : ∀ id ∈ schema.references, ∃ norm ∈ schema.norms, norm.id = id) :
    (schema.draft institution classifier).outline.KeptIn
      ((schema.followedBy added).draft institution classifier).outline := by
  have hagrees := agreesOn_followedBy institution classifier added hroles hreferences
  constructor
  case institutionText => rfl
  case actionTexts =>
    rw [outline, outline]
    exact Schema.numberedNorms_prefix_followedBy.map _
  case subjects =>
    have hdeclared {roles : List String} (hlead : [first, second] <+: roles) :=
      hlead.map (fun role ↦ Statement.subject (Identifier.subject role) role)
    exact ⟨_, _, hdeclared (hroles.trans Schema.rolesOf_prefix_roles),
      hdeclared (hroles.trans (Schema.rolesOf_prefix_followedBy added))⟩
  case institutionAsset => exact hagrees.baseAsset_eq
  case norms =>
    have hsame : (schema.draft institution classifier).outline.norms = schema.numberedNorms.map
        (fun n ↦ ((schema.followedBy added).draft institution classifier).norm n.1 n.2) := by
      refine List.map_congr_left fun n hn ↦ (hagrees.norm_eq (fun id hid ↦ ?_) n.2).symm
      exact List.mem_append_left _ (List.mem_flatMap.mpr ⟨n.1, List.fst_mem_of_mem_zipIdx hn, hid⟩)
    rw [hsame]
    exact Schema.numberedNorms_prefix_followedBy.map _
  case violations =>
    refine List.map_congr_left fun v hv ↦ hagrees.violation_eq (fun id hid ↦ ?_) v.2
    exact List.mem_append_right _ (List.mem_flatMap.mpr ⟨v.1, List.fst_mem_of_mem_zipIdx hv, hid⟩)

end Draft

namespace Schema

/-- Enrichment leaves alone what the program of a text states for the authored norms, the violations
and the institution, if norms of two subjects settle the parties and every reference is to a norm
of the text. -/
theorem outline_keptIn_enrich {text : String} {schema schema' : Schema} {norms : AutomatedNorms}
    {report : Enrichment.Report} (hparse : parse text = .ok schema)
    (hsubjects : ∃ n ∈ schema.norms, ∃ m ∈ schema.norms, n.role ≠ "" ∧ m.role ≠ "" ∧
      Identifier.subject n.role ≠ Identifier.subject m.role)
    (hreferences : ∀ id ∈ schema.references, ∃ norm ∈ schema.norms, norm.id = id)
    (henrich : schema.enrich norms = .ok (schema', report)) :
    schema'.authored = schema.norms ∧ schema.norms <+: schema'.norms ∧
    ∃ institution, schema.institution = some institution ∧ ∀ classifier,
      schema.program? classifier = some (schema.draft institution classifier).outline.program ∧
      schema'.program? classifier = some (schema'.draft institution classifier).outline.program ∧
      (schema.draft institution classifier).outline.KeptIn
        (schema'.draft institution classifier).outline := by
  have hascending := ascending_of_parse hparse
  have hids := hascending.isNumbered.nodup
  obtain ⟨institution, hinstitution⟩ := exists_institution_of_parse hparse
  obtain ⟨n, hn, m, hm, hnrole, hmrole, hne⟩ := hsubjects
  obtain ⟨first, second, hroles⟩ := exists_prefix_rolesOf hn hm hnrole hmrole hne
  have hauthored : schema'.authored = schema.norms :=
    (authored_enrich hids henrich).trans (List.filter_eq_self.mpr hascending.authored)
  have hinstitution' := (institution_enrich henrich).trans hinstitution
  obtain ⟨number, rfl⟩ := exists_numbered_of_enrich hids henrich
  refine ⟨hauthored, List.prefix_append _ _, institution, hinstitution, fun classifier ↦ ?_⟩
  refine ⟨?_, ?_, ?_⟩
  · rw [Draft.program_outline, program?_eq_some hinstitution]
  · rw [Draft.program_outline, program?_eq_some hinstitution']
  · exact Draft.keptIn_followedBy institution classifier _ hroles hreferences

/-- An exchange in which the first norm refers to the second, as it is written. -/
def exchangeText : String :=
  "Institution \"Permuta\" contrato múltiples " ++
    "1 comprador debe \"pagar\" en-caso-que \"plazo\" y regla 2 2 vendedor debe \"entregar\" " ++
    "violacion 1 entonces juez puede \"decidir\""

/-- The schema of the exchange. -/
def exchange : Schema where
  institution := some ⟨"Permuta", "contrato", .multiple, ""⟩
  norms :=
    [⟨1, "comprador", .obligation, "pagar", none, [.text "plazo", .norm 2], .authored⟩,
      ⟨2, "vendedor", .obligation, "entregar", none, [], .authored⟩]
  violations := [⟨.single 1, "juez", .privilege, "decidir"⟩]
  facts := []
  agendas := []

/-- A norm for the second norm of a text, with a role of its own. -/
def expertNorms : AutomatedNorms where
  domainDefaults := ⟨[]⟩
  universalTemplates := ⟨[]⟩
  conditionalOnId := ⟨[("2", [⟨"perito", "debe", "entregar", none, none⟩])]⟩

/-- The exchange with its generated norm. -/
def exchangeEnriched : Schema :=
  exchange.followedBy [⟨100, "perito", .obligation, "entregar", none, [], .conditional 2 0⟩]

theorem parse_exchangeText : parse exchangeText = .ok exchange := by decide +kernel

/-- The generated norm puts a subject between those of the exchange. -/
theorem outline_keptIn_enrich_exchange :
    parse exchangeText = .ok exchange ∧
      exchange.enrich expertNorms = .ok (exchangeEnriched, ⟨0, 0, 1⟩) ∧
      exchange.roles = ["comprador", "vendedor", "juez"] ∧
      exchangeEnriched.roles = ["comprador", "vendedor", "perito", "juez"] ∧
      ∃ institution, ∀ classifier,
        (exchange.draft institution classifier).outline.KeptIn
          (exchangeEnriched.draft institution classifier).outline := by
  have hsubjects : ∃ n ∈ exchange.norms, ∃ m ∈ exchange.norms, n.role ≠ "" ∧ m.role ≠ "" ∧
      Identifier.subject n.role ≠ Identifier.subject m.role := by decide +kernel
  have hreferences : ∀ id ∈ exchange.references, ∃ norm ∈ exchange.norms, norm.id = id := by
    simp [references, Norm.references, ViolatedNorms.ids, exchange]
  have henrich : exchange.enrich expertNorms = .ok (exchangeEnriched, ⟨0, 0, 1⟩) := by rfl
  obtain ⟨-, -, institution, -, hkept⟩ :=
    outline_keptIn_enrich parse_exchangeText hsubjects hreferences henrich
  exact ⟨parse_exchangeText, henrich, by decide +kernel, by decide +kernel, institution,
    fun classifier ↦ (hkept classifier).2.2⟩

end Schema

end Normative
