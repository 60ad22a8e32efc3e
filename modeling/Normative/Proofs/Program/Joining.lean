import Normative.Proofs.Program.Unbroken

/-!
# Assets join two subjects

An asset goes from the subject of a role to that of its counterparty. The counterparty of the first
role of a schema is the second one, and that of any other role is the first. Roles are compared by
their subjects here and when the roles of a schema are collected, so that a role never is its own
counterparty, whatever its spelling. If a schema has two roles, all its assets therefore join two
different subjects, and each of them is declared once.

## Main definitions

* `Statement.Joins` : a statement whose asset, if it has one, joins two of the listed subjects.

## Main results

* `Draft.counterparty_ne` : a role is not its own counterparty.
* `Draft.joins_program` : the assets of a program join subjects that it declares.
* `Schema.assets_join_subjects` : the same with the number of declarations.
-/

namespace Normative

open Program (names)

namespace Schema

variable {schema : Schema} {role : String}

/-- Every role that is used has a subject among those of the roles of the schema. -/
theorem subject_mem_map_roles (hused : schema.UsesRole role) (hrole : role ≠ "") :
    Identifier.subject role ∈ schema.roles.map Identifier.subject := by
  rw [roles_eq_firsts, mem_map_firsts]
  refine List.mem_map_of_mem (List.mem_filter.mpr ⟨mem_mentionedRoles_iff.mpr hused, ?_⟩)
  exact decide_eq_true hrole

end Schema

/-- The asset that a statement declares, if it declares one, goes from one of the listed subjects to
another. -/
def Statement.Joins (subjects : List String) : Statement → Prop
  | .asset _ _ giver _ receiver => giver ≠ receiver ∧ giver ∈ subjects ∧ receiver ∈ subjects
  | _ => True

theorem Statement.joins_of_names_eq_nil {subjects : List String} {program : Program}
    (h : names .asset program = []) : ∀ s ∈ program, s.Joins subjects := by
  intro s hs
  have hname : s.name? .asset = none := List.filterMap_eq_nil_iff.mp h s hs
  cases s with
  | asset => exact absurd hname (by simp [Statement.name?])
  | _ => trivial

namespace Draft

variable {draft : Draft}

/-! ### Counterparties -/

section TwoRoles

variable (htwo : 2 ≤ draft.roles.length)
include htwo

theorem exists_parties : ∃ first second others, draft.roles = first :: second :: others ∧
    draft.parties = (Identifier.subject first, Identifier.subject second) := by
  match hroles : draft.roles with
  | [] | [_] =>
    rw [hroles] at htwo
    simp at htwo
  | first :: second :: others => exact ⟨first, second, others, rfl, by rw [parties, hroles]⟩

theorem parties_joined (hnodup : (draft.roles.map Identifier.subject).Nodup) :
    draft.parties.1 ≠ draft.parties.2 ∧
      draft.parties.1 ∈ draft.roles.map Identifier.subject ∧
      draft.parties.2 ∈ draft.roles.map Identifier.subject := by
  obtain ⟨first, second, others, hroles, hparties⟩ := exists_parties htwo
  rw [hroles] at hnodup
  rw [hparties, hroles]
  simp_all

/-- A role is not its own counterparty. -/
theorem counterparty_ne (hnodup : (draft.roles.map Identifier.subject).Nodup) (role : String) :
    Identifier.subject role ≠ draft.counterparty role := by
  obtain ⟨hne, -, -⟩ := parties_joined htwo hnodup
  rw [counterparty]
  dsimp only
  split
  · rename_i hfirst
    rwa [← hfirst]
  · rename_i hfirst
    exact Ne.symm hfirst

theorem counterparty_mem (hnodup : (draft.roles.map Identifier.subject).Nodup) (role : String) :
    draft.counterparty role ∈ draft.roles.map Identifier.subject := by
  obtain ⟨-, hfirst, hsecond⟩ := parties_joined htwo hnodup
  rw [counterparty]
  dsimp only
  split
  · exact hsecond
  · exact hfirst

/-! ### The statements of a program -/

variable (hnodup : (draft.roles.map Identifier.subject).Nodup)
include hnodup

theorem joins_asset {role : String}
    (hrole : Identifier.subject role ∈ draft.roles.map Identifier.subject) (name : String)
    (type : AssetType) (text : String) :
    (Statement.asset name type (Identifier.subject role) text (draft.counterparty role)).Joins
      (draft.roles.map Identifier.subject) :=
  ⟨counterparty_ne htwo hnodup role, hrole, counterparty_mem htwo hnodup role⟩

theorem joins_norm {norm : Norm}
    (hrole : Identifier.subject norm.role ∈ draft.roles.map Identifier.subject) (position : Nat) :
    ∀ s ∈ draft.norm norm position, s.Joins (draft.roles.map Identifier.subject) := by
  have hasset := joins_asset htwo hnodup hrole
  have hcondition : ∀ c ∈ (conditionTexts norm.conditions).zipIdx 1,
      ∀ s ∈ draft.conditionStatements norm.role position c.2 c.1,
        s.Joins (draft.roles.map Identifier.subject) := by
    intro c _
    simp only [conditionStatements, List.forall_mem_cons]
    exact ⟨trivial, trivial, hasset _ _ _, by simp⟩
  simp only [Draft.norm, List.forall_mem_append, List.forall_mem_singleton,
    List.forall_mem_flatMap]
  exact ⟨⟨hasset _ _ _, hcondition⟩, trivial⟩

theorem joins_violation {violation : Violation}
    (hrole : Identifier.subject violation.role ∈ draft.roles.map Identifier.subject)
    (position : Nat) :
    ∀ s ∈ draft.violation violation position, s.Joins (draft.roles.map Identifier.subject) := by
  have hconsequence (text asset clause : String) (violated : List String) :
      ∀ s ∈ draft.consequence violation text asset clause violated,
        s.Joins (draft.roles.map Identifier.subject) := by
    simp only [consequence, List.forall_mem_cons]
    exact ⟨trivial, joins_asset htwo hnodup hrole _ _ _, trivial, by simp⟩
  rw [Draft.violation]
  split
  · simp
  · split
    · exact hconsequence _ _ _ _
    · exact List.forall_mem_cons.mpr ⟨trivial, hconsequence _ _ _ _⟩

theorem joins_baseAsset :
    ∀ s ∈ draft.baseAsset, s.Joins (draft.roles.map Identifier.subject) := by
  simp only [baseAsset, List.forall_mem_cons]
  exact ⟨trivial, parties_joined htwo hnodup, trivial, by simp⟩

/-- If the roles of norms and violations have declared subjects, all assets of a program join
subjects that it declares. -/
theorem joins_program
    (hnorms : ∀ n ∈ draft.schema.norms,
      Identifier.subject n.role ∈ draft.roles.map Identifier.subject)
    (hviolations : ∀ v ∈ draft.schema.violations,
      Identifier.subject v.role ∈ draft.roles.map Identifier.subject) :
    ∀ s ∈ draft.program, s.Joins (draft.roles.map Identifier.subject) := by
  simp only [Draft.program, List.forall_mem_append]
  refine ⟨⟨⟨⟨⟨⟨Statement.joins_of_names_eq_nil (draft.names_texts (by decide)),
    Statement.joins_of_names_eq_nil draft.names_subjects⟩, joins_baseAsset htwo hnodup⟩, ?_⟩, ?_⟩,
    Statement.joins_of_names_eq_nil draft.names_facts⟩,
    Statement.joins_of_names_eq_nil draft.names_agendas⟩
  · simp only [norms, List.forall_mem_append, List.forall_mem_singleton, List.forall_mem_flatMap]
    refine ⟨⟨trivial, fun n hn ↦ ?_⟩, trivial⟩
    exact joins_norm htwo hnodup (hnorms n.1 (Schema.mem_of_mem_numberedNorms hn)) n.2
  · rw [violations]
    split
    · simp
    · simp only [List.forall_mem_append, List.forall_mem_singleton, List.forall_mem_flatMap]
      refine ⟨⟨trivial, fun v hv ↦ ?_⟩, trivial⟩
      exact joins_violation htwo hnodup (hviolations v.1 (List.fst_mem_of_mem_zipIdx hv)) v.2

end TwoRoles

theorem names_subject_program (draft : Draft) :
    names .subject draft.program = draft.roles.map Identifier.subject := by
  simp [Draft.program, names_texts, names_subjects, names_baseAsset, names_norms_eq_nil,
    names_violations_eq_nil, names_facts, names_agendas]

end Draft

namespace Schema

variable {schema : Schema} {institution : Institution}

/-- If a schema has two roles, and its norms and violations have roles, then every asset of its
program joins two different subjects, each of which is declared once, and every role that is used,
in whatever spelling, has a subject that is declared once. If no text of the schema breaks a line,
the assets and subjects that are declared are also those that the lines of the program show. -/
theorem assets_join_subjects (hinstitution : schema.institution = some institution)
    (htwo : 2 ≤ schema.roles.length) (hnorms : ∀ n ∈ schema.norms, n.role ≠ "")
    (hviolations : ∀ v ∈ schema.violations, v.role ≠ "") (classifier : Classifier) :
    ∃ program, schema.program? classifier = some program ∧
      (∀ name type giver text receiver,
        Statement.asset name type giver text receiver ∈ program →
          giver ≠ receiver ∧ (names .subject program).count giver = 1 ∧
            (names .subject program).count receiver = 1) ∧
      (∀ role, schema.UsesRole role → role ≠ "" →
        (names .subject program).count (Identifier.subject role) = 1) ∧
      ((schema.draft institution classifier).IsUnbroken →
        ∀ kind ∈ [DeclarationKind.asset, .subject],
          (Text.lines program.render).filter kind.opens =
            (program.filter fun s ↦ (s.name? kind).isSome).map fun s ↦ s.line.toList) := by
  refine ⟨_, program?_eq_some hinstitution classifier, ?_⟩
  have hnodup : ((schema.draft institution classifier).roles.map Identifier.subject).Nodup :=
    schema.nodup_subject_roles
  have honce : ∀ name ∈ (schema.draft institution classifier).roles.map Identifier.subject,
      (names .subject (schema.draft institution classifier).program).count name = 1 := by
    rw [Draft.names_subject_program]
    exact fun name hname ↦ List.count_eq_one_of_mem hnodup hname
  refine ⟨fun name type giver text receiver hasset ↦ ?_, fun role hused hrole ↦ ?_,
    fun hunbroken kind hkind ↦ ?_⟩
  · obtain ⟨hne, hgiver, hreceiver⟩ := Draft.joins_program htwo hnodup
      (fun n hn ↦ subject_mem_map_roles (.inl ⟨n, hn, rfl⟩) (hnorms n hn))
      (fun v hv ↦ subject_mem_map_roles (.inr (.inl ⟨v, hv, rfl⟩)) (hviolations v hv)) _ hasset
    exact ⟨hne, honce giver hgiver, honce receiver hreceiver⟩
  · exact honce _ (subject_mem_map_roles hused hrole)
  · rw [Program.filter_opens_lines kind hunbroken.program]
    refine List.map_congr_left fun s hs ↦ congrArg String.toList ?_
    refine Statement.opening_eq_line ?_ (List.mem_filter.mp hs).2
    rintro rfl
    simp at hkind

/-- A lawsuit with one party in two spellings, and with the other party bound by the consequence
of a violation only. The agenda has no beneficiary. -/
def lawsuit : Schema where
  institution := some ⟨"Juicio", "procedimiento", .single, ""⟩
  norms :=
    [⟨1, "actor", .obligation, "probar", none, [.text "aviso"], .authored⟩,
      ⟨2, "Actor", .claimRight, "alegar", none, [.norm 1], .authored⟩]
  violations := [⟨.single 1, "reo", .privilege, "objetar"⟩]
  facts := []
  agendas := [⟨"Reo", .breached, "Juicio", "", .essential⟩]

theorem assets_join_subjects_lawsuit :
    lawsuit.roles = ["actor", "reo"] ∧
    ∃ program, lawsuit.program? .byKeyword = some program ∧
      Statement.asset "Condition1" .performance "ACTOR" "condition1" "REO" ∈ program ∧
      (names .subject program).count "REO" = 1 ∧
      (names .subject program).count (Identifier.subject "Actor") = 1 ∧
      (Text.lines program.render).filter DeclarationKind.subject.opens =
        (program.filter fun s ↦ (s.name? .subject).isSome).map fun s ↦ s.line.toList := by
  have hroles : lawsuit.roles = ["actor", "reo"] := by decide +kernel
  obtain ⟨program, hprogram, hassets, hsubjects, hlines⟩ := assets_join_subjects rfl
    (by rw [hroles]; decide) (by decide) (by decide) .byKeyword
  have hcondition : Statement.asset "Condition1" .performance "ACTOR" "condition1" "REO" ∈
      program := by
    have hplace : (lawsuit.program? .byKeyword).bind (·[16]?) =
        some (.asset "Condition1" .performance "ACTOR" "condition1" "REO") := by decide +kernel
    rw [hprogram, Option.bind_some] at hplace
    exact List.mem_of_getElem? hplace
  exact ⟨hroles, program, hprogram, hcondition, (hassets _ _ _ _ _ hcondition).2.2,
    hsubjects "Actor" (.inl ⟨_, List.mem_cons_of_mem _ List.mem_cons_self, rfl⟩) (by decide),
    hlines ⟨by decide, by rw [Schema.draft, hroles]; decide, by decide⟩ .subject (by simp)⟩

end Schema

end Normative
