import Normative.Proofs.Program.Agreement
import Normative.Proofs.Program.Closure
import Normative.Proofs.Program.Uniqueness

/-!
# References of a program

The names in a program carry the positions of norms, while conditions and violations refer to norms
by their identifiers. The premise that a condition gives names the asset that the program declares
for the norm with the identifier, and so does each premise that a violation gives. A condition that
refers to no norm gives no premise, and a violation that does so gives no statement at all.

Which premises belong to which conditions is stated as a relation beside the functions that make
them, and for the one clause that the program declares for each norm. That a violation without a
norm leaves no trace is stated for the program as a whole: without the blocks of statements that
violations give, it is the program of a schema without violations.

## Main definitions

* `Schema.DeclaresFor` : the asset that is declared for the norm with an identifier.
* `Schema.GivesPremises`, `Schema.GivesBlock` : the premises of conditions and the statements of a
  violation.
* `Schema.Resolves` : a program in which the references of a schema are resolved.

## Main results

* `Program.eq_of_name?_eq` : a name tells its declaration.
* `Draft.resolves` : when a program resolves the references of a draft.
* `Schema.references_resolved` : the references of a schema are resolved.
-/

namespace Normative

open Program Statement

/-- If names are declared once, a name tells its declaration. -/
theorem Program.eq_of_name?_eq {program : Program} {kind : DeclarationKind}
    (h : (names kind program).Nodup) {statement statement' : Statement}
    (hmem : statement ∈ program) (hmem' : statement' ∈ program) {name : String}
    (hname : statement.name? kind = some name)
    (hname' : statement'.name? kind = some name) : statement = statement' := by
  have hpairwise : program.Pairwise fun s s' ↦
      s.name? kind = some name → s'.name? kind = some name → False :=
    (List.pairwise_filterMap.mp h).imp fun hne hs hs' ↦ hne name hs name hs' rfl
  have hsame := List.Pairwise.forall_of_forall_of_flip
    (R := fun s s' ↦ s.name? kind = some name → s'.name? kind = some name → s = s')
    (fun _ _ _ _ ↦ rfl) (hpairwise.imp fun hne hs hs' ↦ (hne hs hs').elim)
    (hpairwise.imp fun hne hs' hs ↦ (hne hs hs').elim)
  exact hsame hmem hmem' hname hname'

/-! ### Resolved references -/

namespace Schema

/-- An asset of a program is the one that is declared for the norm with an identifier: there is such
a norm, the name of the asset comes from its action and its position, and the declaration gives the
subject of its role and the text of its action. -/
structure DeclaresFor (schema : Schema) (program : Program) (id : NormId) (asset : String) :
    Prop where
  exists_norm : ∃ norm ∈ schema.norms, norm.id = id
  declared : ∀ n ∈ schema.numberedNorms, n.1.id = id →
    asset = Identifier.normAsset n.1.action n.2 ∧
      ∃ type receiver, Statement.asset asset type (Identifier.subject n.1.role)
        (Identifier.actionText n.1.action n.2) receiver ∈ program

/-- The premises that conditions give to the norm at a position, when some conditions in words have
been counted. -/
inductive GivesPremises (schema : Schema) (program : Program) (position : Nat) :
    Nat → List Condition → List Premise → Prop
  | nil {counted} : GivesPremises schema program position counted [] []
  | text {counted description conditions premises} :
    GivesPremises schema program position (counted + 1) conditions premises →
    GivesPremises schema program position counted (.text description :: conditions)
      (.holds ("Condition" ++ Draft.conditionLabel position (counted + 1)) :: premises)
  | known {counted id asset conditions premises} :
    schema.DeclaresFor program id asset →
    GivesPremises schema program position counted conditions premises →
    GivesPremises schema program position counted (.norm id :: conditions)
      (.holds asset :: premises)
  | unknown {counted id conditions premises} :
    (∀ norm ∈ schema.norms, norm.id ≠ id) →
    GivesPremises schema program position counted conditions premises →
    GivesPremises schema program position counted (.norm id :: conditions) premises

/-- The statements that a violation gives: none if it refers to no norm, and otherwise comments, the
text and the asset of the consequence, and a clause under the premises that the assets of all norms
to which the violation refers are not given. -/
inductive GivesBlock (schema : Schema) (program : Program) (violation : Violation) :
    Program → Prop
  | unknown {id} : id ∈ violation.norms.ids → (∀ norm ∈ schema.norms, norm.id ≠ id) →
    GivesBlock schema program violation []
  | known {remarks : List String} {text asset receiver clause violated} :
    List.Forall₂ (schema.DeclaresFor program) violation.norms.ids violated →
    GivesBlock schema program violation (remarks.map .comment ++
      [.text text (Identifier.literal violation.consequence),
        .asset asset .performance (Identifier.subject violation.role) text receiver,
        .clause clause (violated.map .fails) violation.deontic asset])

/-- The references of a schema in a program: all names that are used are declared, the conditions of
every norm give the premises of the one clause for its position, and the violations give blocks of
statements. -/
structure Resolves (schema : Schema) (institution : String) (blocks : List Program)
    (program : Program) : Prop where
  isClosed : program.IsClosed
  clauses : ∀ n ∈ schema.numberedNorms, ∃ premises,
    schema.GivesPremises program n.2 0 n.1.conditions premises ∧
      ∀ statement, statement ∈ program ∧ statement.name? .clause = some ("norm" ++ toString n.2) ↔
        statement = .clause ("norm" ++ toString n.2) (.holds institution :: premises) n.1.deontic
          (Identifier.normAsset n.1.action n.2)
  blocks : List.Forall₂ (schema.GivesBlock program) schema.violations blocks

/-- The schema without its violations. -/
def withoutViolations (schema : Schema) : Schema := { schema with violations := [] }

end Schema

namespace Draft

variable {draft : Draft} {program : Program}

/-- The draft in which nothing is left of the violations but their roles. -/
def withoutViolations (draft : Draft) : Draft :=
  { draft with schema := draft.schema.withoutViolations }

/-- The program of a draft with given blocks of statements for the violations. -/
def programWith (draft : Draft) (blocks : List Program) : Program :=
  draft.withoutViolations.texts ++ draft.withoutViolations.subjects ++
    draft.withoutViolations.baseAsset ++ draft.withoutViolations.norms ++
    (if draft.schema.violations.isEmpty then []
      else [.comment "Violation clauses"] ++ blocks.flatten ++ [.blank]) ++
    draft.withoutViolations.facts ++ draft.withoutViolations.agendas

theorem agreesOn_withoutViolations (ids : List NormId) :
    AgreesOn ids draft draft.withoutViolations :=
  ⟨rfl, rfl, rfl, fun _ _ ↦ rfl⟩

theorem norm_withoutViolations (norm : Norm) (position : Nat) :
    draft.withoutViolations.norm norm position = draft.norm norm position :=
  (agreesOn_withoutViolations norm.references).norm_eq (List.Subset.refl _) position

theorem program_eq_programWith :
    draft.program = draft.programWith
      ((draft.schema.violations.zipIdx 1).map fun v ↦ draft.violation v.1 v.2) := by
  have hnorms : draft.withoutViolations.norms = draft.norms := by
    simp only [Draft.norms, norm_withoutViolations]
    rfl
  rw [programWith, hnorms, Draft.program, Draft.violations]
  rfl

theorem declaresFor (hids : (draft.schema.norms.map Norm.id).Nodup)
    (hnorms : draft.norms ⊆ program) {id : NormId} {asset : String}
    (h : draft.schema.assetOf? id = some asset) : draft.schema.DeclaresFor program id asset where
  exists_norm := by
    obtain ⟨n, hn, hid, -⟩ := (Schema.assetOf?_eq_some_iff hids).mp h
    exact ⟨n.1, List.mem_of_getElem? (Schema.mem_numberedNorms_iff.mp hn).2, hid⟩
  declared := by
    intro n hn hid
    have hsame := (Schema.assetOf?_eq_some_iff hids).mpr ⟨n, hn, hid, rfl⟩
    obtain rfl := Option.some.inj (h.symm.trans hsame)
    refine ⟨rfl, draft.classifier.normType n.1, draft.counterparty n.1.role, hnorms ?_⟩
    refine List.mem_append_left _ (List.mem_cons_of_mem _ (List.mem_flatMap.mpr ⟨n, hn, ?_⟩))
    exact List.mem_cons_self

theorem givesPremises
    (hdeclares : ∀ id asset, draft.schema.assetOf? id = some asset →
      draft.schema.DeclaresFor program id asset)
    (position counted : Nat) (conditions : List Condition) :
    draft.schema.GivesPremises program position counted conditions
      (draft.conditionPremises position counted conditions) := by
  induction conditions generalizing counted with
  | nil => exact .nil
  | cons condition conditions ih =>
    cases condition with
    | text description => exact .text (ih (counted + 1))
    | norm id =>
      rw [conditionPremises]
      cases hasset : draft.schema.assetOf? id with
      | none => exact .unknown (Schema.assetOf?_eq_none_iff.mp hasset) (ih counted)
      | some asset => exact .known (hdeclares id asset hasset) (ih counted)

theorem givesBlock
    (hdeclares : ∀ id asset, draft.schema.assetOf? id = some asset →
      draft.schema.DeclaresFor program id asset)
    (violation : Violation) (position : Nat) :
    draft.schema.GivesBlock program violation (draft.violation violation position) := by
  rcases draft.violation_cases violation position with
    ⟨hnil, id, hid, hnone⟩ | ⟨remarks, text, asset, clause, violated, hblock, hall⟩
  · rw [hnil]
    exact .unknown hid (Schema.assetOf?_eq_none_iff.mp hnone)
  · rw [hblock]
    exact .known (hall.imp hdeclares)

/-- The references of a draft are resolved in every program that holds its own, is closed, and
declares its clauses once. -/
theorem resolves (hids : (draft.schema.norms.map Norm.id).Nodup)
    (hprogram : draft.program ⊆ program) (hclosed : program.IsClosed)
    (hclauses : (names .clause program).Nodup) :
    draft.schema.Resolves draft.institution.name
      ((draft.schema.violations.zipIdx 1).map fun v ↦ draft.violation v.1 v.2) program := by
  have hnorms : draft.norms ⊆ program := by
    refine List.Subset.trans (fun statement hmem ↦ ?_) hprogram
    simp [Draft.program, hmem]
  have hdeclares (id : NormId) (asset : String) (h : draft.schema.assetOf? id = some asset) :=
    declaresFor hids hnorms h
  refine ⟨hclosed, fun n hn ↦ ?_, ?_⟩
  · have hclause : Statement.clause ("norm" ++ toString n.2)
        (.holds draft.institution.name :: draft.conditionPremises n.2 0 n.1.conditions) n.1.deontic
        (Identifier.normAsset n.1.action n.2) ∈ program := by
      refine hnorms (List.mem_append_left _ (List.mem_cons_of_mem _ ?_))
      exact List.mem_flatMap.mpr ⟨n, hn, List.mem_append_right _ (List.mem_singleton.mpr rfl)⟩
    refine ⟨_, givesPremises hdeclares n.2 0 n.1.conditions, fun statement ↦ ⟨?_, ?_⟩⟩
    · rintro ⟨hmem, hname⟩
      exact eq_of_name?_eq hclauses hmem hclause hname rfl
    · rintro rfl
      exact ⟨hclause, rfl⟩
  · have hblocks : List.Forall₂ (draft.schema.GivesBlock program)
        ((draft.schema.violations.zipIdx 1).map Prod.fst)
        ((draft.schema.violations.zipIdx 1).map fun v ↦ draft.violation v.1 v.2) := by
      rw [List.forall₂_map_left_iff, List.forall₂_map_right_iff, List.forall₂_same]
      exact fun v _ ↦ givesBlock hdeclares v.1 v.2
    rwa [List.zipIdx_map_fst] at hblocks

end Draft

namespace Schema

variable {schema : Schema} {institution : Institution}

/-- The references of a schema are resolved in its program, and in the program that any corpus
extends. Apart from the blocks of statements that its violations give, and from their roles, both
are as if the schema had no violations. If no text breaks a line, the lines of both programs show
the declarations of which this is said. -/
theorem references_resolved (hinstitution : schema.institution = some institution)
    (hids : (schema.norms.map Norm.id).Nodup) (classifier : Classifier) :
    ∃ base blocks, schema.program? classifier = some base ∧
      base = (schema.draft institution classifier).programWith blocks ∧
      schema.Resolves institution.name blocks base ∧
      ((schema.draft institution classifier).IsUnbroken → base.ShowsDeclarations) ∧
      ∀ corpus, ∃ more, schema.extendedProgram? classifier corpus = some (base ++ more) ∧
        more = schema.withoutViolations.extension classifier corpus institution base ∧
        schema.Resolves institution.name blocks (base ++ more) ∧
        ((∀ s ∈ base ++ more, s.IsUnbroken) → Program.ShowsDeclarations (base ++ more)) := by
  refine ⟨_, _, program?_eq_some hinstitution classifier, Draft.program_eq_programWith, ?_,
    fun hunbroken ↦ showsDeclarations hunbroken.program, fun corpus ↦
      ⟨_, extendedProgram?_eq_some hinstitution classifier corpus, rfl, ?_, showsDeclarations⟩⟩
  · exact Draft.resolves hids (List.Subset.refl _) (Draft.isClosed_program hids)
      (namesUnique_base classifier).clauses
  · exact Draft.resolves hids (List.subset_append_left _ _)
      (isClosed_extension hids classifier corpus _)
      (namesUnique_extension classifier corpus _).clauses

/-- In the loan the norms 4 and 9 stand at the positions 1 and 2, and there is no norm 5. -/
theorem references_resolved_loan :
    ∃ base blocks, loan.program? .byKeyword = some base ∧
      loan.Resolves "Prestamo" blocks base ∧
      Statement.clause "norm2" [.holds "Prestamo", .holds "Condition2", .holds "EntregarAsset1",
        .holds "Condition2_2"] .claimRight "EntregarAsset2" ∈ base ∧
      names .clause base = ["norm1", "norm2", "compound_viol_clause_1", "viol_clause_3"] ∧
      base.ShowsDeclarations := by
  have hinstitution : loan.institution =
      some ⟨"Prestamo", "contrato", .multiple, "derecho-civil"⟩ := rfl
  have hids : (loan.norms.map Norm.id).Nodup := by decide
  obtain ⟨base, blocks, hbase, -, hresolves, hlines, -⟩ :=
    references_resolved hinstitution hids .byKeyword
  have hclause : (loan.program? .byKeyword).map (fun program ↦
      decide (Statement.clause "norm2" [.holds "Prestamo", .holds "Condition2",
        .holds "EntregarAsset1", .holds "Condition2_2"] .claimRight "EntregarAsset2" ∈ program)) =
      some true := by rfl
  have hnames : (loan.program? .byKeyword).map (names .clause) =
      some ["norm1", "norm2", "compound_viol_clause_1", "viol_clause_3"] := by rfl
  rw [hbase] at hclause hnames
  exact ⟨base, blocks, hbase, hresolves, of_decide_eq_true (Option.some.inj hclause),
    Option.some.inj hnames, hlines isUnbroken_draft_loan⟩

end Schema

end Normative
