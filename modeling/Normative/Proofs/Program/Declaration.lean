import Normative.Program.Extension

/-!
# The declarations of a program

A program is read here as a list of declarations, each of a kind and with a name. Every part of a
program declares names of few kinds: subjects, facts and agendas stand in parts of their own, and
assets and clauses stand together. An extension keeps its texts, assets and clauses apart.

## Main definitions

* `Program.names` : the names that a program declares, by kind.
* `Extension.corpusNorms` : the norms of all sources of a corpus that apply to an institution.

## Main results

* `Draft.names_texts`, `Draft.names_subjects`, `Draft.names_baseAsset`, `Draft.names_facts`,
  `Draft.names_agendas` : the names of the parts of a program.
* `Extension.ofCorpus_norms_induction`, `Extension.ofCorpus_induction` : what every norm of a corpus
  keeps, the extension has.
* `Program.render_append`, `Program.infix_render` : the parts of a program as it is written.
-/

namespace Normative

/-- The kinds of declarations. -/
inductive DeclarationKind where
  | text
  | subject
  | asset
  | clause
  | fact
  | agenda
  deriving DecidableEq

/-- The name that a statement declares, if it is a declaration of a kind. -/
def Statement.name? (kind : DeclarationKind) : Statement → Option String
  | .blank | .comment _ => none
  | .text name _ => if kind = .text then some name else none
  | .subject name _ => if kind = .subject then some name else none
  | .asset name _ _ _ _ => if kind = .asset then some name else none
  | .clause name _ _ _ => if kind = .clause then some name else none
  | .fact name _ _ _ => if kind = .fact then some name else none
  | .agenda name _ _ _ => if kind = .agenda then some name else none

/-- The names that a program declares, by kind and in order. -/
def Program.names (kind : DeclarationKind) (program : Program) : List String :=
  program.filterMap (Statement.name? kind)

/-- Whether a statement declares nothing. -/
def Statement.isSilent : Statement → Bool
  | .blank | .comment _ => true
  | _ => false

/-- A program that consists of comments and blank lines. -/
def Program.IsSilent (program : Program) : Prop := ∀ statement ∈ program, statement.isSilent

namespace Program

variable {kind : DeclarationKind} {program program' : Program}

@[simp] theorem names_nil : names kind [] = [] := rfl

@[simp] theorem names_cons (statement : Statement) (program : Program) :
    names kind (statement :: program) = (statement.name? kind).toList ++ names kind program := by
  cases h : statement.name? kind <;> simp [names, h]

@[simp] theorem names_append (program program' : Program) :
    names kind (program ++ program') = names kind program ++ names kind program' :=
  List.filterMap_append

@[simp] theorem names_map {α : Type} (l : List α) (f : α → Statement) :
    names kind (l.map f) = l.filterMap fun a ↦ (f a).name? kind := by
  rw [names, List.filterMap_map]
  rfl

@[simp] theorem names_flatMap {α : Type} (l : List α) (f : α → Program) :
    names kind (l.flatMap f) = l.flatMap fun a ↦ names kind (f a) := by
  simp [names, List.filterMap_flatMap]

@[simp] theorem isSilent_nil : IsSilent [] := by simp [IsSilent]

@[simp] theorem isSilent_cons {statement : Statement} :
    IsSilent (statement :: program) ↔ statement.isSilent = true ∧ program.IsSilent :=
  List.forall_mem_cons

@[simp] theorem isSilent_append :
    IsSilent (program ++ program') ↔ program.IsSilent ∧ program'.IsSilent :=
  List.forall_mem_append

theorem IsSilent.names_eq_nil (h : program.IsSilent) : names kind program = [] := by
  refine List.filterMap_eq_nil_iff.mpr fun statement hmem ↦ ?_
  have hsilent := h statement hmem
  cases statement <;> first | rfl | simp [Statement.isSilent] at hsilent

end Program

/-! ### Programs as they are written -/

namespace Program

theorem render_append (program program' : Program) :
    render (program ++ program') = program.render ++ program'.render := by
  rw [render, List.map_append, String.join_append, render, render]

/-- A statement occurs in the program as it is written. -/
theorem infix_render {program : Program} {statement : Statement} (h : statement ∈ program) :
    statement.render.toList <:+: program.render.toList := by
  obtain ⟨before, after, rfl⟩ := List.append_of_mem h
  rw [← List.singleton_append, render_append, render_append, String.toList_append,
    String.toList_append, ← List.append_assoc]
  exact ⟨(render before).toList, (render after).toList, by simp [render]⟩

end Program

namespace Draft

open Program Statement

variable {kind : DeclarationKind} (draft : Draft)

/-! ### The parts of a program -/

theorem names_texts (hkind : kind ≠ .text) : names kind draft.texts = [] := by
  simp [texts, name?, hkind]

theorem names_subjects :
    names kind draft.subjects =
      if kind = .subject then draft.roles.map Identifier.subject else [] := by
  by_cases hkind : kind = .subject <;> simp [subjects, name?, hkind]

theorem names_baseAsset :
    names kind draft.baseAsset = if kind = .asset then [draft.institution.name] else [] := by
  by_cases hkind : kind = .asset <;> simp [baseAsset, name?, hkind]

theorem names_facts :
    names kind draft.facts =
      if kind = .fact then
        (draft.schema.facts.zipIdx 1).map fun f ↦ Identifier.fact f.1.description f.2
      else [] := by
  rw [facts]
  by_cases hkind : kind = .fact <;> split <;> simp_all [name?]

theorem names_agendas :
    names kind draft.agendas =
      if kind = .agenda then
        (draft.schema.agendas.zipIdx 1).map fun a ↦
          Identifier.capitalize a.1.requestingRole ++ a.1.compliance.label ++ toString a.2
      else [] := by
  rw [agendas]
  by_cases hkind : kind = .agenda <;> split <;> simp_all [name?]

theorem names_asset_norm (norm : Norm) (position : Nat) :
    names .asset (draft.norm norm position) =
      Identifier.normAsset norm.action position ::
        ((conditionTexts norm.conditions).zipIdx 1).map fun c ↦
          "Condition" ++ conditionLabel position c.2 := by
  simp [Draft.norm, name?, conditionStatements, List.map_eq_flatMap]

theorem names_text_norm (norm : Norm) (position : Nat) :
    names .text (draft.norm norm position) =
      ((conditionTexts norm.conditions).zipIdx 1).map fun c ↦
        "condition" ++ conditionLabel position c.2 := by
  simp [Draft.norm, name?, conditionStatements, List.map_eq_flatMap]

theorem names_clause_norm (norm : Norm) (position : Nat) :
    names .clause (draft.norm norm position) = ["norm" ++ toString position] := by
  simp [Draft.norm, name?, conditionStatements]

theorem names_norms : names kind draft.norms =
    draft.schema.numberedNorms.flatMap fun n ↦ names kind (draft.norm n.1 n.2) := by
  simp [norms, name?]

theorem names_violations : names kind draft.violations =
    (draft.schema.violations.zipIdx 1).flatMap fun v ↦ names kind (draft.violation v.1 v.2) := by
  rw [violations]
  split <;> simp_all [name?]

/-- A kind that stands in a part of its own does not occur in the other parts. -/
theorem names_norms_eq_nil (htext : kind ≠ .text) (hasset : kind ≠ .asset)
    (hclause : kind ≠ .clause) : names kind draft.norms = [] := by
  simp [names_norms, Draft.norm, name?, conditionStatements, htext, hasset, hclause]

theorem names_violations_eq_nil (htext : kind ≠ .text) (hasset : kind ≠ .asset)
    (hclause : kind ≠ .clause) : names kind draft.violations = [] := by
  rw [names_violations]
  refine List.flatMap_eq_nil_iff.mpr fun v _ ↦ ?_
  rw [violation]
  split
  · rfl
  · split <;> simp [consequence, name?, htext, hasset, hclause]

end Draft

namespace Extension

open Program Statement

variable {setting : Setting} {P : Extension → Prop}

/-! ### Comments of an extension -/

theorem isSilent_header (title : String) : IsSilent (header title) := by
  simp [header, rule, isSilent]

theorem isSilent_remarks (norm : Applicable) : IsSilent (remarks setting norm) := by
  rw [remarks]
  split <;> cases norm.entry.norm.derivedFrom <;> simp [isSilent]

theorem isSilent_normCitations (corpus : Corpus) (contractType : String) (norm : Norm) :
    IsSilent (normCitations corpus contractType norm) := by
  have hcitations (citations : List Citation) :
      IsSilent (citations.map fun c ↦ .comment c.text) :=
    List.forall_mem_map.mpr fun _ _ ↦ rfl
  rw [normCitations]
  split <;> simp [isSilent, hcitations]

theorem isSilent_schemaCitations (corpus : Corpus) (contractType : String) (schema : Schema) :
    IsSilent (schemaCitations corpus contractType schema) := by
  have hnotes : IsSilent (schema.authored.flatMap (normCitations corpus contractType)) :=
    List.forall_mem_flatMap.mpr fun norm _ ↦ isSilent_normCitations corpus contractType norm
  rw [schemaCitations]
  split
  · exact isSilent_nil
  · simp [isSilent, isSilent_header, hnotes]

/-! ### The growth of an extension -/

/-- The norms of all sources of a corpus that apply to an institution. -/
def corpusNorms (institution : String) (corpus : Corpus) : List Applicable :=
  corpus.sources.entries.flatMap fun source ↦ applicableNorms institution source.1 source.2

/-- What holds of no norms and the empty extension, is kept by every header, and is kept if a norm
is added, holds of the norms of a corpus and the extension that it gives. -/
theorem ofCorpus_norms_induction {P : List Applicable → Extension → Prop} (corpus : Corpus)
    (hempty : P [] empty)
    (hheader : ∀ norms extension title, P norms extension →
      P norms { extension with assets := extension.assets ++ header title })
    (hnorm : ∀ norms extension norm, P norms extension →
      P (norms ++ [norm]) (addNorm setting extension norm)) :
    P (corpusNorms setting.institution corpus) (ofCorpus setting corpus) := by
  have hnorms (added : List Applicable) : ∀ norms extension, P norms extension →
      P (norms ++ added) (added.foldl (addNorm setting) extension) := by
    induction added with
    | nil => exact fun norms _ h ↦ (List.append_nil norms).symm ▸ h
    | cons norm added ih =>
      intro norms extension h
      rw [← List.singleton_append, ← List.append_assoc]
      exact ih _ _ (hnorm norms extension norm h)
  have hsource (norms : List Applicable) (extension : Extension)
      (source : String × Corpus.Source) (h : P norms extension) :
      P (norms ++ applicableNorms setting.institution source.1 source.2)
        (addSource setting extension source) := by
    rw [addSource]
    split
    · rename_i hnone
      rwa [hnone, List.append_nil]
    · exact hnorms _ _ _ (hheader _ _ _ h)
  have hsources (sources : List (String × Corpus.Source)) : ∀ norms extension, P norms extension →
      P (norms ++ sources.flatMap fun source ↦
          applicableNorms setting.institution source.1 source.2)
        (sources.foldl (addSource setting) extension) := by
    induction sources with
    | nil => exact fun norms _ h ↦ (List.append_nil norms).symm ▸ h
    | cons source sources ih =>
      intro norms extension h
      rw [List.flatMap_cons, ← List.append_assoc]
      exact ih _ _ (hsource norms extension source h)
  exact hsources _ _ _ hempty

/-- What holds of the empty extension, and is kept by every header and every norm, holds of the
extension that a corpus gives. -/
theorem ofCorpus_induction (corpus : Corpus) (hempty : P empty)
    (hheader : ∀ extension title, P extension →
      P { extension with assets := extension.assets ++ header title })
    (hnorm : ∀ extension norm, P extension → P (addNorm setting extension norm)) :
    P (ofCorpus setting corpus) :=
  ofCorpus_norms_induction (P := fun _ ↦ P) corpus hempty (fun _ ↦ hheader) (fun _ ↦ hnorm)

end Extension

namespace Schema

variable {schema : Schema} {institution : Institution}

/-! ### The programs of a schema -/

theorem program?_eq_some (hinstitution : schema.institution = some institution)
    (classifier : Classifier) :
    schema.program? classifier = some (schema.draft institution classifier).program := by
  rw [program?, hinstitution]
  rfl

theorem extendedProgram?_eq_some (hinstitution : schema.institution = some institution)
    (classifier : Classifier) (corpus : Corpus) :
    schema.extendedProgram? classifier corpus =
      some ((schema.draft institution classifier).program ++
        schema.extension classifier corpus institution
          (schema.draft institution classifier).program) := by
  rw [extendedProgram?, hinstitution]
  rfl

open Extension in
/-- What a corpus adds is an extension for the institution of the schema, followed by comments. -/
theorem exists_extension_eq (schema : Schema) (institution : Institution) (classifier : Classifier)
    (corpus : Corpus) (base : Program) :
    ∃ (setting : Setting) (citations : Program), setting.institution = institution.name ∧
      citations.IsSilent ∧
      schema.extension classifier corpus institution base =
        (ofCorpus setting corpus).program ++ citations :=
  ⟨_, _, rfl, isSilent_schemaCitations _ _ _, rfl⟩

end Schema

end Normative
