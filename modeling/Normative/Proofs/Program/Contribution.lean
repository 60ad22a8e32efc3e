import Normative.Proofs.Program.Breakage
import Normative.Proofs.Program.Renaming

/-!
# What the norms of a corpus contribute

Every norm of a corpus that applies contributes to an extension: a text, comments that quote its
source, and, if its parties are known, an asset and a clause, or two of each. The declarations of an
extension are those of its norms, in order and under the names that the norms get, and all else in
it are comments and blank lines.

## Main definitions

* `Extension.Named` : a norm of a corpus under the names that it gets.
* `Extension.Named.textLine`, `Extension.Named.assetLines`, `Extension.Named.clauseLines` : the
  lines that it is to have.
* `Extension.Declares` : an extension that declares what its norms are to declare.
* `Extension.corpusQuotations`, `Extension.citationTexts` : what the comments of an extension quote.

## Main results

* `Extension.Declares.addNorm`, `Extension.declares_ofCorpus` : what a norm adds, and what an
  extension declares.
* `Extension.filter_silent_ofCorpus` : the comments among the assets of an extension.
* `Extension.filter_program` : the declarations of an extension as a program.
-/

namespace Normative

open Text (Over)

namespace Extension

open Identifier

/-! ### Norms under their names -/

/-- A norm of a corpus with the name of its text, and with the stem of the names of its assets and
clauses, which is used if it has two parties. -/
structure Named where
  norm : Applicable
  text : String
  stem : String

/-- A norm under the names that an extension has for it. -/
def name (setting : Setting) (extension : Extension) (norm : Applicable) : Named :=
  ⟨norm, extension.textName setting norm.action,
    extension.stem norm.entry.sourceKey norm.entry.normKey⟩

namespace Named

variable (setting : Setting) (named : Named)

/-- Whether both parties of a norm are known. -/
def hasParties : Bool := (parties? setting named.norm).isSome

/-- The declaration of the text of a norm. -/
def textLine : String :=
  "string " ++ named.text ++ " = \"" ++ (literal named.norm.action ++ "\";")

/-- The line of an asset of a norm. -/
def assetLine (ending giver receiver : String) : String :=
  "asset " ++ (named.stem ++ ending) ++ " = " ++
    AssetType.text ⟨setting.classifier.objectKind named.norm.details.object, .positive⟩ ++ ", " ++
    subject giver ++ ", " ++ named.text ++ ", " ++ subject receiver ++ ";"

/-- The line of a clause of a norm. -/
def clauseLine (ending assetEnding : String) : String :=
  "clause " ++ (named.stem ++ ending) ++ " = \x7b " ++ setting.institution ++ ", " ++
    (Deontic.ofCorpusName named.norm.details.deontic).operator ++ "(" ++
    (named.stem ++ assetEnding) ++ ") \x7d;"

/-- The lines of the assets of a norm: one if its parties are the canonical roles, and a second one
with the parties exchanged if not. -/
def assetLines : List String :=
  match parties? setting named.norm with
  | none => []
  | some (giver, receiver) =>
    named.assetLine setting "Asset" giver receiver ::
      if areCanonical setting giver receiver then []
      else [named.assetLine setting "Asset_Reciprocal" receiver giver]

/-- The lines of the clauses of a norm, as many as it has assets. -/
def clauseLines : List String :=
  match parties? setting named.norm with
  | none => []
  | some (giver, receiver) =>
    named.clauseLine setting "_obligation" "Asset" ::
      if areCanonical setting giver receiver then []
      else [named.clauseLine setting "_obligation_reciprocal" "Asset_Reciprocal"]

/-- The declaration of the text of a norm. -/
def textStatement : Statement := .text named.text (literal named.norm.action)

/-- The assets of a norm. -/
def assets : Program :=
  match parties? setting named.norm with
  | none => []
  | some (giver, receiver) => partyAssets setting named.norm named.stem named.text giver receiver

/-- The clauses of a norm. -/
def clauses : Program :=
  match parties? setting named.norm with
  | none => []
  | some (giver, receiver) => partyClauses setting named.norm named.stem giver receiver

theorem line_textStatement : named.textStatement.line = named.textLine :=
  Statement.line_text _ _

theorem map_line_assets : (named.assets setting).map Statement.line = named.assetLines setting := by
  have hline (ending giver receiver : String) :
      (Statement.asset (named.stem ++ ending)
        ⟨setting.classifier.objectKind named.norm.details.object, .positive⟩ (subject giver)
        named.text (subject receiver)).line = named.assetLine setting ending giver receiver :=
    Statement.line_asset _ _ _ _ _
  rw [assets, assetLines]
  split
  · rfl
  · rw [partyAssets, List.map_cons, hline]
    split
    · rfl
    · rw [List.map_singleton, hline]

theorem map_line_clauses :
    (named.clauses setting).map Statement.line = named.clauseLines setting := by
  have hline (ending assetEnding : String) :
      (Statement.clause (named.stem ++ ending) [.holds setting.institution]
        (Deontic.ofCorpusName named.norm.details.deontic) (named.stem ++ assetEnding)).line =
        named.clauseLine setting ending assetEnding :=
    Statement.line_clause _ _ _ _
  rw [clauses, clauseLines]
  split
  · rfl
  · rw [partyClauses, List.map_cons, hline]
    split
    · rfl
    · rw [List.map_singleton, hline]

end Named

theorem over_textName (setting : Setting) (extension : Extension) (action : String) :
    Over IsNameChar (extension.textName setting action) := by
  obtain ⟨n, hname⟩ := (search_textName setting extension action).exists_eq
  rw [hname]
  exact over_textCandidate action n

theorem over_keyName (key : String) : Over IsNameChar (keyName key) := by
  refine over_letterFirst (fun c hc ↦ ?_) (over_isNameChar _ (by decide))
  rw [String.toList_ofList] at hc
  obtain ⟨d, -, rfl⟩ := List.mem_map.mp hc
  split
  · rename_i hletter
    exact .inl hletter
  · exact .inr rfl

theorem over_stemCandidate (sourceKey normKey : String) (n : Nat) :
    Over IsNameChar (stemCandidate sourceKey normKey n) := by
  have hqualified := over_keyName (sourceKey ++ "_" ++ normKey)
  unfold stemCandidate
  split
  · exact over_keyName normKey
  · exact hqualified
  · exact (hqualified.append (over_isNameChar "_" (by decide))).append (over_toString _)

theorem over_stem (extension : Extension) (sourceKey normKey : String) :
    Over IsNameChar (extension.stem sourceKey normKey) := by
  obtain ⟨n, hname⟩ := (extension.search_stem sourceKey normKey).exists_eq
  rw [hname]
  exact over_stemCandidate sourceKey normKey n

/-! ### What an extension declares -/

/-- What a norm adds to an extension. -/
theorem addNorm_eq (setting : Setting) (extension : Extension) (norm : Applicable) :
    addNorm setting extension norm =
      let named := extension.name setting norm
      { textNames := extension.textNames ++ [named.text]
        stems := extension.stems ++ if named.hasParties setting then [named.stem] else []
        texts := extension.texts ++ [named.textStatement]
        assets := extension.assets ++ (remarks setting norm ++ named.assets setting ++ [.blank])
        clauses := extension.clauses ++ named.clauses setting } := by
  rw [addNorm]
  cases hparties : parties? setting norm <;>
    simp [name, Named.hasParties, Named.textStatement, Named.assets, Named.clauses, hparties]

/-- An extension that declares what norms are to declare under their names, and nothing else. -/
structure Declares (setting : Setting) (names : List Named) (extension : Extension) : Prop where
  textNames : extension.textNames = names.map Named.text
  stems : extension.stems = (names.filter (Named.hasParties setting)).map Named.stem
  texts : extension.texts = names.map Named.textStatement
  assets : extension.assets.filter Statement.isOperative = names.flatMap (Named.assets setting)
  clauses : extension.clauses = names.flatMap (Named.clauses setting)
  areNames : ∀ named ∈ names, Over IsNameChar named.text ∧ Over IsNameChar named.stem

theorem filter_eq_nil_of_isSilent {q : Statement → Bool}
    (hq : ∀ s : Statement, s.isSilent = true → q s = false) {program : Program}
    (h : program.IsSilent) : program.filter q = [] :=
  List.filter_eq_nil_iff.mpr fun s hs ↦ by simp [hq s (h s hs)]

theorem isOperative_of_mem_assets (setting : Setting) (named : Named) :
    ∀ s ∈ named.assets setting, s.isOperative = true := by
  rw [Named.assets]
  split
  · exact List.forall_mem_nil _
  · rw [partyAssets]
    split <;> simp [Statement.isOperative]

theorem filter_isOperative_assets (setting : Setting) (named : Named) :
    (named.assets setting).filter Statement.isOperative = named.assets setting :=
  List.filter_eq_self.mpr (isOperative_of_mem_assets setting named)

theorem Declares.addNorm {setting : Setting} {names : List Named} {extension : Extension}
    (h : Declares setting names extension) (norm : Applicable) :
    Declares setting (names ++ [extension.name setting norm])
      (addNorm setting extension norm) := by
  have hremarks : (remarks setting norm).filter Statement.isOperative = [] :=
    filter_eq_nil_of_isSilent (fun _ ↦ Statement.isOperative_of_isSilent) (isSilent_remarks norm)
  have hblank : [Statement.blank].filter Statement.isOperative = [] := rfl
  rw [addNorm_eq]
  exact {
    textNames := by simp [h.textNames]
    stems := by
      cases hparties : (extension.name setting norm).hasParties setting <;>
        simp [h.stems, hparties]
    texts := by simp [h.texts]
    assets := by
      simp only [List.filter_append, h.assets, hremarks, filter_isOperative_assets, hblank,
        List.flatMap_append, List.flatMap_singleton, List.nil_append, List.append_nil]
    clauses := by simp [h.clauses]
    areNames := by
      refine List.forall_mem_append.mpr ⟨h.areNames, List.forall_mem_singleton.mpr ?_⟩
      exact ⟨over_textName setting extension norm.action, over_stem extension _ _⟩ }

/-- An extension declares what the norms of its corpus are to declare. -/
theorem declares_ofCorpus (setting : Setting) (corpus : Corpus) :
    ∃ names, names.map Named.norm = corpusNorms setting.institution corpus ∧
      Declares setting names (ofCorpus setting corpus) := by
  refine ofCorpus_norms_induction (P := fun norms extension ↦
    ∃ names, names.map Named.norm = norms ∧ Declares setting names extension) corpus ?_ ?_ ?_
  · exact ⟨[], rfl, rfl, rfl, rfl, rfl, rfl, by simp⟩
  · rintro norms extension title ⟨names, hnames, h⟩
    have hheader : (header title).filter Statement.isOperative = [] :=
      filter_eq_nil_of_isSilent (fun _ ↦ Statement.isOperative_of_isSilent) (isSilent_header title)
    exact ⟨names, hnames, { h with
      assets := by rw [List.filter_append, hheader, List.append_nil, h.assets] }⟩
  · rintro norms extension norm ⟨names, hnames, h⟩
    exact ⟨names ++ [extension.name setting norm], by simp [hnames, name], h.addNorm norm⟩

/-! ### What the comments of an extension quote -/

/-- The comments of a norm that quote its source. -/
def Applicable.quotations (norm : Applicable) : List String :=
  ["Source: " ++ norm.entry.source.name.getD norm.entry.sourceKey ++ " - " ++ norm.id] ++
  (norm.entry.norm.derivedFrom.map ("Derived from: " ++ ·)).toList ++
  if norm.entry.norm.context.isEmpty then []
  else ["Context: " ++ ", ".intercalate norm.entry.norm.context]

theorem remarks_eq (setting : Setting) (norm : Applicable) :
    remarks setting norm = norm.quotations.map Statement.comment ++
      [Statement.comment
        ("Note: Applies to " ++ setting.institution ++ " (in conditions list)")] := by
  rw [remarks, Applicable.quotations]
  cases norm.entry.norm.derivedFrom <;> cases norm.entry.norm.context <;> rfl

/-- The comments that quote a source: its key, if any of its norms apply, and what they quote. -/
def sourceQuotations (institution : String) (source : String × Corpus.Source) : List String :=
  match applicableNorms institution source.1 source.2 with
  | [] => []
  | norms => ("Assets from " ++ source.1) :: norms.flatMap Applicable.quotations

/-- The comments that quote the sources of a corpus. -/
def corpusQuotations (institution : String) (corpus : Corpus) : List String :=
  corpus.sources.entries.flatMap (sourceQuotations institution)

/-- The citations of the authored norms of a schema. -/
def citationTexts (corpus : Corpus) (contractType : String) (schema : Schema) : List String :=
  schema.authored.flatMap fun norm ↦ (corpus.citations norm contractType).map Citation.text

/-- The comments and blank lines of a source. -/
def sourceRemarks (setting : Setting) (source : String × Corpus.Source) : Program :=
  match applicableNorms setting.institution source.1 source.2 with
  | [] => []
  | norms => header ("Assets from " ++ source.1) ++
      norms.flatMap fun norm ↦ remarks setting norm ++ [Statement.blank]

theorem filter_silent_of_isSilent {program : Program} (h : program.IsSilent) :
    program.filter (!·.isOperative) = program :=
  List.filter_eq_self.mpr fun s hs ↦ by simp [Statement.isOperative_of_isSilent (h s hs)]

theorem filter_silent_assets (setting : Setting) (named : Named) :
    (named.assets setting).filter (!·.isOperative) = [] :=
  List.filter_eq_nil_iff.mpr fun s hs ↦ by simp [isOperative_of_mem_assets setting named s hs]

/-- What a sequence of norms adds to the comments of an extension. -/
theorem filter_silent_foldl (setting : Setting) (norms : List Applicable) (extension : Extension) :
    (norms.foldl (addNorm setting) extension).assets.filter (!·.isOperative) =
      extension.assets.filter (!·.isOperative) ++
        norms.flatMap fun norm ↦ remarks setting norm ++ [Statement.blank] := by
  induction norms generalizing extension with
  | nil => simp
  | cons norm norms ih =>
    have hremarks : (remarks setting norm).filter (!·.isOperative) = remarks setting norm :=
      filter_silent_of_isSilent (isSilent_remarks norm)
    have hblank : [Statement.blank].filter (!·.isOperative) = [Statement.blank] := rfl
    rw [List.foldl_cons, ih, addNorm_eq, List.flatMap_cons]
    simp only [List.filter_append, hremarks, filter_silent_assets, hblank, List.nil_append,
      List.append_assoc]

/-- The comments of an extension are those of its sources. -/
theorem filter_silent_ofCorpus (setting : Setting) (corpus : Corpus) :
    (ofCorpus setting corpus).assets.filter (!·.isOperative) =
      corpus.sources.entries.flatMap (sourceRemarks setting) := by
  have hsource (extension : Extension) (source : String × Corpus.Source) :
      (addSource setting extension source).assets.filter (!·.isOperative) =
        extension.assets.filter (!·.isOperative) ++ sourceRemarks setting source := by
    rw [addSource, sourceRemarks]
    cases applicableNorms setting.institution source.1 source.2 with
    | nil => exact (List.append_nil _).symm
    | cons norm norms =>
      dsimp only
      rw [filter_silent_foldl, List.filter_append, filter_silent_of_isSilent (isSilent_header _),
        List.append_assoc]
  have hsources (sources : List (String × Corpus.Source)) : ∀ extension : Extension,
      (sources.foldl (addSource setting) extension).assets.filter (!·.isOperative) =
        extension.assets.filter (!·.isOperative) ++ sources.flatMap (sourceRemarks setting) := by
    induction sources with
    | nil => exact fun _ ↦ (List.append_nil _).symm
    | cons source sources ih =>
      intro extension
      rw [List.foldl_cons, ih, hsource, List.flatMap_cons, List.append_assoc]
  exact hsources _ _

theorem isSilent_sourceRemarks (setting : Setting) (source : String × Corpus.Source) :
    Program.IsSilent (sourceRemarks setting source) := by
  have hnorms (norms : List Applicable) : Program.IsSilent
      (norms.flatMap fun norm ↦ remarks setting norm ++ [Statement.blank]) :=
    List.forall_mem_flatMap.mpr fun norm _ ↦
      Program.isSilent_append.mpr ⟨isSilent_remarks norm, by simp [Statement.isSilent]⟩
  rw [sourceRemarks]
  split
  · exact Program.isSilent_nil
  · exact Program.isSilent_append.mpr ⟨isSilent_header ("Assets from " ++ source.1), hnorms _⟩

/-- The assets of an extension stand between comments and blank lines. -/
theorem isOperative_or_isSilent (setting : Setting) (corpus : Corpus) :
    ∀ s ∈ (ofCorpus setting corpus).assets, s.isOperative = true ∨ s.isSilent = true := by
  intro s hs
  cases hop : s.isOperative with
  | true => exact .inl rfl
  | false =>
    have hmem : s ∈ (ofCorpus setting corpus).assets.filter (!·.isOperative) :=
      List.mem_filter.mpr ⟨hs, by simp [hop]⟩
    rw [filter_silent_ofCorpus] at hmem
    obtain ⟨source, -, hs⟩ := List.mem_flatMap.mp hmem
    exact .inr (isSilent_sourceRemarks setting source s hs)

theorem isSilent_rule (c : Char) : (rule c).isSilent = true := rfl

theorem filter_program {q : Statement → Bool}
    (hq : ∀ s : Statement, s.isSilent = true → q s = false) (extension : Extension) :
    extension.program.filter q =
      extension.texts.filter q ++ extension.assets.filter q ++ extension.clauses.filter q := by
  have hblank : [Statement.blank].filter q = [] := by simp [hq .blank rfl]
  have hcomment (words : String) : [Statement.comment words].filter q = [] := by
    simp [hq (.comment words) rfl]
  have htitle : [Statement.blank, rule '=', .comment "LEGAL CONTEXT EXTENSIONS", rule '=',
      .blank].filter q = [] := by
    refine filter_eq_nil_of_isSilent hq ?_
    simp only [Program.isSilent_cons, isSilent_rule, Program.isSilent_nil, true_and, and_true]
    exact ⟨rfl, rfl, rfl⟩
  have htexts : (if extension.texts.isEmpty then []
      else [Statement.comment "String definitions for legal context actions"] ++
        extension.texts ++ [Statement.blank]).filter q = extension.texts.filter q := by
    split
    · rename_i hempty
      rw [List.isEmpty_iff.mp hempty]
    · rw [List.filter_append, List.filter_append, hcomment, hblank, List.nil_append,
        List.append_nil]
  have hclauses : (if extension.clauses.isEmpty then []
      else header "Obligation clauses from legal sources" ++ extension.clauses).filter q =
        extension.clauses.filter q := by
    split
    · rename_i hempty
      rw [List.isEmpty_iff.mp hempty]
    · rw [List.filter_append, filter_eq_nil_of_isSilent hq (isSilent_header _), List.nil_append]
  rw [program, List.filter_append, List.filter_append, List.filter_append, htitle, htexts,
    hclauses, List.nil_append]

end Extension

end Normative
