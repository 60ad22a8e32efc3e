import Normative.Proofs.Program.Balance
import Normative.Proofs.Program.Contribution

/-!
# Line breaks that come from a corpus

The texts of a corpus may have line breaks. An extension writes keys of sources, names of sources,
identifiers, derivations, contexts and cited actions into comments, actions into literals, and the
roles of both parties into assets, all of them with the line breaks that they have. What follows a
line break in one of them stands on a line of its own.

An extension is contained if no such line is read as anything else: the lines that declare assets
and clauses are those of the norms of the corpus that apply and have two parties, and all others are
blank, comments, or declarations of the texts of norms that apply. The name of the institution has
no line breaks if the schema was written as a text, and names that are derived have none. So an
extension is contained exactly if no action and no role of two parties breaks a line, and what the
comments quote has later lines that do no harm.

## Main results

* `Extension.isContained_extension_iff` : when an extension is contained.
* `Schema.extension_contained_iff_of_parse` : when it is, if the schema was written as a text.
-/

namespace Normative

open Text (IsLine Over isOperative IsContained IsHarmless)

theorem Text.isLine_of_sameFold {text text' : String} (h : sameFold text text' = true) :
    IsLine text ↔ IsLine text' := by
  have hfold : fold text = fold text' := by simpa [sameFold] using h
  refine isLine_congr ?_
  rw [← count_fold isLow_newline, hfold, count_fold isLow_newline]

namespace Extension

open Identifier

/-! ### Statements that keep to themselves -/

theorem isLine_rule (c : Char) (h : c ≠ '\n') : IsLine (String.ofList (List.replicate 73 c)) := by
  rw [Text.isLine_iff, String.toList_ofList, List.mem_replicate]
  exact fun hmem ↦ h hmem.2.symm

section Parts

variable {p : Statement → Prop} (hblank : p .blank)
  (hcomment : ∀ words, IsLine words → p (.comment words))
include hblank hcomment

theorem forall_mem_header_iff {title : String} :
    (∀ s ∈ header title, p s) ↔ p (.comment title) := by
  have hrule : p (rule '-') := hcomment _ (isLine_rule '-' (by decide))
  simp [header, hrule, hblank]

/-- What holds of blank lines and of comments on one line holds of an extension if it holds of its
texts, assets and clauses. -/
theorem forall_mem_program_iff (extension : Extension) :
    (∀ s ∈ extension.program, p s) ↔
      (∀ s ∈ extension.texts, p s) ∧ (∀ s ∈ extension.assets, p s) ∧
        ∀ s ∈ extension.clauses, p s := by
  have hrule : p (rule '=') := hcomment _ (isLine_rule '=' (by decide))
  have htitle : p (.comment "LEGAL CONTEXT EXTENSIONS") := hcomment _ (by decide)
  have htexts : (∀ s ∈ if extension.texts.isEmpty then []
      else [Statement.comment "String definitions for legal context actions"] ++
        extension.texts ++ [Statement.blank], p s) ↔ ∀ s ∈ extension.texts, p s := by
    have hwords : p (.comment "String definitions for legal context actions") :=
      hcomment _ (by decide)
    cases extension.texts with
    | nil => simp
    | cons s texts =>
      rw [List.isEmpty_cons, if_neg Bool.false_ne_true, List.forall_mem_append,
        List.forall_mem_append, List.forall_mem_singleton, List.forall_mem_singleton,
        and_iff_right hwords, and_iff_left hblank]
  have hclauses : (∀ s ∈ if extension.clauses.isEmpty then []
      else header "Obligation clauses from legal sources" ++ extension.clauses, p s) ↔
        ∀ s ∈ extension.clauses, p s := by
    have hheader : ∀ s ∈ header "Obligation clauses from legal sources", p s :=
      (forall_mem_header_iff hblank hcomment).mpr (hcomment _ (by decide))
    cases extension.clauses with
    | nil => simp
    | cons s clauses =>
      rw [List.isEmpty_cons, if_neg Bool.false_ne_true, List.forall_mem_append,
        and_iff_right hheader]
  rw [program, List.forall_mem_append, List.forall_mem_append, List.forall_mem_append, htexts,
    hclauses, and_assoc, and_assoc]
  simp [hrule, htitle, hblank]

/-- It holds of the citations under the norms of a schema if it holds of the citations. -/
theorem forall_mem_schemaCitations_iff (corpus : Corpus) (contractType : String) {schema : Schema}
    (hschema : ∀ norm ∈ schema.authored, IsLine norm.role ∧ IsLine norm.action) :
    (∀ s ∈ schemaCitations corpus contractType schema, p s) ↔
      ∀ text ∈ citationTexts corpus contractType schema, p (.comment text) := by
  have hnorm (norm : Norm) (hnorm : norm ∈ schema.authored) :
      (∀ s ∈ normCitations corpus contractType norm, p s) ↔
        ∀ c ∈ corpus.citations norm contractType, p (.comment c.text) := by
    have hkeyword : IsLine norm.deontic.keyword := by cases norm.deontic <;> decide
    have htitle : p (.comment ("Norm " ++ norm.id.decimal ++ ": " ++
        " ".intercalate [norm.role, norm.deontic.keyword, norm.action])) := by
      have hid : IsLine norm.id.decimal := isLine_of_over (over_toString _)
      refine hcomment _ ?_
      simp +decide [Text.isLine_append, hid, hkeyword, hschema norm hnorm]
    rw [normCitations]
    cases corpus.citations norm contractType with
    | nil => simp
    | cons c citations =>
      dsimp only
      rw [List.forall_mem_append, List.forall_mem_append, List.forall_mem_singleton,
        List.forall_mem_singleton, and_iff_right htitle, and_iff_left hblank, List.forall_mem_map]
  have hnotes : (∀ s ∈ schema.authored.flatMap (normCitations corpus contractType), p s) ↔
      ∀ text ∈ citationTexts corpus contractType schema, p (.comment text) := by
    rw [citationTexts, List.forall_mem_flatMap, List.forall_mem_flatMap]
    refine forall₂_congr fun norm hmem ↦ ?_
    rw [hnorm norm hmem, List.forall_mem_map]
  rw [← hnotes, schemaCitations]
  cases schema.authored.flatMap (normCitations corpus contractType) with
  | nil => simp
  | cons s notes =>
    have hheader : ∀ s ∈ header "Legal annotations", p s :=
      (forall_mem_header_iff hblank hcomment).mpr (hcomment _ (by decide))
    dsimp only
    rw [List.forall_mem_append, List.forall_mem_append, List.forall_mem_singleton,
      and_iff_right ⟨hblank, hheader⟩]

end Parts

section KeepsTo

variable {declarations : List String} {setting : Setting}

theorem keepsTo_comment_of_isLine (words : String) (h : IsLine words) :
    (Statement.comment words).KeepsTo declarations :=
  Text.isHarmless_of_isLine h

theorem keepsTo_blank : Statement.blank.KeepsTo declarations := Statement.isUnbroken_blank

/-- The comments of a norm keep to themselves if what they quote does. -/
theorem forall_mem_remarks_iff (h : IsLine setting.institution) (norm : Applicable) :
    (∀ s ∈ remarks setting norm, s.KeepsTo declarations) ↔
      ∀ words ∈ norm.quotations, IsHarmless declarations words := by
  have hnote : IsLine ("Note: Applies to " ++ setting.institution ++ " (in conditions list)") := by
    simpa +decide [Text.isLine_append] using h
  rw [remarks_eq, List.forall_mem_append, List.forall_mem_map, List.forall_mem_singleton,
    and_iff_left (keepsTo_comment_of_isLine _ hnote)]
  rfl

theorem forall_mem_sourceRemarks_iff (h : IsLine setting.institution)
    (source : String × Corpus.Source) :
    (∀ s ∈ sourceRemarks setting source, s.KeepsTo declarations) ↔
      ∀ words ∈ sourceQuotations setting.institution source, IsHarmless declarations words := by
  rw [sourceRemarks, sourceQuotations]
  cases applicableNorms setting.institution source.1 source.2 with
  | nil => simp
  | cons norm norms =>
    dsimp only
    rw [List.forall_mem_append, forall_mem_header_iff keepsTo_blank keepsTo_comment_of_isLine,
      List.forall_mem_cons, List.forall_mem_flatMap, List.forall_mem_flatMap]
    refine and_congr_right' (forall₂_congr fun norm _ ↦ ?_)
    rw [List.forall_mem_append, forall_mem_remarks_iff h, List.forall_mem_singleton,
      and_iff_left keepsTo_blank]

theorem isLine_canonicalRole {role : String} :
    IsLine (canonicalRole setting role) ↔ IsLine role := by
  rw [canonicalRole]
  split
  · rename_i hfirst
    exact (Text.isLine_of_sameFold hfirst).symm
  · split
    · rename_i hsecond
      exact (Text.isLine_of_sameFold hsecond).symm
    · rfl

/-- The assets of a norm keep to their lines exactly if the roles of its two parties are lines. -/
theorem forall_mem_assets_iff {named : Named}
    (hnames : Over IsNameChar named.text ∧ Over IsNameChar named.stem) :
    (∀ s ∈ named.assets setting, s.KeepsTo declarations) ↔
      ∀ active ∈ named.norm.details.active, ∀ passive ∈ named.norm.details.passive,
        IsLine active ∧ IsLine passive := by
  have hasset (ending giver receiver : String) (hending : IsLine ending) :
      (Statement.asset (named.stem ++ ending)
        ⟨setting.classifier.objectKind named.norm.details.object, .positive⟩
        (subject (canonicalRole setting giver)) named.text
        (subject (canonicalRole setting receiver))).KeepsTo declarations ↔
          IsLine giver ∧ IsLine receiver := by
    refine Statement.isUnbroken_asset.trans ?_
    simp [Text.isLine_append, isLine_of_over hnames.1, isLine_of_over hnames.2, hending,
      isLine_subject, isLine_canonicalRole]
  rw [Named.assets, parties?]
  cases named.norm.details.active with
  | none => simp
  | some active =>
    cases named.norm.details.passive with
    | none => simp
    | some passive =>
      have hparties : (∀ s ∈ partyAssets setting named.norm named.stem named.text
          (canonicalRole setting active) (canonicalRole setting passive),
            s.KeepsTo declarations) ↔ IsLine active ∧ IsLine passive := by
        rw [partyAssets, List.forall_mem_cons, hasset _ _ _ (by decide)]
        split
        · simp
        · rw [List.forall_mem_singleton, hasset _ _ _ (by decide)]
          exact ⟨fun h ↦ h.1, fun h ↦ ⟨h, h.symm⟩⟩
      exact hparties.trans (by simp)

/-- The clauses of a norm keep to their lines. -/
theorem forall_mem_clauses (h : IsLine setting.institution) {named : Named}
    (hstem : Over IsNameChar named.stem) :
    ∀ s ∈ named.clauses setting, s.KeepsTo declarations := by
  have hclause (ending assetEnding : String) (hending : IsLine ending)
      (hasset : IsLine assetEnding) :
      (Statement.clause (named.stem ++ ending) [.holds setting.institution]
        (Deontic.ofCorpusName named.norm.details.deontic)
        (named.stem ++ assetEnding)).KeepsTo declarations := by
    refine Statement.isUnbroken_clause.mpr ?_
    simpa [Text.isLine_append, isLine_of_over hstem, hending, hasset, Premise.asset] using h
  rw [Named.clauses]
  split
  · simp
  · rw [partyClauses]
    refine List.forall_mem_cons.mpr ⟨hclause _ _ (by decide) (by decide), ?_⟩
    split
    · simp
    · exact List.forall_mem_singleton.mpr (hclause _ _ (by decide) (by decide))

end KeepsTo

/-! ### The extension as a whole -/

section Whole

variable {setting : Setting} {corpus : Corpus} {names : List Named} {schema : Schema}
  (h : Declares setting names (ofCorpus setting corpus)) (contractType : String)
include h

theorem isOperative_of_mem_clauses :
    ∀ s ∈ (ofCorpus setting corpus).clauses, s.isOperative = true := by
  rw [h.clauses, List.forall_mem_flatMap]
  intro named _
  rw [Named.clauses]
  split
  · simp
  · rw [partyClauses]
    split <;> simp [Statement.isOperative]

theorem isText_of_mem_texts : ∀ s ∈ (ofCorpus setting corpus).texts, s.isText = true := by
  rw [h.texts, List.forall_mem_map]
  exact fun named _ ↦ rfl

/-- The operative lines of an extension are those of the norms. -/
theorem operativeLines_extension :
    Program.operativeLines ((ofCorpus setting corpus).program ++
      schemaCitations corpus contractType schema) =
      names.flatMap (Named.assetLines setting) ++ names.flatMap (Named.clauseLines setting) := by
  have hcitations := filter_eq_nil_of_isSilent (fun _ ↦ Statement.isOperative_of_isSilent)
    (isSilent_schemaCitations corpus contractType schema)
  have htexts : (ofCorpus setting corpus).texts.filter Statement.isOperative = [] :=
    List.filter_eq_nil_iff.mpr fun s hs hop ↦ Bool.false_ne_true
      ((Statement.isText_of_isOperative hop).symm.trans (isText_of_mem_texts h s hs))
  rw [Program.operativeLines, List.filter_append, hcitations, List.append_nil,
    filter_program fun _ ↦ Statement.isOperative_of_isSilent, htexts, List.nil_append, h.assets,
    List.filter_eq_self.mpr (isOperative_of_mem_clauses h), h.clauses, List.map_append,
    List.map_flatMap, List.map_flatMap]
  simp only [Named.map_line_assets, Named.map_line_clauses]

/-- The declarations of texts of an extension are those of the norms. -/
theorem textLines_extension :
    Program.textLines ((ofCorpus setting corpus).program ++
      schemaCitations corpus contractType schema) = names.map Named.textLine := by
  have hcitations := filter_eq_nil_of_isSilent (fun _ ↦ Statement.isText_of_isSilent)
    (isSilent_schemaCitations corpus contractType schema)
  have hassets : (ofCorpus setting corpus).assets.filter Statement.isText = [] := by
    refine List.filter_eq_nil_iff.mpr fun s hs ↦ ?_
    rcases isOperative_or_isSilent setting corpus s hs with hop | hsilent
    · simp [Statement.isText_of_isOperative hop]
    · simp [Statement.isText_of_isSilent hsilent]
  have hclauses : (ofCorpus setting corpus).clauses.filter Statement.isText = [] :=
    List.filter_eq_nil_iff.mpr fun s hs ↦ by
      simp [Statement.isText_of_isOperative (isOperative_of_mem_clauses h s hs)]
  rw [Program.textLines, List.filter_append, hcitations, List.append_nil,
    filter_program fun _ ↦ Statement.isText_of_isSilent, hassets, hclauses, List.append_nil,
    List.append_nil, List.filter_eq_self.mpr (isText_of_mem_texts h), h.texts, List.map_map]
  exact List.map_congr_left fun named _ ↦ named.line_textStatement

theorem isSimple_extension : ∀ s ∈ (ofCorpus setting corpus).program ++
    schemaCitations corpus contractType schema, s.IsSimple := by
  refine List.forall_mem_append.mpr ⟨?_, fun s hs ↦
    Statement.isSimple_of_isSilent (isSilent_schemaCitations corpus contractType schema s hs)⟩
  refine (forall_mem_program_iff trivial (fun _ _ ↦ trivial) _).mpr ⟨?_, fun s hs ↦ ?_, ?_⟩
  · rw [h.texts, List.forall_mem_map]
    exact fun named hmem ↦ ⟨(h.areNames named hmem).1, quotes_literal _⟩
  · exact (isOperative_or_isSilent setting corpus s hs).elim Statement.isSimple_of_isOperative
      Statement.isSimple_of_isSilent
  · exact fun s hs ↦ Statement.isSimple_of_isOperative (isOperative_of_mem_clauses h s hs)

/-- The assets and comments of an extension keep to themselves exactly if the roles of two parties
are lines and the comments quote nothing that does harm. -/
theorem forall_mem_assets_ofCorpus_iff (hinstitution : IsLine setting.institution)
    {declarations : List String} :
    (∀ s ∈ (ofCorpus setting corpus).assets, s.KeepsTo declarations) ↔
      (∀ named ∈ names, ∀ active ∈ named.norm.details.active,
        ∀ passive ∈ named.norm.details.passive, IsLine active ∧ IsLine passive) ∧
      ∀ words ∈ corpusQuotations setting.institution corpus, IsHarmless declarations words := by
  have hsplit : (∀ s ∈ (ofCorpus setting corpus).assets, s.KeepsTo declarations) ↔
      (∀ s ∈ names.flatMap (Named.assets setting), s.KeepsTo declarations) ∧
        ∀ s ∈ corpus.sources.entries.flatMap (sourceRemarks setting), s.KeepsTo declarations := by
    rw [← h.assets, ← filter_silent_ofCorpus]
    simp only [List.mem_filter]
    grind
  rw [hsplit, List.forall_mem_flatMap, List.forall_mem_flatMap, corpusQuotations,
    List.forall_mem_flatMap]
  exact and_congr
    (forall₂_congr fun named hmem ↦ forall_mem_assets_iff (h.areNames named hmem))
    (forall₂_congr fun source _ ↦ forall_mem_sourceRemarks_iff hinstitution source)

/-- An extension is contained exactly if the actions of its norms and the roles of two parties are
lines, and its comments quote nothing that does harm. -/
theorem isContained_extension_iff (hnames : names.map Named.norm =
      corpusNorms setting.institution corpus) (hinstitution : IsLine setting.institution)
    (hschema : ∀ norm ∈ schema.authored, IsLine norm.role ∧ IsLine norm.action) :
    IsContained
        (names.flatMap (Named.assetLines setting) ++ names.flatMap (Named.clauseLines setting))
        (names.map Named.textLine)
        (Text.lines (Program.render ((ofCorpus setting corpus).program ++
          schemaCitations corpus contractType schema))) ↔
      (∀ norm ∈ corpusNorms setting.institution corpus, IsLine norm.action ∧
        ∀ active ∈ norm.details.active, ∀ passive ∈ norm.details.passive,
          IsLine active ∧ IsLine passive) ∧
      ∀ words ∈ corpusQuotations setting.institution corpus ++
          citationTexts corpus contractType schema,
        IsHarmless (names.map Named.textLine) words := by
  have htexts : (∀ s ∈ (ofCorpus setting corpus).texts, s.KeepsTo (names.map Named.textLine)) ↔
      ∀ named ∈ names, IsLine named.norm.action := by
    rw [h.texts, List.forall_mem_map]
    refine forall₂_congr fun named hmem ↦ Statement.isUnbroken_text.trans ?_
    rw [and_iff_right (isLine_of_over (h.areNames named hmem).1), isLine_literal]
  have hclauses : ∀ s ∈ (ofCorpus setting corpus).clauses,
      s.KeepsTo (names.map Named.textLine) := by
    rw [h.clauses, List.forall_mem_flatMap]
    exact fun named hmem ↦ forall_mem_clauses hinstitution (h.areNames named hmem).2
  have hsimple : ∀ s ∈ (ofCorpus setting corpus).program ++
      schemaCitations corpus contractType schema, s.IsSimple := isSimple_extension h contractType
  have hkeeps := Program.isContained_iff hsimple
  rw [operativeLines_extension h, textLines_extension h] at hkeeps
  rw [hkeeps, List.forall_mem_append, forall_mem_program_iff keepsTo_blank
    keepsTo_comment_of_isLine, forall_mem_schemaCitations_iff keepsTo_blank
    keepsTo_comment_of_isLine corpus contractType hschema, htexts,
    forall_mem_assets_ofCorpus_iff h hinstitution, and_iff_left hclauses, ← hnames,
    List.forall_mem_map, List.forall_mem_append]
  constructor
  · rintro ⟨⟨hactions, hroles, hquotations⟩, hcitations⟩
    exact ⟨fun named hmem ↦ ⟨hactions named hmem, hroles named hmem⟩, hquotations, hcitations⟩
  · rintro ⟨hnorms, hquotations, hcitations⟩
    exact ⟨⟨fun named hmem ↦ (hnorms named hmem).1, fun named hmem ↦ (hnorms named hmem).2,
      hquotations⟩, hcitations⟩

end Whole

/-- The setting of the extension of a program by a corpus, for an institution. -/
def Setting.ofInstitution (classifier : Classifier) (corpus : Corpus) (institution : Institution)
    (base : Program) : Setting where
  base := base.render
  institution := institution.name
  firstRole := (corpus.institutionRoles institution.name).1
  secondRole := (corpus.institutionRoles institution.name).2
  classifier := classifier

/-- An extension defines the names of its norms. -/
theorem Declares.defines {setting : Setting} {corpus : Corpus} {names : List Named}
    (h : Declares setting names (ofCorpus setting corpus)) :
    Defines setting (corpusNorms setting.institution corpus) (names.map Named.text)
      ((names.filter (Named.hasParties setting)).map Named.stem) := by
  obtain ⟨htextNames, hrest⟩ := Prod.mk.inj (naming_ofCorpus setting corpus)
  rw [← h.textNames, ← h.stems, htextNames, (Prod.mk.inj hrest).1]
  exact defines_run setting _

end Extension

/-- The lines of a program that is followed by another are those of both. -/
theorem Program.lines_render_append (base extension : Program) :
    ∃ before, Text.lines base.render = before ++ [[]] ∧
      Text.lines (Program.render (base ++ extension)) =
        before ++ Text.lines extension.render := by
  refine ⟨(base.flatMap Statement.lines).flatMap Text.lines, lines_render_eq base, ?_⟩
  rw [lines_render_eq, lines_render_eq, List.flatMap_append, List.flatMap_append,
    List.append_assoc]

namespace Schema

open Extension

/-- The program of a schema that was written as a text has an extension by every corpus, which
declares names for all norms that apply. The lines of this extension that declare assets and clauses
are those of the norms with two parties, and all its other lines are blank, comments, or
declarations of the texts of norms, exactly if the following is the case: no action of a norm that
applies breaks a line, nor does the role of one of two parties, and where the comments quote a text
of the corpus that breaks a line, its later lines are not read as anything else. -/
theorem extension_contained_iff_of_parse {text : String} {schema : Schema} (classifier : Classifier)
    (corpus : Corpus) (h : parse text = .ok schema) :
    ∃ (institution : Institution) (base extension : Program) (setting : Setting)
      (names : List Named),
      schema.institution = some institution ∧
      schema.program? classifier = some base ∧
      schema.extendedProgram? classifier corpus = some (base ++ extension) ∧
      (∃ before, Text.lines base.render = before ++ [[]] ∧
        Text.lines (Program.render (base ++ extension)) =
          before ++ Text.lines extension.render) ∧
      setting = .ofInstitution classifier corpus institution base ∧
      names.map Named.norm = corpusNorms institution.name corpus ∧
      Defines setting (corpusNorms institution.name corpus) (names.map Named.text)
        ((names.filter (Named.hasParties setting)).map Named.stem) ∧
      (IsContained
          (names.flatMap (Named.assetLines setting) ++ names.flatMap (Named.clauseLines setting))
          (names.map Named.textLine) (Text.lines extension.render) ↔
        (∀ norm ∈ corpusNorms institution.name corpus, IsLine norm.action ∧
          ∀ active ∈ norm.details.active, ∀ passive ∈ norm.details.passive,
            IsLine active ∧ IsLine passive) ∧
        ∀ words ∈ corpusQuotations institution.name corpus ++
            citationTexts corpus (Text.lowercase institution.name) schema,
          IsHarmless (names.map Named.textLine) words) := by
  obtain ⟨institution, hinstitution⟩ := exists_institution_of_parse h
  have hunbroken := isUnbroken_draft_of_parse h hinstitution classifier
  have hschema : ∀ norm ∈ schema.authored, IsLine norm.role ∧ IsLine norm.action := by
    intro norm hnorm
    have hpart : (.inl norm : Part) ∈ schema.parts := by
      simp [Schema.parts, List.mem_of_mem_filter hnorm]
    have htexts := hunbroken.parts _ hpart
    exact ⟨htexts _ (by simp [Part.texts, Norm.texts]), htexts _ (by simp [Part.texts, Norm.texts])⟩
  let base := (schema.draft institution classifier).program
  obtain ⟨names, hnames, hdeclares⟩ :=
    declares_ofCorpus (.ofInstitution classifier corpus institution base) corpus
  exact ⟨institution, base, _, _, names, hinstitution, program?_eq_some hinstitution classifier,
    extendedProgram?_eq_some hinstitution classifier corpus,
    Program.lines_render_append _ _, rfl, hnames, hdeclares.defines,
    isContained_extension_iff hdeclares _ hnames hunbroken.institution hschema⟩

/-- A schema with one norm. -/
def shortSale : Schema where
  institution := some ⟨"Venta", "contrato", .multiple, ""⟩
  norms := [⟨1, "comprador", .obligation, "pagar", none, [], .authored⟩]
  violations := []
  facts := []
  agendas := []

/-- The text of this schema. -/
def shortSaleText : String := "Institution Venta\n1 el-comprador debe pagar\n"

theorem parse_shortSaleText : parse shortSaleText = .ok shortSale := by decide +kernel

/-- A corpus with one source of a given name, which has a norm with two parties and one with a
single party. -/
def shortSaleSources (source : String) : Corpus where
  sources := ⟨[("cod", ⟨some source, some "ley", ⟨[
    ("a1", ⟨some "art. 1", some ⟨some "pagar el precio", some "comprador", some "vendedor", none,
      none, ["venta"]⟩, ["compraventa"], none⟩),
    ("a2", ⟨some "art. 2", some ⟨some "entregar", some "vendedor", none, none, none, ["Venta"]⟩, [],
      some "cod.a1"⟩)]⟩⟩)]⟩
  roleMappings := .empty
  roles := .empty

/-- The name of a source over two lines, the second of which is a comment of its own. -/
def commentedSource : String := "Código\n// Civil"

theorem extension_contained_iff_of_parse_commentedSource :
    parse shortSaleText = .ok shortSale ∧ ¬ IsLine commentedSource ∧
      ∃ (base extension : Program) (setting : Setting) (names : List Named),
        shortSale.extendedProgram? .byKeyword (shortSaleSources commentedSource) =
          some (base ++ extension) ∧
        names.map (fun named ↦ named.norm.entry.normKey) = ["a1", "a2"] ∧
        IsContained
          (names.flatMap (Named.assetLines setting) ++ names.flatMap (Named.clauseLines setting))
          (names.map Named.textLine) (Text.lines extension.render) := by
  obtain ⟨institution, base, extension, setting, names, hinstitution, -, hextended, -, -, hnames, -,
    hcontained⟩ :=
    extension_contained_iff_of_parse .byKeyword (shortSaleSources commentedSource)
      parse_shortSaleText
  obtain rfl : (⟨"Venta", "contrato", .multiple, ""⟩ : Institution) = institution :=
    Option.some.inj hinstitution
  have hkeys : (corpusNorms "Venta" (shortSaleSources commentedSource)).map
      (fun norm ↦ norm.entry.normKey) = ["a1", "a2"] := by decide +kernel
  have hnorms : ∀ norm ∈ corpusNorms "Venta" (shortSaleSources commentedSource),
      IsLine norm.action ∧ ∀ active ∈ norm.details.active, ∀ passive ∈ norm.details.passive,
        IsLine active ∧ IsLine passive := by decide +kernel
  have hwords : ∀ words ∈ corpusQuotations "Venta" (shortSaleSources commentedSource) ++
      citationTexts (shortSaleSources commentedSource) (Text.lowercase "Venta") shortSale,
      (Text.laterLines words).all ("//".toList.isPrefixOf ·) = true := by decide +kernel
  refine ⟨parse_shortSaleText, by decide, base, extension, setting, names, hextended, ?_, ?_⟩
  · rw [← hkeys, ← hnames, List.map_map]
    rfl
  · exact hcontained.mpr ⟨hnorms, fun words hmem ↦ Text.isHarmless_of_comments (hwords words hmem)⟩

/-- A line that declares an asset. -/
def injectedLine : String := "asset Fuga = Service, +, A, b, C;"

/-- A corpus with one norm, which has a single party, from a source whose name has this line within
it. -/
def brokenSources : Corpus where
  sources := ⟨[("cod", ⟨some ("Ley\n" ++ injectedLine ++ "\n//"), some "ley", ⟨[
    ("a2", ⟨some "art. 2", some ⟨some "entregar", some "vendedor", none, none, none, ["Venta"]⟩, [],
      none⟩)]⟩⟩)]⟩
  roleMappings := .empty
  roles := .empty

/-- The name of a source is written as it is, so that a line of the extension declares an asset
although no norm has two parties. -/
theorem brokenSources_declares_asset :
    parse shortSaleText = .ok shortSale ∧
      (∀ norm ∈ corpusNorms "Venta" brokenSources, norm.details.active = none) ∧
      ∃ base extension, shortSale.program? .byKeyword = some base ∧
        shortSale.extendedProgram? .byKeyword brokenSources = some (base ++ extension) ∧
        injectedLine.toList ∈ Text.lines (Program.render extension) ∧
        isOperative injectedLine.toList = true ∧
        ∀ (setting : Setting) (names : List Named),
          names.map Named.norm = corpusNorms "Venta" brokenSources →
          ¬ IsContained (names.flatMap (Named.assetLines setting) ++
              names.flatMap (Named.clauseLines setting))
            (names.map Named.textLine) (Text.lines (Program.render extension)) := by
  have hinstitution : shortSale.institution = some ⟨"Venta", "contrato", .multiple, ""⟩ := rfl
  have hactive : ∀ norm ∈ corpusNorms "Venta" brokenSources, norm.details.active = none := by
    decide +kernel
  have hoperative : isOperative injectedLine.toList = true := by decide +kernel
  let base := (shortSale.draft ⟨"Venta", "contrato", .multiple, ""⟩ .byKeyword).program
  -- The line is found through the comment that quotes the source.
  have hcomment : Statement.comment ("Source: Ley\n" ++ injectedLine ++ "\n// - art. 2") ∈
      (ofCorpus (.ofInstitution .byKeyword brokenSources ⟨"Venta", "contrato", .multiple, ""⟩ base)
        brokenSources).assets := by
    refine List.mem_of_mem_filter (p := (!·.isOperative)) ?_
    rw [filter_silent_ofCorpus]
    decide +kernel
  have hmem : injectedLine.toList ∈ Text.lines (Program.render (shortSale.extension .byKeyword
      brokenSources ⟨"Venta", "contrato", .multiple, ""⟩ base)) := by
    refine Program.mem_lines_render (List.mem_append_left _ (List.mem_append_left _
      (List.mem_append_right _ hcomment))) (List.mem_singleton_self _) ?_
    decide +kernel
  refine ⟨parse_shortSaleText, hactive, base, _, program?_eq_some hinstitution .byKeyword,
    extendedProgram?_eq_some hinstitution .byKeyword brokenSources, hmem, hoperative, ?_⟩
  intro setting names hnames hcontained
  -- No norm has two parties, so that no line should declare anything.
  have hparties : ∀ named ∈ names, parties? setting named.norm = none := by
    intro named hnamed
    have hnone := hactive named.norm (hnames ▸ List.mem_map_of_mem hnamed)
    simp [parties?, hnone]
  have hnil : names.flatMap (Named.assetLines setting) ++
      names.flatMap (Named.clauseLines setting) = [] := by
    rw [List.append_eq_nil_iff, List.flatMap_eq_nil_iff, List.flatMap_eq_nil_iff]
    exact ⟨fun named hnamed ↦ by rw [Named.assetLines, hparties named hnamed],
      fun named hnamed ↦ by rw [Named.clauseLines, hparties named hnamed]⟩
  have hfilter := List.mem_filter.mpr ⟨hmem, hoperative⟩
  rw [hcontained.filter_eq, hnil] at hfilter
  exact List.not_mem_nil hfilter

end Schema

end Normative
