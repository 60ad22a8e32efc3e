import Mathlib.Data.List.Forall2
import Normative.Proofs.Program.Declaration
import Normative.Proofs.Schema.Numbering

/-!
# Names that are used

The statements of a program use the names of texts and of assets. Every name that is used is
declared, although names are not carried from the declaration to the places where they are used but
made again there: from the action and the position of a norm, from the number of a condition, or
from the stem of a norm of a corpus. A reference to a norm gives the identifier of the norm, behind
which its position has to be found first.

## Main definitions

* `Program.UsesOnly` : a program uses only given texts and assets.
* `Program.IsClosed` : a program declares all that it uses.

## Main results

* `Schema.assetOf?_eq_some_iff`, `Schema.assetOf?_eq_none_iff` : the name behind a reference.
* `Draft.violation_cases` : all that a violation can add to a program.
* `Draft.isClosed_program`, `Schema.isClosed_extension` : the program of a schema is closed, with a
  corpus and without.
-/

namespace Normative

open Program Statement

/-! ### The names that statements use -/

/-- The assets that an agenda lists. -/
def Claim.listed : Claim → List String
  | assets names => names
  | remedies _ => []

/-- The texts that a statement uses. -/
def Statement.usedTexts : Statement → List String
  | asset _ _ _ description _ => [description]
  | _ => []

/-- The assets that a statement uses. -/
def Statement.usedAssets : Statement → List String
  | clause _ premises _ conclusion => conclusion :: premises.map Premise.asset
  | fact _ related _ _ => [related]
  | agenda _ _ institution claim => institution :: claim.listed
  | _ => []

namespace Program

variable {texts assets texts' assets' : List String} {program program' : Program}

/-- A program uses only given texts and assets. -/
def UsesOnly (texts assets : List String) (program : Program) : Prop :=
  ∀ statement ∈ program, statement.usedTexts ⊆ texts ∧ statement.usedAssets ⊆ assets

/-- Every text and every asset that a program uses is declared in it. -/
def IsClosed (program : Program) : Prop :=
  program.UsesOnly (names .text program) (names .asset program)

@[simp] theorem usesOnly_nil : UsesOnly texts assets [] := by simp [UsesOnly]

@[simp] theorem usesOnly_cons {statement : Statement} :
    UsesOnly texts assets (statement :: program) ↔
      (statement.usedTexts ⊆ texts ∧ statement.usedAssets ⊆ assets) ∧
        UsesOnly texts assets program := by
  simp [UsesOnly]

@[simp] theorem usesOnly_append :
    UsesOnly texts assets (program ++ program') ↔
      UsesOnly texts assets program ∧ UsesOnly texts assets program' :=
  List.forall_mem_append

theorem usesOnly_flatMap {α : Type} {l : List α} {f : α → Program} :
    UsesOnly texts assets (l.flatMap f) ↔ ∀ a ∈ l, UsesOnly texts assets (f a) :=
  List.forall_mem_flatMap

theorem usesOnly_map {α : Type} {l : List α} {f : α → Statement} :
    UsesOnly texts assets (l.map f) ↔
      ∀ a ∈ l, (f a).usedTexts ⊆ texts ∧ (f a).usedAssets ⊆ assets :=
  List.forall_mem_map

theorem UsesOnly.mono (h : UsesOnly texts assets program) (htexts : texts ⊆ texts')
    (hassets : assets ⊆ assets') : UsesOnly texts' assets' program :=
  fun statement hmem ↦
    ⟨List.Subset.trans (h statement hmem).1 htexts, List.Subset.trans (h statement hmem).2 hassets⟩

/-- What is added to a program may use the assets of both. -/
theorem IsClosed.append (h : program.IsClosed)
    (h' : program'.UsesOnly (names .text program')
      (names .asset program ++ names .asset program')) : (program ++ program').IsClosed := by
  rw [IsClosed, names_append, names_append, usesOnly_append]
  exact ⟨h.mono (List.subset_append_left _ _) (List.subset_append_left _ _),
    h'.mono (List.subset_append_right _ _) (List.Subset.refl _)⟩

theorem IsSilent.usesOnly (h : program.IsSilent) : UsesOnly texts assets program := by
  intro statement hmem
  have hsilent := h statement hmem
  cases statement <;> simp_all [isSilent, usedTexts, usedAssets]

end Program

/-! ### The name behind a reference -/

namespace Schema

variable {schema : Schema} {id : NormId} {asset : String}

theorem mem_numberedNorms_iff {n : Norm × Nat} :
    n ∈ schema.numberedNorms ↔ 1 ≤ n.2 ∧ schema.norms[n.2 - 1]? = some n.1 :=
  List.mem_zipIdx_iff_le_and_getElem?_sub

theorem assetOf?_eq_none_iff :
    schema.assetOf? id = none ↔ ∀ norm ∈ schema.norms, norm.id ≠ id := by
  rw [assetOf?]
  cases hposition : schema.normPosition? id with
  | none => simpa using normPosition?_eq_none_iff.mp hposition
  | some position =>
    rw [← norm?_eq_none_iff]
    cases schema.norm? id <;> simp

/-- A reference gives the name of the asset of the norm that has the identifier. -/
theorem assetOf?_eq_some_iff (hids : (schema.norms.map Norm.id).Nodup) :
    schema.assetOf? id = some asset ↔ ∃ n ∈ schema.numberedNorms, n.1.id = id ∧
      asset = Identifier.normAsset n.1.action n.2 := by
  constructor
  · intro h
    obtain ⟨position, hposition, h⟩ := Option.bind_eq_some_iff.mp h
    obtain ⟨norm, hnorm, h⟩ := Option.bind_eq_some_iff.mp h
    obtain ⟨hpos, norm', hnorm', hid⟩ := (normPosition?_eq_some_iff hids).mp hposition
    -- The look-up of the position and that of the norm are separate and have to agree.
    have hsame : schema.norm? id = some norm' :=
      (norm?_eq_some_iff hids).mpr ⟨List.mem_of_getElem? hnorm', hid⟩
    obtain rfl := Option.some.inj (hnorm.symm.trans hsame)
    have hmem : (norm, position) ∈ schema.numberedNorms :=
      mem_numberedNorms_iff.mpr ⟨hpos, hnorm'⟩
    exact ⟨(norm, position), hmem, hid, (Option.some.inj h).symm⟩
  · rintro ⟨⟨norm, position⟩, hmem, hid, rfl⟩
    obtain ⟨hpos, hnorm⟩ := mem_numberedNorms_iff.mp hmem
    have hposition := (normPosition?_eq_some_iff hids).mpr ⟨hpos, norm, hnorm, hid⟩
    have hfound := (norm?_eq_some_iff hids).mpr ⟨List.mem_of_getElem? hnorm, hid⟩
    simp [assetOf?, hposition, hfound]

/-- All references of a list give names, or one of them refers to no norm. -/
theorem mapM_assetOf?_cases (ids : List NormId) :
    (∃ assets, ids.mapM schema.assetOf? = some assets ∧
      List.Forall₂ (fun id asset ↦ schema.assetOf? id = some asset) ids assets) ∨
    (ids.mapM schema.assetOf? = none ∧ ∃ id ∈ ids, schema.assetOf? id = none) := by
  induction ids with
  | nil => exact .inl ⟨[], rfl, .nil⟩
  | cons id ids ih =>
    cases hid : schema.assetOf? id with
    | none => exact .inr ⟨by simp [hid], id, List.mem_cons_self, hid⟩
    | some asset =>
      rcases ih with ⟨assets, hassets, hall⟩ | ⟨hnone, id', hmem, hid'⟩
      · exact .inl ⟨asset :: assets, by simp [hid, hassets], .cons hid hall⟩
      · exact .inr ⟨by simp [hid, hnone], id', List.mem_cons_of_mem id hmem, hid'⟩

end Schema

/-! ### The program of a schema -/

namespace Draft

variable {draft : Draft} {kind : DeclarationKind} {n : Norm × Nat} {v : Violation × Nat}

theorem names_norms_subset : names kind draft.norms ⊆ names kind draft.program := by
  intro name hname
  simp [Draft.program, hname]

theorem names_norm_subset (hn : n ∈ draft.schema.numberedNorms) :
    names kind (draft.norm n.1 n.2) ⊆ names kind draft.program := by
  refine List.Subset.trans (fun name hname ↦ ?_) names_norms_subset
  rw [names_norms]
  exact List.mem_flatMap.mpr ⟨n, hn, hname⟩

theorem names_violation_subset (hv : v ∈ draft.schema.violations.zipIdx 1) :
    names kind (draft.violation v.1 v.2) ⊆ names kind draft.program := by
  intro name hname
  have hmem : name ∈ names kind draft.violations := by
    rw [names_violations]
    exact List.mem_flatMap.mpr ⟨v, hv, hname⟩
  simp [Draft.program, hmem]

theorem institution_mem : draft.institution.name ∈ names .asset draft.program := by
  simp [Draft.program, names_baseAsset]

theorem baseText_mem : draft.baseText ∈ names .text draft.program := by
  simp [Draft.program, texts, name?]

theorem actionText_mem (hn : n ∈ draft.schema.numberedNorms) :
    Identifier.actionText n.1.action n.2 ∈ names .text draft.program := by
  have hmem : Identifier.actionText n.1.action n.2 ∈ names .text draft.texts := by
    simp only [texts, names_append, names_map, List.mem_append, List.mem_filterMap]
    exact .inl (.inr ⟨n, hn, rfl⟩)
  simp [Draft.program, hmem]

theorem normAsset_mem (hn : n ∈ draft.schema.numberedNorms) :
    Identifier.normAsset n.1.action n.2 ∈ names .asset draft.program :=
  names_norm_subset hn (by simp [names_asset_norm])

theorem assetOf?_mem (hids : (draft.schema.norms.map Norm.id).Nodup) {id : NormId} {asset : String}
    (h : draft.schema.assetOf? id = some asset) : asset ∈ names .asset draft.program := by
  obtain ⟨n, hn, -, rfl⟩ := (Schema.assetOf?_eq_some_iff hids).mp h
  exact normAsset_mem hn

/-- A premise names the asset behind a reference, or one of the conditions in words. -/
theorem asset_of_mem_conditionPremises {position : Nat} {premise : Premise}
    {conditions : List Condition} {counted : Nat}
    (h : premise ∈ draft.conditionPremises position counted conditions) :
    (∃ id, draft.schema.assetOf? id = some premise.asset) ∨
      ∃ c ∈ (conditionTexts conditions).zipIdx (counted + 1),
        premise.asset = "Condition" ++ conditionLabel position c.2 := by
  induction conditions generalizing counted with
  | nil => simp [conditionPremises] at h
  | cons condition conditions ih =>
    cases condition with
    | norm id =>
      rcases List.mem_append.mp h with h | h
      · obtain ⟨asset, hasset, rfl⟩ := Option.map_eq_some_iff.mp (Option.mem_toList.mp h)
        exact .inl ⟨id, hasset⟩
      · exact ih h
    | text description =>
      rcases List.mem_cons.mp h with rfl | h
      · exact .inr ⟨(description, counted + 1), List.mem_cons_self, rfl⟩
      · rcases ih h with hid | ⟨c, hc, hasset⟩
        · exact .inl hid
        · exact .inr ⟨c, List.mem_cons_of_mem _ hc, hasset⟩

/-- A part of a program uses names that the program declares. -/
abbrev Covers (draft : Draft) (part : Program) : Prop :=
  UsesOnly (names .text draft.program) (names .asset draft.program) part

theorem covers_norm (hids : (draft.schema.norms.map Norm.id).Nodup)
    (hn : n ∈ draft.schema.numberedNorms) :
    draft.Covers (draft.norm n.1 n.2) := by
  have hcondition (c : String × Nat) (hc : c ∈ (conditionTexts n.1.conditions).zipIdx 1) :
      "condition" ++ conditionLabel n.2 c.2 ∈ names .text draft.program := by
    refine names_norm_subset hn ?_
    rw [names_text_norm]
    exact List.mem_map.mpr ⟨c, hc, rfl⟩
  have hpremise (premise : Premise)
      (hpremise : premise ∈ draft.conditionPremises n.2 0 n.1.conditions) :
      premise.asset ∈ names .asset draft.program := by
    rcases asset_of_mem_conditionPremises hpremise with ⟨id, hid⟩ | ⟨c, hc, hasset⟩
    · exact assetOf?_mem hids hid
    · refine names_norm_subset hn ?_
      rw [names_asset_norm, hasset]
      exact List.mem_cons_of_mem _ (List.mem_map.mpr ⟨c, hc, rfl⟩)
  rw [Draft.norm, Covers, usesOnly_append, usesOnly_append, usesOnly_flatMap]
  refine ⟨⟨?_, fun c hc ↦ ?_⟩, ?_⟩
  · simp [usedTexts, usedAssets, actionText_mem hn]
  · simp [conditionStatements, usedTexts, usedAssets, hcondition c hc]
  · simpa [usedTexts, usedAssets, Premise.asset, List.subset_def, normAsset_mem hn,
      institution_mem] using hpremise

/-- The statements of a violation are those of its consequence, which fails the assets behind all
its references, unless one of these refers to no norm. -/
theorem violation_cases (violation : Violation) (position : Nat) :
    (draft.violation violation position = [] ∧
      ∃ id ∈ violation.norms.ids, draft.schema.assetOf? id = none) ∨
    ∃ (remarks : List String) (text asset clause : String) (violated : List String),
      draft.violation violation position = remarks.map .comment ++
        draft.consequence violation text asset clause violated ∧
      List.Forall₂ (fun id asset ↦ draft.schema.assetOf? id = some asset) violation.norms.ids
        violated := by
  rw [Draft.violation]
  rcases draft.schema.mapM_assetOf?_cases violation.norms.ids with
    ⟨violated, hviolated, hall⟩ | ⟨hnone, hid⟩
  · rw [hviolated]
    cases hnorms : violation.norms with
    | single id => exact .inr ⟨[], _, _, _, violated, rfl, hnorms ▸ hall⟩
    | compound first second => exact .inr ⟨[_], _, _, _, violated, rfl, hnorms ▸ hall⟩
  · rw [hnone]
    exact .inl ⟨rfl, hid⟩

theorem covers_violation (hids : (draft.schema.norms.map Norm.id).Nodup)
    (hv : v ∈ draft.schema.violations.zipIdx 1) :
    draft.Covers (draft.violation v.1 v.2) := by
  rcases draft.violation_cases v.1 v.2 with
    ⟨hnil, -⟩ | ⟨remarks, text, asset, clause, violated, hblock, hall⟩
  · rw [hnil]
    exact usesOnly_nil
  · have htext : text ∈ names .text draft.program :=
      names_violation_subset hv (by simp [hblock, consequence, name?])
    have hasset : asset ∈ names .asset draft.program :=
      names_violation_subset hv (by simp [hblock, consequence, name?])
    have hviolated : ∀ name ∈ violated, name ∈ names .asset draft.program := by
      intro name hname
      obtain ⟨i, hi, rfl⟩ := List.getElem_of_mem hname
      exact assetOf?_mem hids (hall.get (hall.length_eq ▸ hi) hi)
    rw [hblock, Covers, usesOnly_append, usesOnly_map]
    refine ⟨by simp [usedTexts, usedAssets], ?_⟩
    simpa [consequence, usedTexts, usedAssets, Premise.asset, htext, hasset, List.subset_def]
      using hviolated

theorem relatedAsset_mem (description : String) :
    draft.relatedAsset description ∈ names .asset draft.program := by
  rw [relatedAsset]
  split
  · rename_i norm position hfound
    exact normAsset_mem (n := (norm, position)) (List.mem_of_find?_eq_some hfound)
  · exact institution_mem

theorem covers_norms (hids : (draft.schema.norms.map Norm.id).Nodup) :
    draft.Covers draft.norms := by
  have hall : draft.Covers (draft.schema.numberedNorms.flatMap fun n ↦ draft.norm n.1 n.2) :=
    usesOnly_flatMap.mpr fun n hn ↦ covers_norm hids hn
  simpa [Draft.norms, usedTexts, usedAssets] using hall

theorem covers_violations (hids : (draft.schema.norms.map Norm.id).Nodup) :
    draft.Covers draft.violations := by
  have hall : draft.Covers
      ((draft.schema.violations.zipIdx 1).flatMap fun v ↦ draft.violation v.1 v.2) :=
    usesOnly_flatMap.mpr fun v hv ↦ covers_violation hids hv
  rw [Draft.violations]
  split
  · exact usesOnly_nil
  · simpa [usedTexts, usedAssets] using hall

theorem covers_facts : draft.Covers draft.facts := by
  rw [Draft.facts]
  split
  · exact usesOnly_nil
  · simp [usesOnly_map, usedTexts, usedAssets, relatedAsset_mem]

theorem covers_agendas : draft.Covers draft.agendas := by
  have hclaim (relief : Relief) : (draft.claim relief).listed ⊆ names .asset draft.program := by
    cases relief with
    | essential =>
      intro name hname
      obtain ⟨n, hn, rfl⟩ := List.mem_map.mp hname
      exact normAsset_mem hn
    | remedies list => exact List.nil_subset _
  rw [Draft.agendas]
  split
  · exact usesOnly_nil
  · simp [usesOnly_map, usedTexts, usedAssets, institution_mem, hclaim]

theorem isClosed_program (hids : (draft.schema.norms.map Norm.id).Nodup) :
    draft.program.IsClosed := by
  have hfirst : draft.Covers (draft.texts ++ draft.subjects ++ draft.baseAsset) := by
    simp [texts, subjects, baseAsset, usesOnly_map, usedTexts, usedAssets, baseText_mem]
  have hnorms := usesOnly_append.mpr ⟨hfirst, covers_norms hids⟩
  have hviolations := usesOnly_append.mpr ⟨hnorms, covers_violations hids⟩
  have hfacts := usesOnly_append.mpr ⟨hviolations, draft.covers_facts⟩
  exact usesOnly_append.mpr ⟨hfacts, draft.covers_agendas⟩

end Draft

/-! ### The extension -/

namespace Extension

variable {setting : Setting} {extension : Extension}

/-- The assets of an extension use its texts, and its clauses use its assets and that of the
institution. -/
structure UsesDeclared (setting : Setting) (extension : Extension) : Prop where
  texts : UsesOnly [] [] extension.texts
  assets : UsesOnly (names .text extension.texts) [] extension.assets
  clauses : UsesOnly [] (setting.institution :: names .asset extension.assets) extension.clauses

theorem usesDeclared_empty : UsesDeclared setting empty := by
  constructor <;> exact usesOnly_nil

theorem UsesDeclared.addHeader (h : UsesDeclared setting extension) (title : String) :
    UsesDeclared setting { extension with assets := extension.assets ++ header title } where
  texts := h.texts
  assets := usesOnly_append.mpr ⟨h.assets, (isSilent_header title).usesOnly⟩
  clauses := by
    rw [names_append, (isSilent_header title).names_eq_nil, List.append_nil]
    exact h.clauses

theorem usesOnly_partyAssets (norm : Applicable) (stem text giver receiver : String) :
    UsesOnly [text] [] (partyAssets setting norm stem text giver receiver) := by
  rw [partyAssets]
  split <;> simp [usedTexts, usedAssets]

theorem usesOnly_partyClauses (setting : Setting) (norm : Applicable)
    (stem text giver receiver : String) :
    UsesOnly []
      (setting.institution :: names .asset (partyAssets setting norm stem text giver receiver))
      (partyClauses setting norm stem giver receiver) := by
  rw [partyClauses, partyAssets]
  split <;> simp [usedTexts, usedAssets, Premise.asset, name?]

theorem UsesDeclared.addNorm (h : UsesDeclared setting extension) (norm : Applicable) :
    UsesDeclared setting (addNorm setting extension norm) := by
  have htexts (text value : String) : UsesOnly [] [] (extension.texts ++ [.text text value]) := by
    simp [h.texts, usedTexts, usedAssets]
  have hassets (text value : String) :
      UsesOnly (names .text (extension.texts ++ [.text text value])) []
        (extension.assets ++ remarks setting norm) := by
    rw [names_append, usesOnly_append]
    exact ⟨h.assets.mono (List.subset_append_left _ _) (List.Subset.refl _),
      (isSilent_remarks norm).usesOnly⟩
  rw [Extension.addNorm]
  split
  · refine ⟨htexts _ _, ?_, ?_⟩
    · exact usesOnly_append.mpr ⟨hassets _ _, by simp [usedTexts, usedAssets]⟩
    · simpa [(isSilent_remarks norm).names_eq_nil, name?] using h.clauses
  · rename_i giver receiver _
    refine ⟨htexts _ _, ?_, ?_⟩
    · refine usesOnly_append.mpr ⟨usesOnly_append.mpr ⟨hassets _ _, ?_⟩, ?_⟩
      · refine (usesOnly_partyAssets norm _ _ giver receiver).mono ?_ (List.Subset.refl _)
        simp [name?]
      · simp [usedTexts, usedAssets]
    · -- Old clauses use old assets, and new clauses the assets that come with them.
      have hclauses := usesOnly_partyClauses setting norm
        (extension.stem norm.entry.sourceKey norm.entry.normKey)
        (extension.textName setting norm.action) giver receiver
      refine usesOnly_append.mpr ⟨h.clauses.mono (List.Subset.refl _) ?_,
        hclauses.mono (List.Subset.refl _) ?_⟩ <;>
      · refine List.cons_subset_cons _ fun name hname ↦ ?_
        simp [hname]

theorem usesDeclared_ofCorpus (setting : Setting) (corpus : Corpus) :
    UsesDeclared setting (ofCorpus setting corpus) :=
  ofCorpus_induction corpus usesDeclared_empty (fun _ title h ↦ h.addHeader title)
    fun _ norm h ↦ h.addNorm norm

theorem usesOnly_program {texts assets : List String}
    (htexts : UsesOnly texts assets extension.texts)
    (hassets : UsesOnly texts assets extension.assets)
    (hclauses : UsesOnly texts assets extension.clauses) :
    UsesOnly texts assets extension.program := by
  rw [program]
  split <;> split <;>
    simp [htexts, hassets, hclauses, usedTexts, usedAssets, rule, (isSilent_header _).usesOnly]

/-- An extension uses its own names, and the asset of the institution. -/
theorem UsesDeclared.program (h : UsesDeclared setting extension) :
    UsesOnly (names .text extension.program)
      (setting.institution :: names .asset extension.program) extension.program := by
  have htexts : names .text extension.texts ⊆ names .text extension.program := by
    intro name hname
    have hne : extension.texts ≠ [] := by
      rintro hnil
      simp [hnil] at hname
    simp [Extension.program, hne, hname]
  have hassets : names .asset extension.assets ⊆ names .asset extension.program := by
    intro name hname
    simp [Extension.program, hname]
  exact usesOnly_program (h.texts.mono (List.nil_subset _) (List.nil_subset _))
    (h.assets.mono htexts (List.nil_subset _))
    (h.clauses.mono (List.nil_subset _) (List.cons_subset_cons _ hassets))

end Extension

namespace Schema

variable {schema : Schema} {institution : Institution}

open Extension in
theorem isClosed_extension (hids : (schema.norms.map Norm.id).Nodup) (classifier : Classifier)
    (corpus : Corpus) (base : Program) :
    IsClosed ((schema.draft institution classifier).program ++
      schema.extension classifier corpus institution base) := by
  obtain ⟨setting, citations, hsetting, hcitations, hextension⟩ :=
    exists_extension_eq schema institution classifier corpus base
  have hbase : (schema.draft institution classifier).program.IsClosed :=
    Draft.isClosed_program hids
  have hused := (usesDeclared_ofCorpus setting corpus).program
  rw [hextension]
  refine hbase.append (usesOnly_append.mpr ⟨?_, hcitations.usesOnly⟩)
  rw [names_append, names_append, hcitations.names_eq_nil, hcitations.names_eq_nil,
    List.append_nil, List.append_nil]
  refine hused.mono (List.Subset.refl _) (List.cons_subset.mpr ⟨?_, List.subset_append_right _ _⟩)
  rw [hsetting]
  exact List.mem_append_left _ Draft.institution_mem

end Schema

end Normative
