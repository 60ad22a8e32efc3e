import Mathlib.Data.Set.Lattice
import Normative.Proofs.Program.Freshness
import Normative.Proofs.Program.Unbroken

/-!
# Names that are declared once

No two assets of a program have the same name, nor do two clauses, two facts, two agendas or two
subjects, whatever the texts are from which the names are made, and whether or not the program has
been extended by a corpus. Only the asset of the institution is named by its author.

The names of a part of a program tell places of that part, and of no other part. So the names of all
parts together are different if those of each part are. For an extension, which grows norm by norm,
this rests on the stem of each norm being new.

## Main definitions

* `Tells` : different names that tell places of a region.
* `Program.NamesUnique` : a program whose names are declared once.

## Main results

* `Tells.append`, `Tells.flatMap_zipIdx` : how names of parts are put together.
* `Schema.namesUnique_program` : the names of a program are declared once.
-/

namespace Normative

/-! ### Names that tell places -/

/-- Different names, each of which tells a place of a region. -/
structure Tells {β : Type} (ofName : String → Option β) (region : Set β) (names : List String) :
    Prop where
  nodup : names.Nodup
  exists_place : ∀ name ∈ names, ∃ place ∈ region, ofName name = some place

namespace Tells

variable {α β : Type} {ofName : String → Option β} {region region' : Set β}
  {names names' : List String}

theorem nil : Tells ofName region [] := ⟨List.nodup_nil, by simp⟩

theorem singleton {name : String} {place : β} (h : ofName name = some place)
    (hplace : place ∈ region) : Tells ofName region [name] :=
  ⟨List.nodup_singleton name, by simpa using ⟨place, hplace, h⟩⟩

theorem mono (h : Tells ofName region names) (hregion : region ⊆ region') :
    Tells ofName region' names where
  nodup := h.nodup
  exists_place := fun name hname ↦ by
    obtain ⟨place, hplace, htells⟩ := h.exists_place name hname
    exact ⟨place, hregion hplace, htells⟩

/-- Names of regions without a common place are different. -/
theorem disjoint (h : Tells ofName region names) (h' : Tells ofName region' names')
    (hregions : ∀ place ∈ region, place ∉ region') : names.Disjoint names' := by
  intro name hname hname'
  obtain ⟨place, hplace, htells⟩ := h.exists_place name hname
  obtain ⟨place', hplace', htells'⟩ := h'.exists_place name hname'
  obtain rfl := Option.some.inj (htells.symm.trans htells')
  exact hregions place hplace hplace'

theorem append (h : Tells ofName region names) (h' : Tells ofName region' names')
    (hregions : ∀ place ∈ region, place ∉ region') :
    Tells ofName (region ∪ region') (names ++ names') where
  nodup := h.nodup.append h'.nodup (h.disjoint h' hregions)
  exists_place := fun name hname ↦ by
    rcases List.mem_append.mp hname with hname | hname
    · exact (h.mono Set.subset_union_left).exists_place name hname
    · exact (h'.mono Set.subset_union_right).exists_place name hname

/-- Names of numbered parts are different if the regions of the parts have no common place. -/
theorem flatMap_zipIdx {l : List α} {start : Nat} {f : α × Nat → List String}
    {region : Nat → Set β} (hf : ∀ x, Tells ofName (region x.2) (f x))
    (hregions : ∀ i j, i ≠ j → ∀ place ∈ region i, place ∉ region j) :
    Tells ofName (⋃ i, region i) ((l.zipIdx start).flatMap f) where
  nodup := by
    have hplaces : (l.zipIdx start).Pairwise fun x y ↦ x.2 ≠ y.2 := by
      have hnodup : ((l.zipIdx start).map Prod.snd).Nodup := by
        rw [List.zipIdx_map_snd]
        exact List.nodup_range'
      exact List.pairwise_map.mp hnodup
    refine List.nodup_flatMap.mpr ⟨fun x _ ↦ (hf x).nodup, hplaces.imp fun hne ↦ ?_⟩
    exact (hf _).disjoint (hf _) (hregions _ _ hne)
  exists_place := fun name hname ↦ by
    obtain ⟨x, -, hname⟩ := List.mem_flatMap.mp hname
    exact ((hf x).mono (Set.subset_iUnion region x.2)).exists_place name hname

/-- Names that tell the number of their part are different. -/
theorem map_zipIdx {l : List α} {start : Nat} {f : α × Nat → String} {place : Nat → β}
    (hf : ∀ x, ofName (f x) = some (place x.2)) (hplace : ∀ i j, place i = place j → i = j) :
    Tells ofName (⋃ i, {place i}) ((l.zipIdx start).map f) := by
  rw [List.map_eq_flatMap]
  refine flatMap_zipIdx (fun x ↦ singleton (hf x) rfl) ?_
  rintro i j hne _ rfl h
  exact hne (hplace i j h)

end Tells

/-! ### The parts of a program -/

namespace Place

/-- The places of a norm and of its conditions. -/
def ofNorm (position : Nat) : Set Place :=
  {place | place = norm position ∨ ∃ number, place = condition position number}

/-- The places of the norms of a corpus with given stems. -/
def ofStems (stems : List String) : Set Place :=
  {place | ∃ stem ∈ stems, place = corpus stem ∨ place = exchanged stem}

/-- The place that a name tells. -/
def ofName? : DeclarationKind → String → Option Place
  | .asset => ofAsset?
  | .clause => ofClause?
  | _ => fun _ ↦ none

theorem notMem_ofNorm {i j : Nat} (h : i ≠ j) : ∀ place ∈ ofNorm i, place ∉ ofNorm j := by
  rintro place (rfl | ⟨number, rfl⟩) <;> simp [ofNorm, h]

theorem ofStems_concat (stems : List String) (stem : String) :
    ofStems (stems ++ [stem]) = ofStems stems ∪ ofStems [stem] := by
  ext place
  simp [ofStems, or_and_right, exists_or]

theorem notMem_ofStems {stems : List String} {stem : String} (h : stem ∉ stems) :
    ∀ place ∈ ofStems stems, place ∉ ofStems [stem] := by
  rintro place ⟨stem', hstem', rfl | rfl⟩ <;> simp [ofStems] <;> rintro rfl <;> exact h hstem'

end Place

open Place Program Statement
open Identifier (number?)

namespace Draft

variable {kind : DeclarationKind} (draft : Draft)

theorem tells_norm (hkind : kind = .asset ∨ kind = .clause) (norm : Norm) (position : Nat) :
    Tells (ofName? kind) (ofNorm position) (names kind (draft.norm norm position)) := by
  rcases hkind with rfl | rfl
  · have hnorm : Tells ofAsset? {Place.norm position} [Identifier.normAsset norm.action position] :=
      .singleton (ofAsset?_normAsset _ _) rfl
    have hconditions : Tells ofAsset? (⋃ number, {Place.condition position number})
        (((conditionTexts norm.conditions).zipIdx 1).map fun c ↦
          "Condition" ++ conditionLabel position c.2) :=
      .map_zipIdx (fun c ↦ ofAsset?_condition position c.2) (by simp)
    rw [names_asset_norm, ← List.singleton_append]
    refine (hnorm.append hconditions (by simp)).mono ?_
    rintro place (rfl | hplace)
    · exact .inl rfl
    · obtain ⟨number, rfl⟩ := Set.mem_iUnion.mp hplace
      exact .inr ⟨number, rfl⟩
  · rw [names_clause_norm]
    exact .singleton (ofClause?_norm position) (.inl rfl)

theorem tells_violation (hkind : kind = .asset ∨ kind = .clause) (violation : Violation)
    (position : Nat) :
    Tells (ofName? kind) {Place.violation position}
      (names kind (draft.violation violation position)) := by
  have hclause (word : String) (hword : word.toList.getLast? = some '_') :
      Tells ofClause? {Place.violation position} [word ++ toString position] :=
    .singleton (ofClause?_violation hword position) rfl
  have hasset (stem : String) : Tells ofAsset? {Place.violation position}
      [stem ++ "Consequence" ++ toString position] :=
    .singleton (ofAsset?_consequence stem position) rfl
  rw [Draft.violation]
  split
  · exact .nil
  · split <;> rcases hkind with rfl | rfl
    · exact hasset (Identifier.assetStem violation.consequence)
    · exact hclause "viol_clause_" (by simp)
    · have hcompound : Identifier.assetStem violation.consequence ++ "CompoundConsequence" =
          Identifier.assetStem violation.consequence ++ "Compound" ++ "Consequence" := by
        rw [String.append_assoc]
        rfl
      rw [hcompound]
      exact hasset (Identifier.assetStem violation.consequence ++ "Compound")
    · exact hclause "compound_viol_clause_" (by simp)

theorem tells_norms (hkind : kind = .asset ∨ kind = .clause) :
    Tells (ofName? kind) (⋃ position, ofNorm position) (names kind draft.norms) := by
  rw [names_norms, Schema.numberedNorms]
  exact .flatMap_zipIdx (fun n ↦ draft.tells_norm hkind n.1 n.2) fun _ _ ↦ notMem_ofNorm

theorem tells_violations (hkind : kind = .asset ∨ kind = .clause) :
    Tells (ofName? kind) (⋃ position, {Place.violation position})
      (names kind draft.violations) := by
  rw [names_violations]
  refine .flatMap_zipIdx (fun v ↦ draft.tells_violation hkind v.1 v.2) ?_
  rintro i j hne _ rfl h
  exact hne (Place.violation.inj h)

/-- The number at the end of the name of a fact is its position. -/
theorem number?_fact (description : String) (position : Nat) :
    number? (Identifier.fact description position) = some position := by
  rw [Identifier.fact]
  rcases Identifier.letterFirst_cases _ "FACT_" with h | h <;> rw [h]
  · exact Identifier.number?_append_toString (Identifier.getLast?_underscore _) rfl position
  · rw [← String.append_assoc, ← String.append_assoc]
    exact Identifier.number?_append_toString (Identifier.getLast?_underscore _) rfl position

/-- The number at the end of the name of an agenda is its position. -/
theorem number?_agenda (role : String) (compliance : Compliance) (position : Nat) :
    number? (Identifier.capitalize role ++ compliance.label ++ toString position) =
      some position := by
  cases compliance with
  | fulfilled =>
    have hname : (Identifier.capitalize role ++ "Fulfillment").toList.getLast? = some 't' := by
      simp
    exact Identifier.number?_append_toString hname rfl position
  | breached =>
    have hname : (Identifier.capitalize role ++ "Breach").toList.getLast? = some 'h' := by
      simp
    exact Identifier.number?_append_toString hname rfl position

end Draft

/-! ### The extension -/

namespace Extension

variable {setting : Setting} {extension : Extension}

/-- The texts, the assets and the clauses of an extension are kept apart, and the names of its
assets and clauses tell places with the stems that it has used. -/
structure IsNamed (extension : Extension) : Prop where
  texts : ∀ kind, kind ≠ .text → names kind extension.texts = []
  assets : ∀ kind, kind ≠ .asset → names kind extension.assets = []
  clauses : ∀ kind, kind ≠ .clause → names kind extension.clauses = []
  tells_assets : Tells ofAsset? (ofStems extension.stems) (names .asset extension.assets)
  tells_clauses : Tells ofClause? (ofStems extension.stems) (names .clause extension.clauses)

theorem isNamed_empty : empty.IsNamed :=
  ⟨fun _ _ ↦ rfl, fun _ _ ↦ rfl, fun _ _ ↦ rfl, .nil, .nil⟩

theorem IsNamed.addHeader (h : extension.IsNamed) (title : String) :
    IsNamed { extension with assets := extension.assets ++ header title } := by
  have hnames (kind : DeclarationKind) : names kind (extension.assets ++ header title) =
      names kind extension.assets := by
    rw [names_append, (isSilent_header title).names_eq_nil, List.append_nil]
  refine ⟨h.texts, fun kind hkind ↦ ?_, h.clauses, ?_, h.tells_clauses⟩
  · exact (hnames kind).trans (h.assets kind hkind)
  · exact (hnames .asset).symm ▸ h.tells_assets

/-- Two names tell places of one stem, and the second one may be left out. -/
theorem tells_parties {ofName : String → Option Place} {stem name name' : String}
    (h : ofName name = some (corpus stem)) (h' : ofName name' = some (exchanged stem))
    (canonical : Bool) :
    Tells ofName (ofStems [stem]) (name :: if canonical then [] else [name']) := by
  have hname : Tells ofName {corpus stem} [name] := .singleton h rfl
  have hname' : Tells ofName {exchanged stem} [name'] := .singleton h' rfl
  cases canonical with
  | true => exact hname.mono (by simp [ofStems])
  | false => exact (hname.append hname' (by simp)).mono (by simp [ofStems, Set.subset_def])

theorem tells_partyAssets (norm : Applicable) (stem text giver receiver : String) :
    Tells ofAsset? (ofStems [stem])
      (names .asset (partyAssets setting norm stem text giver receiver)) := by
  have hnames : names .asset (partyAssets setting norm stem text giver receiver) =
      (stem ++ "Asset") ::
        if areCanonical setting giver receiver then [] else [stem ++ "Asset_Reciprocal"] := by
    rw [partyAssets]
    split <;> rfl
  rw [hnames]
  exact tells_parties (ofAsset?_corpus stem) (ofAsset?_exchanged stem) _

theorem tells_partyClauses (norm : Applicable) (stem giver receiver : String) :
    Tells ofClause? (ofStems [stem])
      (names .clause (partyClauses setting norm stem giver receiver)) := by
  have hnames : names .clause (partyClauses setting norm stem giver receiver) =
      (stem ++ "_obligation") ::
        if areCanonical setting giver receiver then [] else [stem ++ "_obligation_reciprocal"] := by
    rw [partyClauses]
    split <;> rfl
  rw [hnames]
  exact tells_parties (ofClause?_corpus stem) (ofClause?_exchanged stem) _

theorem names_partyAssets {kind : DeclarationKind} (hkind : kind ≠ .asset) (norm : Applicable)
    (stem text giver receiver : String) :
    names kind (partyAssets setting norm stem text giver receiver) = [] := by
  rw [partyAssets]
  split <;> simp [name?, hkind]

theorem names_partyClauses {kind : DeclarationKind} (hkind : kind ≠ .clause) (norm : Applicable)
    (stem giver receiver : String) :
    names kind (partyClauses setting norm stem giver receiver) = [] := by
  rw [partyClauses]
  split <;> simp [name?, hkind]

theorem IsNamed.addNorm (h : extension.IsNamed) (norm : Applicable) :
    (addNorm setting extension norm).IsNamed := by
  have htexts (text value : String) (kind : DeclarationKind) (hkind : kind ≠ .text) :
      names kind (extension.texts ++ [.text text value]) = [] := by
    simp [h.texts kind hkind, name?, hkind]
  rw [Extension.addNorm]
  split
  · refine ⟨htexts _ _, fun kind hkind ↦ ?_, h.clauses, ?_, h.tells_clauses⟩
    · simp [(isSilent_remarks norm).names_eq_nil, h.assets kind hkind, name?]
    · simpa [(isSilent_remarks norm).names_eq_nil, name?] using h.tells_assets
  · rename_i giver receiver _
    -- The stem is new, so no name before tells one of its places.
    have hregions := notMem_ofStems
      (extension.stem_notMem norm.entry.sourceKey norm.entry.normKey)
    refine ⟨htexts _ _, fun kind hkind ↦ ?_, fun kind hkind ↦ ?_, ?_, ?_⟩
    · simp [(isSilent_remarks norm).names_eq_nil, h.assets kind hkind, names_partyAssets hkind,
        name?]
    · simp [h.clauses kind hkind, names_partyClauses hkind]
    · rw [ofStems_concat]
      simpa [(isSilent_remarks norm).names_eq_nil, name?] using
        h.tells_assets.append (tells_partyAssets norm _ _ giver receiver) hregions
    · rw [ofStems_concat, names_append]
      exact h.tells_clauses.append (tells_partyClauses norm _ giver receiver) hregions

theorem isNamed_ofCorpus (setting : Setting) (corpus : Corpus) :
    (ofCorpus setting corpus).IsNamed :=
  ofCorpus_induction corpus isNamed_empty (fun _ title h ↦ h.addHeader title)
    fun _ norm h ↦ h.addNorm norm

theorem names_program (h : extension.IsNamed) {kind : DeclarationKind} (hkind : kind ≠ .text) :
    names kind extension.program = names kind extension.assets ++ names kind extension.clauses := by
  have htexts := h.texts kind hkind
  have hclauses : names kind (if extension.clauses.isEmpty then []
      else header "Obligation clauses from legal sources" ++ extension.clauses) =
        names kind extension.clauses := by
    split
    · rename_i hempty
      rw [List.isEmpty_iff.mp hempty]
    · rw [names_append, (isSilent_header _).names_eq_nil, List.nil_append]
  rw [program, names_append, names_append, hclauses]
  split <;> simp [htexts, name?, rule]

end Extension

/-! ### The whole program -/

/-- No name is declared by two assets, the first asset apart, which is that of the institution, nor
by two clauses, facts, agendas or subjects. -/
structure Program.NamesUnique (institution : String) (program : Program) : Prop where
  assets : ∃ others, names .asset program = institution :: others ∧ others.Nodup
  clauses : (names .clause program).Nodup
  facts : (names .fact program).Nodup
  agendas : (names .agenda program).Nodup
  subjects : (names .subject program).Nodup

namespace Draft

variable (draft : Draft) {kind : DeclarationKind} {more : Program} {stems : List String}

theorem names_program (hkind : kind ≠ .text) :
    names kind draft.program =
      names kind draft.subjects ++ names kind draft.baseAsset ++ names kind draft.norms ++
        names kind draft.violations ++ names kind draft.facts ++ names kind draft.agendas := by
  simp [Draft.program, draft.names_texts hkind]

/-- The places of norms, of violations and of the norms of a corpus are different places, so the
assets of a program and of what a corpus adds have different names, and so have the clauses. -/
theorem nodup_parts (hkind : kind = .asset ∨ kind = .clause)
    (hmore : Tells (ofName? kind) (ofStems stems) (names kind more)) :
    (names kind draft.norms ++ names kind draft.violations ++ names kind more).Nodup := by
  have hviolations : ∀ place ∈ ⋃ position, ofNorm position,
      place ∉ ⋃ position, {Place.violation position} := by
    intro place hplace
    obtain ⟨position, rfl | ⟨number, rfl⟩⟩ := Set.mem_iUnion.mp hplace <;> simp
  have hstems : ∀ place ∈ (⋃ position, ofNorm position) ∪ ⋃ position, {Place.violation position},
      place ∉ ofStems stems := by
    rintro place hplace ⟨stem, -, rfl | rfl⟩ <;> simp [ofNorm] at hplace
  have hdraft := (draft.tells_norms hkind).append (draft.tells_violations hkind) hviolations
  exact (hdraft.append hmore hstems).nodup

theorem nodup_facts : (names .fact draft.facts).Nodup := by
  have hplaces : Tells number? (⋃ i, {i}) ((draft.schema.facts.zipIdx 1).map fun f ↦
      Identifier.fact f.1.description f.2) :=
    .map_zipIdx (fun f ↦ number?_fact f.1.description f.2) fun _ _ h ↦ h
  simpa [names_facts] using hplaces.nodup

theorem nodup_agendas : (names .agenda draft.agendas).Nodup := by
  have hplaces : Tells number? (⋃ i, {i}) ((draft.schema.agendas.zipIdx 1).map fun a ↦
      Identifier.capitalize a.1.requestingRole ++ a.1.compliance.label ++ toString a.2) :=
    .map_zipIdx (fun a ↦ number?_agenda a.1.requestingRole a.1.compliance a.2) fun _ _ h ↦ h
  simpa [names_agendas] using hplaces.nodup

/-- The program of a schema keeps its names unique if what is added to it declares only texts, and
assets and clauses of a corpus. -/
theorem namesUnique_append (hroles : draft.roles = draft.schema.roles)
    (hassets : Tells ofAsset? (ofStems stems) (names .asset more))
    (hclauses : Tells ofClause? (ofStems stems) (names .clause more))
    (hothers : ∀ kind, kind ≠ .text → kind ≠ .asset → kind ≠ .clause → names kind more = []) :
    NamesUnique draft.institution.name (draft.program ++ more) where
  assets := by
    refine ⟨_, ?_, draft.nodup_parts (.inl rfl) hassets⟩
    simp [names_program, names_subjects, names_baseAsset, names_facts, names_agendas]
  clauses := by
    have h := draft.nodup_parts (.inr rfl) hclauses
    simpa [names_program, names_subjects, names_baseAsset, names_facts, names_agendas] using h
  facts := by
    simpa [names_program, names_subjects, names_baseAsset, names_norms_eq_nil,
      names_violations_eq_nil, names_agendas, hothers] using draft.nodup_facts
  agendas := by
    simpa [names_program, names_subjects, names_baseAsset, names_norms_eq_nil,
      names_violations_eq_nil, names_facts, hothers] using draft.nodup_agendas
  subjects := by
    simpa [names_program, names_subjects, names_baseAsset, names_norms_eq_nil,
      names_violations_eq_nil, names_facts, names_agendas, hothers, hroles] using
      draft.schema.nodup_subject_roles

end Draft

namespace Schema

variable {schema : Schema} {institution : Institution}

theorem namesUnique_base (classifier : Classifier) :
    NamesUnique institution.name (schema.draft institution classifier).program := by
  have hnone : Tells ofAsset? (ofStems []) (names .asset []) := .nil
  have hunique : NamesUnique institution.name
      ((schema.draft institution classifier).program ++ []) :=
    Draft.namesUnique_append (schema.draft institution classifier) rfl hnone .nil
      fun _ _ _ _ ↦ rfl
  rwa [List.append_nil] at hunique

open Extension in
theorem namesUnique_extension (classifier : Classifier) (corpus : Corpus) (base : Program) :
    NamesUnique institution.name ((schema.draft institution classifier).program ++
      schema.extension classifier corpus institution base) := by
  obtain ⟨setting, citations, -, hcitations, hextension⟩ :=
    exists_extension_eq schema institution classifier corpus base
  have hnamed := isNamed_ofCorpus setting corpus
  have hnames (kind : DeclarationKind) (hkind : kind ≠ .text) :
      names kind (schema.extension classifier corpus institution base) =
        names kind (ofCorpus setting corpus).assets ++
          names kind (ofCorpus setting corpus).clauses := by
    rw [hextension, names_append, hcitations.names_eq_nil, List.append_nil]
    exact names_program hnamed hkind
  have hassets : Tells ofAsset? (ofStems (ofCorpus setting corpus).stems)
      (names .asset (schema.extension classifier corpus institution base)) := by
    rw [hnames .asset (by decide), hnamed.clauses .asset (by decide), List.append_nil]
    exact hnamed.tells_assets
  refine Draft.namesUnique_append (schema.draft institution classifier) rfl hassets ?_
    fun kind htext hasset hclause ↦ ?_
  · rw [hnames .clause (by decide), hnamed.assets .clause (by decide), List.nil_append]
    exact hnamed.tells_clauses
  · rw [hnames kind htext, hnamed.assets kind hasset, hnamed.clauses kind hclause]
    rfl

/-- The names of the program that a schema with an institution gives are declared once, and so are
those of the program that any corpus extends. If no text breaks a line, these are the names that the
lines of the program show, each on a line of its own. -/
theorem namesUnique_program (hinstitution : schema.institution = some institution)
    (classifier : Classifier) :
    (∃ program, schema.program? classifier = some program ∧
      NamesUnique institution.name program ∧
      ((schema.draft institution classifier).IsUnbroken → program.ShowsDeclarations)) ∧
    ∀ corpus, ∃ program, schema.extendedProgram? classifier corpus = some program ∧
      NamesUnique institution.name program ∧
      ((∀ s ∈ program, s.IsUnbroken) → program.ShowsDeclarations) := by
  constructor
  · exact ⟨_, program?_eq_some hinstitution classifier, namesUnique_base classifier,
      fun hunbroken ↦ showsDeclarations hunbroken.program⟩
  · intro corpus
    exact ⟨_, extendedProgram?_eq_some hinstitution classifier corpus,
      namesUnique_extension classifier corpus _, showsDeclarations⟩

/-- A loan in which norms, consequences, facts and agendas begin with the same words, and which
refers to a norm that it does not have. -/
def loan : Schema where
  institution := some ⟨"Prestamo", "contrato", .multiple, "derecho-civil"⟩
  norms :=
    [⟨4, "prestamista", .obligation, "entregar la suma", none, [], .authored⟩,
      ⟨9, "Prestamista", .claimRight, "entregar recibo", none,
        [.text "firma", .norm 4, .norm 5, .text "plazo"], .authored⟩]
  violations :=
    [⟨.compound 9 4, "prestatario", .claimRight, "Entregar intereses"⟩,
      ⟨.compound 4 5, "prestatario", .claimRight, "avisar"⟩,
      ⟨.single 9, "prestatario", .claimRight, "Entregar intereses"⟩]
  facts := [⟨"entregar la suma", "acta"⟩, ⟨"entregar la suma", "recibo"⟩]
  agendas :=
    [⟨"prestatario", .breached, "juez", "prestatario", .essential⟩,
      ⟨"prestatario", .breached, "juez", "prestatario", .essential⟩]

/-- Two sources that have the key of a norm in common. -/
def loanSources : Corpus where
  sources :=
    let norms : OrderedMap Corpus.Norm :=
      ⟨[("art. 1", ⟨some "art. 1", some ⟨some "pagar", some "deudor", some "acreedor", none, none,
        ["prestamo"]⟩, [], none⟩)]⟩
    ⟨[("codigo", ⟨none, none, norms⟩), ("ley", ⟨none, none, norms⟩)]⟩
  roleMappings := .empty
  roles := .empty

theorem isUnbroken_draft_loan :
    (loan.draft ⟨"Prestamo", "contrato", .multiple, "derecho-civil"⟩ .byKeyword).IsUnbroken := by
  have hroles : loan.roles = ["prestamista", "prestatario"] := by decide +kernel
  exact ⟨by decide, by rw [Schema.draft, hroles]; decide, by decide⟩

theorem namesUnique_program_loan :
    (∃ program, loan.program? .byKeyword = some program ∧ program.ShowsDeclarations) ∧
    ∃ program, loan.extendedProgram? .byKeyword loanSources = some program ∧
      names .asset program = ["Prestamo", "EntregarAsset1", "EntregarAsset2", "Condition2",
        "Condition2_2", "EntregarCompoundConsequence1", "EntregarConsequence3", "art__1Asset",
        "art__1Asset_Reciprocal", "ley_art__1Asset", "ley_art__1Asset_Reciprocal"] ∧
      NamesUnique "Prestamo" program := by
  have hinstitution : loan.institution =
      some ⟨"Prestamo", "contrato", .multiple, "derecho-civil"⟩ := rfl
  obtain ⟨⟨base, hbase, -, hlines⟩, hextended⟩ := namesUnique_program hinstitution .byKeyword
  obtain ⟨program, hprogram, hunique, -⟩ := hextended loanSources
  refine ⟨⟨base, hbase, hlines isUnbroken_draft_loan⟩, program, hprogram, ?_, hunique⟩
  have hnames : (loan.extendedProgram? .byKeyword loanSources).map (names .asset) =
      some ["Prestamo", "EntregarAsset1", "EntregarAsset2", "Condition2", "Condition2_2",
        "EntregarCompoundConsequence1", "EntregarConsequence3", "art__1Asset",
        "art__1Asset_Reciprocal", "ley_art__1Asset", "ley_art__1Asset_Reciprocal"] := by rfl
  rw [hprogram] at hnames
  exact Option.some.inj hnames

end Schema

end Normative
