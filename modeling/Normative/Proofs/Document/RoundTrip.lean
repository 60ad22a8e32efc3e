import Normative.Configuration
import Normative.Corpus
import Normative.Proofs.Document.Encoding

/-!
# Configurations and corpora are read back

Every configuration and every corpus whose tables have distinct keys can be written as a document,
and any document that writes it is read as it. A document may write a record with its fields in any
order, leave out those that have their defaults, and hold values of any kind under other names; it
may have any space between its marks, and its strings any escapes.

## Main definitions

* `Configuration.encoding`, `Corpus.encoding` : the values that encode a configuration, and those
  that encode a corpus.
* `Configuration.IsWrittenAs`, `Corpus.IsWrittenAs` : the documents that write them.
* `Configuration.HasDistinctKeys`, `Corpus.HasDistinctKeys` : their tables have distinct keys.

## Main results

* `Document.ofText?_of_isWrittenAs` : documents are read as what they write.
-/

namespace Normative

open Document

/-! ### Configurations -/

namespace Configuration

/-- Members that write a template. -/
structure WritesTemplate (template : NormTemplate) (members : Fields) : Prop where
  role : Writes members "role" .text template.role
  deontic : Writes members "deontic" .text template.deontic
  action : Writes members "action" .text template.action
  reference : WritesUnless members "reference" (.optional .text) none template.reference
  scope : WritesUnless members "scope" (.optional .text) none template.scope

/-- The values that encode a template. -/
def templateEncoding : Encoding NormTemplate := .record templateFields WritesTemplate

/-- Members that write the norms to be generated. -/
structure WritesAutomatedNorms (norms : AutomatedNorms) (members : Fields) : Prop where
  domainDefaults : WritesUnless members "domain_defaults" (.table (.list templateEncoding)) .empty
    norms.domainDefaults
  universalTemplates : WritesUnless members "universal_templates" (.table (.list templateEncoding))
    .empty norms.universalTemplates
  conditionalOnId :
    WritesUnless members "conditional_on_id" (.table (.list templateEncoding)) .empty
    norms.conditionalOnId

/-- The values that encode the norms to be generated. -/
def automatedNormsEncoding : Encoding AutomatedNorms :=
  .record automatedNormsFields WritesAutomatedNorms

/-- Members that write a configuration. -/
structure WritesConfiguration (configuration : Configuration) (members : Fields) : Prop where
  institutions : WritesUnless members "instituciones" (.list .text) [] configuration.institutions
  types : WritesUnless members "tipos" (.list .text) [] configuration.types
  domains : WritesUnless members "dominios" (.list .text) [] configuration.domains
  roles : WritesUnless members "roles" (.table (.list .text)) .empty configuration.roles
  automatedNorms : WritesUnless members "automated_norms" automatedNormsEncoding .empty
    configuration.automatedNorms

/-- The values that encode a configuration. -/
def encoding : Encoding Configuration := .record configurationFields WritesConfiguration

/-- A document that writes a configuration. -/
def IsWrittenAs (configuration : Configuration) (text : String) : Prop :=
  ∃ v, encoding configuration v ∧ v.IsWrittenAs text

theorem undoes_template : Undoes template? templateEncoding := by
  rintro template v ⟨members, hrecord, h⟩
  have htext := undoes_optional undoes_text rfl
  simp only [template?, fields?_of_isRecord hrecord,
    required?_eq_some hrecord (by decide) undoes_text h.role,
    required?_eq_some hrecord (by decide) undoes_text h.deontic,
    required?_eq_some hrecord (by decide) undoes_text h.action,
    field?_eq_some hrecord (by decide) htext h.reference,
    field?_eq_some hrecord (by decide) htext h.scope,
    Option.bind_eq_bind, Option.bind_some, Option.pure_def]

theorem undoes_automatedNorms : Undoes automatedNorms? automatedNormsEncoding := by
  rintro norms v ⟨members, hrecord, h⟩
  have htemplates := undoes_table (undoes_list undoes_template)
  simp only [automatedNorms?, fields?_of_isRecord hrecord,
    field?_eq_some hrecord (by decide) htemplates h.domainDefaults,
    field?_eq_some hrecord (by decide) htemplates h.universalTemplates,
    field?_eq_some hrecord (by decide) htemplates h.conditionalOnId,
    Option.bind_eq_bind, Option.bind_some, Option.pure_def]

/-- The decoder of configurations undoes their encoding. -/
theorem undoes_encoding : Undoes ofValue? encoding := by
  rintro configuration v ⟨members, hrecord, h⟩
  have htexts := undoes_list undoes_text
  simp only [ofValue?, fields?_of_isRecord hrecord,
    field?_eq_some hrecord (by decide) htexts h.institutions,
    field?_eq_some hrecord (by decide) htexts h.types,
    field?_eq_some hrecord (by decide) htexts h.domains,
    field?_eq_some hrecord (by decide) (undoes_table htexts) h.roles,
    field?_eq_some hrecord (by decide) undoes_automatedNorms h.automatedNorms,
    Option.bind_eq_bind, Option.bind_some, Option.pure_def]

/-- A configuration whose tables have distinct keys. -/
structure HasDistinctKeys (configuration : Configuration) : Prop where
  roles : configuration.roles.keys.Nodup
  domainDefaults : configuration.automatedNorms.domainDefaults.keys.Nodup
  universalTemplates : configuration.automatedNorms.universalTemplates.keys.Nodup
  conditionalOnId : configuration.automatedNorms.conditionalOnId.keys.Nodup

theorem covers_template (template : NormTemplate) : templateEncoding.Covers template := by
  obtain ⟨role, hrole, wrole⟩ := covers_text template.role
  obtain ⟨deontic, hdeontic, wdeontic⟩ := covers_text template.deontic
  obtain ⟨action, haction, waction⟩ := covers_text template.action
  obtain ⟨reference, hreference, wreference⟩ := covers_optionalText template.reference
  obtain ⟨scope, hscope, wscope⟩ := covers_optionalText template.scope
  refine covers_record [("role", role), ("deontic", deontic), ("action", action),
    ("reference", reference), ("scope", scope)] rfl (by decide) ?_ ?_
  · simpa using ⟨wrole, wdeontic, waction, wreference, wscope⟩
  · exact ⟨⟨role, by simp, hrole⟩, ⟨deontic, by simp, hdeontic⟩, ⟨action, by simp, haction⟩,
      .inl ⟨reference, by simp, hreference⟩, .inl ⟨scope, by simp, hscope⟩⟩

theorem covers_automatedNorms {norms : AutomatedNorms}
    (hdomain : norms.domainDefaults.keys.Nodup) (huniversal : norms.universalTemplates.keys.Nodup)
    (hconditional : norms.conditionalOnId.keys.Nodup) : automatedNormsEncoding.Covers norms := by
  have htemplates {table : OrderedMap (List NormTemplate)} (h : table.keys.Nodup) :
      (Encoding.table (.list templateEncoding)).Covers table :=
    covers_table h fun list _ ↦ covers_list fun template _ ↦ covers_template template
  obtain ⟨domain, hdomain, wdomain⟩ := htemplates hdomain
  obtain ⟨universal, huniversal, wuniversal⟩ := htemplates huniversal
  obtain ⟨conditional, hconditional, wconditional⟩ := htemplates hconditional
  refine covers_record [("domain_defaults", domain), ("universal_templates", universal),
    ("conditional_on_id", conditional)] rfl (by decide) ?_ ?_
  · simpa using ⟨wdomain, wuniversal, wconditional⟩
  · exact ⟨.inl ⟨domain, by simp, hdomain⟩, .inl ⟨universal, by simp, huniversal⟩,
      .inl ⟨conditional, by simp, hconditional⟩⟩

/-- A configuration whose tables have distinct keys has an encoding. -/
theorem HasDistinctKeys.covers {configuration : Configuration} (h : configuration.HasDistinctKeys) :
    encoding.Covers configuration := by
  obtain ⟨institutions, hinstitutions, winstitutions⟩ := covers_texts configuration.institutions
  obtain ⟨types, htypes, wtypes⟩ := covers_texts configuration.types
  obtain ⟨domains, hdomains, wdomains⟩ := covers_texts configuration.domains
  obtain ⟨roles, hroles, wroles⟩ := covers_table h.roles fun list _ ↦ covers_texts list
  obtain ⟨norms, hnorms, wnorms⟩ :=
    covers_automatedNorms h.domainDefaults h.universalTemplates h.conditionalOnId
  refine covers_record [("instituciones", institutions), ("tipos", types), ("dominios", domains),
    ("roles", roles), ("automated_norms", norms)] rfl (by decide) ?_ ?_
  · simpa using ⟨winstitutions, wtypes, wdomains, wroles, wnorms⟩
  · exact ⟨.inl ⟨institutions, by simp, hinstitutions⟩, .inl ⟨types, by simp, htypes⟩,
      .inl ⟨domains, by simp, hdomains⟩, .inl ⟨roles, by simp, hroles⟩,
      .inl ⟨norms, by simp, hnorms⟩⟩

end Configuration

/-! ### Corpora -/

namespace Corpus

/-- The values that encode a role target: a string, or an array of strings. -/
def targetEncoding : Encoding RoleTarget
  | .single role, v => Encoding.text role v
  | .many roles, v => Encoding.list .text roles v

/-- Members that write a structure. -/
structure WritesStructure (s : Structure) (members : Fields) : Prop where
  action : WritesUnless members "accion" (.optional .text) none s.action
  passive : WritesUnless members "pasivo" (.optional .text) none s.passive
  active : WritesUnless members "activo" (.optional .text) none s.active
  object : WritesUnless members "objeto" (.optional .text) none s.object
  deontic : WritesUnless members "deontico" (.optional .text) none s.deontic
  conditions : WritesUnless members "condiciones" (.list .text) [] s.conditions

/-- The values that encode a structure. -/
def structureEncoding : Encoding Structure := .record structureFields WritesStructure

/-- Members that write a norm. -/
structure WritesNorm (norm : Norm) (members : Fields) : Prop where
  id : WritesUnless members "id" (.optional .text) none norm.id
  structure? : WritesUnless members "estructura" (.optional structureEncoding) none norm.structure?
  context : WritesUnless members "contexto" (.list .text) [] norm.context
  derivedFrom : WritesUnless members "derivadaDe" (.optional .text) none norm.derivedFrom

/-- The values that encode a norm. -/
def normEncoding : Encoding Norm := .record normFields WritesNorm

/-- Members that write a source. -/
structure WritesSource (source : Source) (members : Fields) : Prop where
  name : WritesUnless members "nombre" (.optional .text) none source.name
  kind : WritesUnless members "tipo" (.optional .text) none source.kind
  norms : WritesUnless members "normas" (.table normEncoding) .empty source.norms

/-- The values that encode a source. -/
def sourceEncoding : Encoding Source := .record sourceFields WritesSource

/-- Members that write a corpus. -/
structure WritesCorpus (corpus : Corpus) (members : Fields) : Prop where
  sources : WritesUnless members "sources" (.table sourceEncoding) .empty corpus.sources
  roleMappings : WritesUnless members "roleMappings" (.table (.table targetEncoding)) .empty
    corpus.roleMappings
  roles : WritesUnless members "roles" (.table (.list .text)) .empty corpus.roles

/-- The values that encode a corpus. -/
def encoding : Encoding Corpus := .record corpusFields WritesCorpus

/-- A document that writes a corpus. -/
def IsWrittenAs (corpus : Corpus) (text : String) : Prop :=
  ∃ v, encoding corpus v ∧ v.IsWrittenAs text

theorem undoes_target : Undoes target? targetEncoding := by
  rintro (role | roles) v h
  · obtain rfl : v = .string (some role) := h
    rfl
  · have hlist := undoes_list undoes_text roles v h
    obtain ⟨items, rfl, -⟩ := h
    simp [target?, hlist]

theorem undoes_structure : Undoes structure? structureEncoding := by
  rintro s v ⟨members, hrecord, h⟩
  have htext := undoes_optional undoes_text rfl
  simp only [structure?, fields?_of_isRecord hrecord,
    field?_eq_some hrecord (by decide) htext h.action,
    field?_eq_some hrecord (by decide) htext h.passive,
    field?_eq_some hrecord (by decide) htext h.active,
    field?_eq_some hrecord (by decide) htext h.object,
    field?_eq_some hrecord (by decide) htext h.deontic,
    field?_eq_some hrecord (by decide) (undoes_list undoes_text) h.conditions,
    Option.bind_eq_bind, Option.bind_some, Option.pure_def]

theorem undoes_norm : Undoes decodeNorm? normEncoding := by
  rintro norm v ⟨members, hrecord, h⟩
  have htext := undoes_optional undoes_text rfl
  simp only [decodeNorm?, fields?_of_isRecord hrecord,
    field?_eq_some hrecord (by decide) htext h.id,
    field?_eq_some hrecord (by decide) (undoes_optional undoes_structure rfl) h.structure?,
    field?_eq_some hrecord (by decide) (undoes_list undoes_text) h.context,
    field?_eq_some hrecord (by decide) htext h.derivedFrom,
    Option.bind_eq_bind, Option.bind_some, Option.pure_def]

theorem undoes_source : Undoes source? sourceEncoding := by
  rintro source v ⟨members, hrecord, h⟩
  have htext := undoes_optional undoes_text rfl
  simp only [source?, fields?_of_isRecord hrecord,
    field?_eq_some hrecord (by decide) htext h.name,
    field?_eq_some hrecord (by decide) htext h.kind,
    field?_eq_some hrecord (by decide) (undoes_table undoes_norm) h.norms,
    Option.bind_eq_bind, Option.bind_some, Option.pure_def]

/-- The decoder of corpora undoes their encoding. -/
theorem undoes_encoding : Undoes ofValue? encoding := by
  rintro corpus v ⟨members, hrecord, h⟩
  simp only [ofValue?, fields?_of_isRecord hrecord,
    field?_eq_some hrecord (by decide) (undoes_table undoes_source) h.sources,
    field?_eq_some hrecord (by decide) (undoes_table (undoes_table undoes_target)) h.roleMappings,
    field?_eq_some hrecord (by decide) (undoes_table (undoes_list undoes_text)) h.roles,
    Option.bind_eq_bind, Option.bind_some, Option.pure_def]

/-- A corpus whose tables have distinct keys, also those within its sources and mappings. -/
structure HasDistinctKeys (corpus : Corpus) : Prop where
  sources : corpus.sources.keys.Nodup
  norms : ∀ source ∈ corpus.sources.values, source.norms.keys.Nodup
  roleMappings : corpus.roleMappings.keys.Nodup
  targets : ∀ table ∈ corpus.roleMappings.values, table.keys.Nodup
  roles : corpus.roles.keys.Nodup

theorem covers_target (target : RoleTarget) : targetEncoding.Covers target := by
  cases target with
  | single role => exact covers_text role
  | many roles => exact covers_texts roles

theorem covers_structure (s : Structure) : structureEncoding.Covers s := by
  obtain ⟨action, haction, waction⟩ := covers_optionalText s.action
  obtain ⟨passive, hpassive, wpassive⟩ := covers_optionalText s.passive
  obtain ⟨active, hactive, wactive⟩ := covers_optionalText s.active
  obtain ⟨object, hobject, wobject⟩ := covers_optionalText s.object
  obtain ⟨deontic, hdeontic, wdeontic⟩ := covers_optionalText s.deontic
  obtain ⟨conditions, hconditions, wconditions⟩ := covers_texts s.conditions
  refine covers_record [("accion", action), ("pasivo", passive), ("activo", active),
    ("objeto", object), ("deontico", deontic), ("condiciones", conditions)] rfl (by decide) ?_ ?_
  · simpa using ⟨waction, wpassive, wactive, wobject, wdeontic, wconditions⟩
  · exact ⟨.inl ⟨action, by simp, haction⟩, .inl ⟨passive, by simp, hpassive⟩,
      .inl ⟨active, by simp, hactive⟩, .inl ⟨object, by simp, hobject⟩,
      .inl ⟨deontic, by simp, hdeontic⟩, .inl ⟨conditions, by simp, hconditions⟩⟩

theorem covers_norm (norm : Norm) : normEncoding.Covers norm := by
  obtain ⟨id, hid, wid⟩ := covers_optionalText norm.id
  obtain ⟨details, hdetails, wdetails⟩ :=
    covers_optional fun s (_ : s ∈ norm.structure?) ↦ covers_structure s
  obtain ⟨context, hcontext, wcontext⟩ := covers_texts norm.context
  obtain ⟨parent, hparent, wparent⟩ := covers_optionalText norm.derivedFrom
  refine covers_record [("id", id), ("estructura", details), ("contexto", context),
    ("derivadaDe", parent)] rfl (by decide) ?_ ?_
  · simpa using ⟨wid, wdetails, wcontext, wparent⟩
  · exact ⟨.inl ⟨id, by simp, hid⟩, .inl ⟨details, by simp, hdetails⟩,
      .inl ⟨context, by simp, hcontext⟩, .inl ⟨parent, by simp, hparent⟩⟩

theorem covers_source {source : Source} (h : source.norms.keys.Nodup) :
    sourceEncoding.Covers source := by
  obtain ⟨name, hname, wname⟩ := covers_optionalText source.name
  obtain ⟨kind, hkind, wkind⟩ := covers_optionalText source.kind
  obtain ⟨norms, hnorms, wnorms⟩ := covers_table h fun norm _ ↦ covers_norm norm
  refine covers_record [("nombre", name), ("tipo", kind), ("normas", norms)] rfl (by decide) ?_ ?_
  · simpa using ⟨wname, wkind, wnorms⟩
  · exact ⟨.inl ⟨name, by simp, hname⟩, .inl ⟨kind, by simp, hkind⟩, .inl ⟨norms, by simp, hnorms⟩⟩

/-- A corpus whose tables have distinct keys has an encoding. -/
theorem HasDistinctKeys.covers {corpus : Corpus} (h : corpus.HasDistinctKeys) :
    encoding.Covers corpus := by
  obtain ⟨sources, hsources, wsources⟩ :=
    covers_table h.sources fun source hmem ↦ covers_source (h.norms source hmem)
  obtain ⟨mappings, hmappings, wmappings⟩ := covers_table h.roleMappings fun table hmem ↦
    covers_table (h.targets table hmem) fun target _ ↦ covers_target target
  obtain ⟨roles, hroles, wroles⟩ := covers_table h.roles fun list _ ↦ covers_texts list
  refine covers_record [("sources", sources), ("roleMappings", mappings), ("roles", roles)] rfl
    (by decide) ?_ ?_
  · simpa using ⟨wsources, wmappings, wroles⟩
  · exact ⟨.inl ⟨sources, by simp, hsources⟩, .inl ⟨mappings, by simp, hmappings⟩,
      .inl ⟨roles, by simp, hroles⟩⟩

end Corpus

/-! ### Documents -/

namespace Document

/-- A decoder that undoes an encoding reads the data from every text that writes them. -/
theorem decode?_of_isWrittenAs {α : Type} {value? : Value → Option α} {encodes : Encoding α}
    (h : Undoes value? encodes) {a : α} {v : Value} {text : String} (hv : encodes a v)
    (htext : v.IsWrittenAs text) : decode? value? text = some a := by
  rw [decode?, read?_of_isWrittenAs htext, Option.bind_some, h a v hv]

/-- Documents are read as what they write: every document that writes a configuration is read as
the configuration, and every document that writes a corpus is read as the corpus. There are such
documents for every configuration and every corpus whose tables have distinct keys. -/
theorem ofText?_of_isWrittenAs :
    (∀ (configuration : Configuration) (text : String), configuration.IsWrittenAs text →
      Configuration.ofText? text = some configuration) ∧
    (∀ (corpus : Corpus) (text : String), corpus.IsWrittenAs text →
      Corpus.ofText? text = some corpus) ∧
    (∀ configuration : Configuration, configuration.HasDistinctKeys →
      ∃ text, configuration.IsWrittenAs text) ∧
    ∀ corpus : Corpus, corpus.HasDistinctKeys → ∃ text, corpus.IsWrittenAs text := by
  refine ⟨fun configuration text ⟨v, hv, htext⟩ ↦ ?_, fun corpus text ⟨v, hv, htext⟩ ↦ ?_,
    fun configuration h ↦ ?_, fun corpus h ↦ ?_⟩
  · exact decode?_of_isWrittenAs Configuration.undoes_encoding hv htext
  · exact decode?_of_isWrittenAs Corpus.undoes_encoding hv htext
  · obtain ⟨v, hv, hwritable⟩ := h.covers
    obtain ⟨text, htext⟩ := hwritable.exists_isWrittenAs
    exact ⟨text, v, hv, htext⟩
  · obtain ⟨v, hv, hwritable⟩ := h.covers
    obtain ⟨text, htext⟩ := hwritable.exists_isWrittenAs
    exact ⟨text, v, hv, htext⟩

/-- A document with one field, whose entry has escapes, after a member that is not a field and holds
a number and a string that spells no text. -/
def sparseText : String :=
  "\x7b\"nota\":[-0.5E+3,\"\\uD800\"],\n \"tipos\" :[\"\\u0063\\n\"]\x7d"

/-- The configuration that this document writes. -/
def sparseConfiguration : Configuration := ⟨[], ["c\n"], [], .empty, .empty⟩

/-- The first half of a surrogate pair alone. -/
theorem isSpelled_loneHalf : Mark.IsSpelled "\"\\uD800\"".toList (.string none) := by
  have hpiece : Piece "\\uD800".toList (13 * 0x1000 + 8 * 0x100 + 0 * 0x10 + 0) :=
    .hex ⟨by decide, .inr rfl⟩ ⟨by decide, .inl rfl⟩ ⟨by decide, .inl rfl⟩ ⟨by decide, .inl rfl⟩
  refine ⟨"\\uD800".toList, rfl, [0xD800], .cons hpiece .nil, fun text h ↦ ?_⟩
  generalize hcodes : [0xD800] = codes at h
  cases h with
  | nil => exact absurd hcodes (by simp)
  | point c =>
    have hvalid := toNat_valid c
    have hc : 0xD800 = c.toNat := (List.cons.inj hcodes).1
    omega
  | pair c => exact absurd hcodes (by simp)

/-- A name in quotation marks. -/
theorem isSpelled_name (name : String)
    (h : name.toList.all (fun c ↦ 0x20 ≤ c.toNat && c != '"' && c != '\\') = true) :
    Mark.IsSpelled ("\"" ++ name ++ "\"").toList (.string (some name)) :=
  ⟨name.toList, by simp, isBody_self name h⟩

/-- The number of this document. -/
def sparseNumeral : Numeral := ⟨true, ['0'], some ['5'], some ['+', '3']⟩

/-- The members of this document. -/
def sparseMembers : Fields :=
  [("nota", .array [.number sparseNumeral, .string none]), ("tipos", .array [.string (some "c\n")])]

theorem isWrittenAs_sparseText : sparseConfiguration.IsWrittenAs sparseText := by
  have hnumber : Mark.IsSpelled "-0.5E+3".toList (.number sparseNumeral) :=
    ⟨['-'], ['.', '5'], ['E', '+', '3'], rfl, by simp [sparseNumeral, IsDigits], fun _ ↦ rfl,
      ⟨rfl, by simp [IsDigits]⟩,
      ⟨'E', by simp, ['+'], by simp, ['3'], by simp [IsDigits], rfl, rfl⟩, rfl⟩
  have hentry : Mark.IsSpelled "\"\\u0063\\n\"".toList (.string (some "c\n")) := by
    have hpiece : Piece "\\u0063".toList (0 * 0x1000 + 0 * 0x100 + 6 * 0x10 + 3) :=
      .hex ⟨by decide, .inl rfl⟩ ⟨by decide, .inl rfl⟩ ⟨by decide, .inl rfl⟩ ⟨by decide, .inl rfl⟩
    have hpiece' : Piece "\\n".toList '\n'.toNat := .short (by decide)
    exact ⟨"\\u0063\\n".toList, rfl, ['c'.toNat, '\n'.toNat], .cons hpiece (.cons hpiece' .nil),
      .point 'c' (.point '\n' .nil)⟩
  have hempty : IsSpacing "".toList := by simp [IsSpacing]
  have hspread : List.Forall₂
      (fun (mark : Mark) (piece : String × String) ↦
        IsSpacing piece.1.toList ∧ mark.IsSpelled piece.2.toList)
      [.openObject, .string (some "nota"), .colon, .openArray, .number sparseNumeral, .comma,
        .string none, .closeArray, .comma, .string (some "tipos"), .colon, .openArray,
        .string (some "c\n"), .closeArray, .closeObject]
      [("", "\x7b"), ("", "\"nota\""), ("", ":"), ("", "["), ("", "-0.5E+3"), ("", ","),
        ("", "\"\\uD800\""), ("", "]"), ("", ","), ("\n ", "\"tipos\""), (" ", ":"), ("", "["),
        ("", "\"\\u0063\\n\""), ("", "]"), ("", "\x7d")] :=
    .cons ⟨hempty, rfl⟩ (.cons ⟨hempty, isSpelled_name "nota" (by decide)⟩
      (.cons ⟨hempty, rfl⟩ (.cons ⟨hempty, rfl⟩ (.cons ⟨hempty, hnumber⟩ (.cons ⟨hempty, rfl⟩
      (.cons ⟨hempty, isSpelled_loneHalf⟩ (.cons ⟨hempty, rfl⟩ (.cons ⟨hempty, rfl⟩
      (.cons ⟨by simp [IsSpacing], isSpelled_name "tipos" (by decide)⟩
      (.cons ⟨by simp [IsSpacing], rfl⟩ (.cons ⟨hempty, rfl⟩ (.cons ⟨hempty, hentry⟩
      (.cons ⟨hempty, rfl⟩ (.cons ⟨hempty, rfl⟩ .nil))))))))))))))
  refine ⟨.object (sparseMembers.map fun m ↦ (some m.1, m.2)),
    ⟨sparseMembers, ⟨rfl, by decide⟩, ?_⟩, ?_⟩
  · exact ⟨.inr ⟨rfl, by simp [sparseMembers]⟩,
      .inl ⟨_, by simp [sparseMembers], _, rfl, .cons rfl .nil⟩,
      .inr ⟨rfl, by simp [sparseMembers]⟩, .inr ⟨rfl, by simp [sparseMembers]⟩,
      .inr ⟨rfl, by simp [sparseMembers]⟩⟩
  · exact spread_of_forall₂ hspread

/-- A document that maps one role to a character beyond four hexadecimal digits, and another to no
role at all. -/
def mappingText : String :=
  "\x7b\"roleMappings\":\x7b\"x\":\x7b\"a\":\"\\ud83d\\uDE00\",\"b\":[]\x7d\x7d\x7d"

/-- The corpus that this document writes. -/
def mappingCorpus : Corpus :=
  ⟨.empty, ⟨[("x", ⟨[("a", .single "😀"), ("b", .many [])]⟩)]⟩, .empty⟩

/-- The members of this document. -/
def mappingMembers : Fields :=
  [("roleMappings",
    .object [(some "x", .object [(some "a", .string (some "😀")), (some "b", .array [])])])]

theorem isWrittenAs_mappingText : mappingCorpus.IsWrittenAs mappingText := by
  have hpair : Mark.IsSpelled "\"\\ud83d\\uDE00\"".toList (.string (some "😀")) := by
    have hhigh : Piece "\\ud83d".toList (13 * 0x1000 + 8 * 0x100 + 3 * 0x10 + 13) :=
      .hex ⟨by decide, .inl rfl⟩ ⟨by decide, .inl rfl⟩ ⟨by decide, .inl rfl⟩ ⟨by decide, .inl rfl⟩
    have hlow : Piece "\\uDE00".toList (13 * 0x1000 + 14 * 0x100 + 0 * 0x10 + 0) :=
      .hex ⟨by decide, .inr rfl⟩ ⟨by decide, .inr rfl⟩ ⟨by decide, .inl rfl⟩ ⟨by decide, .inl rfl⟩
    exact ⟨"\\ud83d\\uDE00".toList, rfl, [highHalf '😀'.toNat, lowHalf '😀'.toNat],
      .cons hhigh (.cons hlow .nil), .pair '😀' (by decide) .nil⟩
  have hempty : IsSpacing "".toList := by simp [IsSpacing]
  have hspread : List.Forall₂
      (fun (mark : Mark) (piece : String × String) ↦
        IsSpacing piece.1.toList ∧ mark.IsSpelled piece.2.toList)
      [.openObject, .string (some "roleMappings"), .colon, .openObject, .string (some "x"), .colon,
        .openObject, .string (some "a"), .colon, .string (some "😀"), .comma, .string (some "b"),
        .colon, .openArray, .closeArray, .closeObject, .closeObject, .closeObject]
      [("", "\x7b"), ("", "\"roleMappings\""), ("", ":"), ("", "\x7b"), ("", "\"x\""), ("", ":"),
        ("", "\x7b"), ("", "\"a\""), ("", ":"), ("", "\"\\ud83d\\uDE00\""), ("", ","),
        ("", "\"b\""), ("", ":"), ("", "["), ("", "]"), ("", "\x7d"), ("", "\x7d"), ("", "\x7d")] :=
    .cons ⟨hempty, rfl⟩ (.cons ⟨hempty, isSpelled_name "roleMappings" (by decide)⟩
      (.cons ⟨hempty, rfl⟩ (.cons ⟨hempty, rfl⟩ (.cons ⟨hempty, isSpelled_name "x" (by decide)⟩
      (.cons ⟨hempty, rfl⟩ (.cons ⟨hempty, rfl⟩ (.cons ⟨hempty, isSpelled_name "a" (by decide)⟩
      (.cons ⟨hempty, rfl⟩ (.cons ⟨hempty, hpair⟩ (.cons ⟨hempty, rfl⟩
      (.cons ⟨hempty, isSpelled_name "b" (by decide)⟩ (.cons ⟨hempty, rfl⟩ (.cons ⟨hempty, rfl⟩
      (.cons ⟨hempty, rfl⟩ (.cons ⟨hempty, rfl⟩ (.cons ⟨hempty, rfl⟩
      (.cons ⟨hempty, rfl⟩ .nil)))))))))))))))))
  refine ⟨.object (mappingMembers.map fun m ↦ (some m.1, m.2)),
    ⟨mappingMembers, ⟨rfl, by decide⟩, ?_⟩, ?_⟩
  · have htargets : Encoding.table Corpus.targetEncoding ⟨[("a", .single "😀"), ("b", .many [])]⟩
        (.object [(some "a", .string (some "😀")), (some "b", .array [])]) :=
      ⟨by decide, _, rfl, .cons ⟨rfl, rfl⟩ (.cons ⟨rfl, _, rfl, .nil⟩ .nil)⟩
    exact ⟨.inr ⟨rfl, by simp [mappingMembers]⟩,
      .inl ⟨_, List.mem_cons_self, by decide, _, rfl, .cons ⟨rfl, htargets⟩ .nil⟩,
      .inr ⟨rfl, by simp [mappingMembers]⟩⟩
  · exact spread_of_forall₂ hspread

theorem ofText?_of_isWrittenAs_escapes :
    (sparseConfiguration.IsWrittenAs sparseText ∧
      Configuration.ofText? sparseText = some sparseConfiguration) ∧
    (mappingCorpus.IsWrittenAs mappingText ∧ Corpus.ofText? mappingText = some mappingCorpus) ∧
    (sparseConfiguration.HasDistinctKeys ∧ ∃ text, sparseConfiguration.IsWrittenAs text) ∧
    (mappingCorpus.HasDistinctKeys ∧ ∃ text, mappingCorpus.IsWrittenAs text) := by
  obtain ⟨hconfiguration, hcorpus, hexists, hexists'⟩ := ofText?_of_isWrittenAs
  have hkeys : sparseConfiguration.HasDistinctKeys :=
    ⟨by decide, by decide, by decide, by decide⟩
  have hkeys' : mappingCorpus.HasDistinctKeys :=
    ⟨by decide, by decide, by decide, by decide, by decide⟩
  exact ⟨⟨isWrittenAs_sparseText, hconfiguration _ _ isWrittenAs_sparseText⟩,
    ⟨isWrittenAs_mappingText, hcorpus _ _ isWrittenAs_mappingText⟩, ⟨hkeys, hexists _ hkeys⟩,
    ⟨hkeys', hexists' _ hkeys'⟩⟩

end Document

end Normative
