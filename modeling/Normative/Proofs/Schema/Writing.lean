import Normative.Proofs.Token.Spelling
import Normative.Schema

/-!
# Writing a schema

A schema is written as a text in the order of its parts: the institution, then the norms, the
violations, the facts and the agendas. Free texts stand between quotation marks, roles have an
article, and conditions and remedies are joined by the conjunction. The separators between the words
are left to a layout.

Free texts may be anything that fits between quotation marks on one line: keywords, noise words and
separators in them have no meaning. Roles and legal domains are words and have no separators.

## Main definitions

* `Schema.tokens`, `Schema.write` : the tokens of a schema, and its text in a layout.
* `Schema.IsWritable` : the schemas that have a text.

## Main results

* `Schema.tokens_write` : the tokens of the text of a schema are those of the schema.
-/

namespace Normative

/-! ### The tokens of a schema -/

/-- The token of a role, which has an article. -/
def roleToken (role : String) : Token := .role ("el-" ++ role)

/-- Lists of tokens joined by the conjunction. -/
def joinTokens (list : List (List Token)) : List Token := [Token.conjunction].intercalate list

theorem joinTokens_cons (first : List Token) (others : List (List Token)) :
    joinTokens (first :: others) = first ++ others.flatMap (.conjunction :: ·) := by
  induction others generalizing first with
  | nil => simp [joinTokens]
  | cons second others ih =>
    have hrest : joinTokens (second :: others) = _ := ih second
    rw [joinTokens, List.intercalate_cons_cons, ← joinTokens, hrest]
    simp

/-- The tokens of a condition. -/
def Condition.tokens : Condition → List Token
  | text description => [.quoted description]
  | norm id => [.normReference, .number id]

/-- The tokens of a norm. -/
def Norm.tokens (norm : Norm) : List Token :=
  .number norm.id :: roleToken norm.role :: .deontic norm.deontic :: .quoted norm.action ::
    (norm.scope.elim [] (fun scope ↦ [.scope, .quoted scope]) ++
      if norm.conditions = [] then []
      else .conditional :: joinTokens (norm.conditions.map Condition.tokens))

/-- The tokens of a violation. -/
def Violation.tokens (violation : Violation) : List Token :=
  .violation :: (joinTokens (violation.norms.ids.map fun id ↦ [.number id]) ++
    [.consequence, roleToken violation.role, .deontic violation.deontic,
      .quoted violation.consequence])

/-- The tokens of a fact. -/
def LegalFact.tokens (fact : LegalFact) : List Token :=
  [.fact, .quoted fact.description, .evidence, .quoted fact.evidence]

/-- The tokens of what an agenda asks for. -/
def Relief.tokens : Relief → List Token
  | essential => [.essential]
  | remedies list => .following :: joinTokens (list.map fun remedy ↦ [.quoted remedy])

/-- The tokens of an agenda. -/
def Agenda.tokens (agenda : Agenda) : List Token :=
  roleToken agenda.requestingRole :: .seek :: .establish :: .compliance agenda.compliance ::
    .quoted agenda.institution :: .adjudicate :: roleToken agenda.beneficiaryRole ::
      agenda.relief.tokens

/-- The keyword of a multiplicity. -/
def Multiplicity.keyword : Multiplicity → String
  | multiple => "múltiples"
  | single => "single"

/-- The tokens of an institution. -/
def Institution.tokens (institution : Institution) : List Token :=
  .institution :: .quoted institution.name :: .institutionType institution.typeName ::
    .multiplicity institution.multiplicity.keyword ::
      if institution.legalDomain = "" then [] else [.legalDomain institution.legalDomain]

/-- An item of a schema as the schema keeps it. -/
abbrev Part := Norm ⊕ Violation ⊕ LegalFact ⊕ Agenda

/-- The tokens of an item. -/
def Part.tokens : Part → List Token
  | .inl norm => norm.tokens
  | .inr (.inl violation) => violation.tokens
  | .inr (.inr (.inl fact)) => fact.tokens
  | .inr (.inr (.inr agenda)) => agenda.tokens

namespace Schema

/-- The items of a schema: its norms, violations, facts and agendas. -/
def parts (schema : Schema) : List Part :=
  schema.norms.map .inl ++ schema.violations.map (.inr <| .inl ·) ++
    schema.facts.map (.inr <| .inr <| .inl ·) ++ schema.agendas.map (.inr <| .inr <| .inr ·)

/-- The schema with an institution and items, each kind in the order in which it is listed. -/
def ofParts (institution : Institution) (parts : List Part) : Schema where
  institution := some institution
  norms := parts.filterMap Sum.getLeft?
  violations := parts.filterMap fun part ↦ part.getRight?.bind Sum.getLeft?
  facts := parts.filterMap fun part ↦ (part.getRight?.bind Sum.getRight?).bind Sum.getLeft?
  agendas := parts.filterMap fun part ↦ (part.getRight?.bind Sum.getRight?).bind Sum.getRight?

/-- The tokens of a schema. -/
def tokens (schema : Schema) : List Token :=
  schema.institution.elim [] Institution.tokens ++ schema.parts.flatMap Part.tokens

/-- The text of a schema in a layout. -/
def write (layout : Layout) (schema : Schema) : String :=
  layout.write (schema.tokens.map Token.piece)

end Schema

/-! ### Schemas that can be written -/

/-- A condition that can be written. -/
def Condition.IsWritable : Condition → Prop
  | text description => IsQuotable description
  | norm _ => True

instance : DecidablePred Condition.IsWritable
  | .text description => inferInstanceAs (Decidable (IsQuotable description))
  | .norm _ => inferInstanceAs (Decidable True)

/-- An authored norm whose texts can be written. -/
def Norm.IsWritable (norm : Norm) : Prop :=
  norm.origin = .authored ∧ IsUnbroken norm.role ∧ IsQuotable norm.action ∧
    (∀ scope ∈ norm.scope, IsQuotable scope) ∧
    ∀ condition ∈ norm.conditions, condition.IsWritable

instance : DecidablePred Norm.IsWritable := fun norm ↦ inferInstanceAs (Decidable
  (norm.origin = .authored ∧ IsUnbroken norm.role ∧ IsQuotable norm.action ∧
    (∀ scope ∈ norm.scope, IsQuotable scope) ∧
    ∀ condition ∈ norm.conditions, condition.IsWritable))

/-- A violation whose texts can be written. -/
def Violation.IsWritable (violation : Violation) : Prop :=
  IsUnbroken violation.role ∧ IsQuotable violation.consequence

instance : DecidablePred Violation.IsWritable := fun violation ↦
  inferInstanceAs (Decidable (IsUnbroken violation.role ∧ IsQuotable violation.consequence))

/-- A fact whose texts can be written. -/
def LegalFact.IsWritable (fact : LegalFact) : Prop :=
  IsQuotable fact.description ∧ IsQuotable fact.evidence

instance : DecidablePred LegalFact.IsWritable := fun fact ↦
  inferInstanceAs (Decidable (IsQuotable fact.description ∧ IsQuotable fact.evidence))

/-- A relief that can be written: a list of remedies is not empty. -/
def Relief.IsWritable : Relief → Prop
  | essential => True
  | remedies list => list ≠ [] ∧ ∀ remedy ∈ list, IsQuotable remedy

instance : DecidablePred Relief.IsWritable
  | .essential => inferInstanceAs (Decidable True)
  | .remedies list =>
    inferInstanceAs (Decidable (list ≠ [] ∧ ∀ remedy ∈ list, IsQuotable remedy))

/-- An agenda whose texts can be written. -/
def Agenda.IsWritable (agenda : Agenda) : Prop :=
  IsUnbroken agenda.requestingRole ∧ IsQuotable agenda.institution ∧
    IsUnbroken agenda.beneficiaryRole ∧ agenda.relief.IsWritable

instance : DecidablePred Agenda.IsWritable := fun agenda ↦ inferInstanceAs (Decidable
  (IsUnbroken agenda.requestingRole ∧ IsQuotable agenda.institution ∧
    IsUnbroken agenda.beneficiaryRole ∧ agenda.relief.IsWritable))

/-- An institution that can be written. The words for a fact are left out of the types, since they
mark a fact, and a legal domain is told from its beginning. -/
def Institution.IsWritable (institution : Institution) : Prop :=
  IsQuotable institution.name ∧
    institution.typeName ∈ ["contrato", "procedimiento", "acto-juridico", "acto"] ∧
    (institution.legalDomain = "" ∨
      "derecho-".toList <+: institution.legalDomain.toList ∧ IsUnbroken institution.legalDomain)

instance : DecidablePred Institution.IsWritable := fun institution ↦ inferInstanceAs (Decidable
  (IsQuotable institution.name ∧
    institution.typeName ∈ ["contrato", "procedimiento", "acto-juridico", "acto"] ∧
    (institution.legalDomain = "" ∨
      "derecho-".toList <+: institution.legalDomain.toList ∧ IsUnbroken institution.legalDomain)))

/-- An item that can be written. -/
def Part.IsWritable : Part → Prop
  | .inl norm => norm.IsWritable
  | .inr (.inl violation) => violation.IsWritable
  | .inr (.inr (.inl fact)) => fact.IsWritable
  | .inr (.inr (.inr agenda)) => agenda.IsWritable

/-- A schema that can be written: it has an institution, all its parts can be written and the
identifiers of its norms increase. -/
structure Schema.IsWritable (schema : Schema) : Prop where
  institution : ∃ institution ∈ schema.institution, institution.IsWritable
  norms : ∀ norm ∈ schema.norms, norm.IsWritable
  increasing : (schema.norms.map Norm.id).Pairwise (· < ·)
  violations : ∀ violation ∈ schema.violations, violation.IsWritable
  facts : ∀ fact ∈ schema.facts, fact.IsWritable
  agendas : ∀ agenda ∈ schema.agendas, agenda.IsWritable

theorem Schema.IsWritable.parts {schema : Schema} (h : schema.IsWritable) :
    ∀ part ∈ schema.parts, part.IsWritable := by
  intro part hpart
  simp only [Schema.parts, List.mem_append, List.mem_map] at hpart
  rcases hpart with ((⟨n, hn, rfl⟩ | ⟨v, hv, rfl⟩) | ⟨f, hf, rfl⟩) | ⟨a, ha, rfl⟩
  · exact h.norms n hn
  · exact h.violations v hv
  · exact h.facts f hf
  · exact h.agendas a ha

theorem Schema.ofParts_parts {schema : Schema} {institution : Institution}
    (h : schema.institution = some institution) : ofParts institution schema.parts = schema := by
  obtain ⟨_, norms, violations, facts, agendas⟩ := schema
  obtain rfl : _ = some institution := h
  have hnone {α β : Type} (list : List α) : list.filterMap (fun _ ↦ (none : Option β)) = [] :=
    List.filterMap_eq_nil_iff.mpr fun _ _ ↦ rfl
  simp [ofParts, parts, List.filterMap_map, Function.comp_def, hnone]

/-! ### The tokens of a schema are spelt -/

theorem isSpelt_joinTokens {list : List (List Token)}
    (h : ∀ ts ∈ list, ∀ t ∈ ts, t.IsSpelt) : ∀ t ∈ joinTokens list, t.IsSpelt := by
  cases list with
  | nil => simp [joinTokens]
  | cons first others =>
    have hconjunction : Token.conjunction.IsSpelt := Token.isSpelt_marker _ (by decide)
    intro t ht
    rw [joinTokens_cons, List.mem_append, List.mem_flatMap] at ht
    rcases ht with ht | ⟨ts, hts, ht⟩
    · exact h first List.mem_cons_self t ht
    · rcases List.mem_cons.mp ht with rfl | ht
      · exact hconjunction
      · exact h ts (List.mem_cons_of_mem first hts) t ht

theorem Condition.IsWritable.isSpelt {c : Condition} (h : c.IsWritable) :
    ∀ t ∈ c.tokens, t.IsSpelt := by
  cases c with
  | text description => simpa [Condition.tokens] using Token.isSpelt_quoted h
  | norm id =>
    have hreference : Token.normReference.IsSpelt := Token.isSpelt_marker _ (by decide)
    simp [Condition.tokens, hreference, Token.isSpelt_number]

theorem Token.isSpelt_deontic (position : Deontic) : (deontic position).IsSpelt := by
  cases position <;> exact isSpelt_marker _ (by decide)

theorem Norm.IsWritable.isSpelt {n : Norm} (h : n.IsWritable) : ∀ t ∈ n.tokens, t.IsSpelt := by
  obtain ⟨-, hrole, haction, hscope, hconditions⟩ := h
  have hscopeMark : Token.scope.IsSpelt := Token.isSpelt_marker _ (by decide)
  have hconditional : Token.conditional.IsSpelt := Token.isSpelt_marker _ (by decide)
  simp only [Norm.tokens, List.forall_mem_cons, List.forall_mem_append]
  refine ⟨Token.isSpelt_number _, Token.isSpelt_role hrole, Token.isSpelt_deontic _,
    Token.isSpelt_quoted haction, ?_, ?_⟩
  · cases hcase : n.scope with
    | none => simp
    | some text => simp [hscopeMark, Token.isSpelt_quoted (hscope text hcase)]
  · split
    · simp
    · refine List.forall_mem_cons.mpr ⟨hconditional, isSpelt_joinTokens ?_⟩
      simpa using fun c hc ↦ (hconditions c hc).isSpelt

theorem Violation.IsWritable.isSpelt {v : Violation} (h : v.IsWritable) :
    ∀ t ∈ v.tokens, t.IsSpelt := by
  have hmark : Token.violation.IsSpelt := Token.isSpelt_marker _ (by decide)
  have hconsequence : Token.consequence.IsSpelt := Token.isSpelt_marker _ (by decide)
  simp only [Violation.tokens, List.forall_mem_cons, List.forall_mem_append]
  refine ⟨hmark, isSpelt_joinTokens ?_, hconsequence, Token.isSpelt_role h.1,
    Token.isSpelt_deontic _, Token.isSpelt_quoted h.2, by simp⟩
  simp [Token.isSpelt_number]

theorem LegalFact.IsWritable.isSpelt {f : LegalFact} (h : f.IsWritable) :
    ∀ t ∈ f.tokens, t.IsSpelt := by
  have hmark : Token.fact.IsSpelt := Token.isSpelt_marker _ (by decide)
  have hevidence : Token.evidence.IsSpelt := Token.isSpelt_marker _ (by decide)
  simp [LegalFact.tokens, hmark, hevidence, Token.isSpelt_quoted h.1, Token.isSpelt_quoted h.2]

theorem Relief.IsWritable.isSpelt {r : Relief} (h : r.IsWritable) :
    ∀ t ∈ r.tokens, t.IsSpelt := by
  cases r with
  | essential =>
    have hessential : Token.essential.IsSpelt := Token.isSpelt_marker _ (by decide)
    simpa [Relief.tokens] using hessential
  | remedies list =>
    have hfollowing : Token.following.IsSpelt := Token.isSpelt_marker _ (by decide)
    refine List.forall_mem_cons.mpr ⟨hfollowing, isSpelt_joinTokens ?_⟩
    simpa using fun remedy hremedy ↦ Token.isSpelt_quoted (h.2 remedy hremedy)

theorem Agenda.IsWritable.isSpelt {a : Agenda} (h : a.IsWritable) :
    ∀ t ∈ a.tokens, t.IsSpelt := by
  obtain ⟨hrequester, hinstitution, hbeneficiary, hrelief⟩ := h
  have hseek : Token.seek.IsSpelt := Token.isSpelt_marker _ (by decide)
  have hestablish : Token.establish.IsSpelt := Token.isSpelt_marker _ (by decide)
  have hadjudicate : Token.adjudicate.IsSpelt := Token.isSpelt_marker _ (by decide)
  have houtcome : (Token.compliance a.compliance).IsSpelt := by
    cases a.compliance <;> exact Token.isSpelt_marker _ (by decide)
  simp only [Agenda.tokens, List.forall_mem_cons]
  exact ⟨Token.isSpelt_role hrequester, hseek, hestablish, houtcome,
    Token.isSpelt_quoted hinstitution, hadjudicate, Token.isSpelt_role hbeneficiary,
    hrelief.isSpelt⟩

theorem Institution.IsWritable.isSpelt {i : Institution} (h : i.IsWritable) :
    ∀ t ∈ i.tokens, t.IsSpelt := by
  obtain ⟨hname, htype, hdomain⟩ := h
  have hmark : Token.institution.IsSpelt := Token.isSpelt_marker _ (by decide)
  have hmultiplicity : (Token.multiplicity i.multiplicity.keyword).IsSpelt := by
    cases i.multiplicity <;> exact Token.isSpelt_marker _ (by decide)
  have htypes : ∀ name ∈ ["contrato", "procedimiento", "acto-juridico", "acto"],
      Token.institutionType name ∈ Token.markers := by decide
  have htypeToken : (Token.institutionType i.typeName).IsSpelt :=
    Token.isSpelt_marker _ (htypes i.typeName htype)
  simp only [Institution.tokens, List.forall_mem_cons]
  refine ⟨hmark, Token.isSpelt_quoted hname, htypeToken, hmultiplicity, ?_⟩
  split
  · simp
  · rename_i hne
    obtain ⟨hstart, hunbroken⟩ := hdomain.resolve_left hne
    simpa using Token.isSpelt_legalDomain hstart hunbroken

theorem Part.IsWritable.isSpelt {part : Part} (h : part.IsWritable) :
    ∀ t ∈ part.tokens, t.IsSpelt := by
  obtain n | v | f | a := part
  · exact Norm.IsWritable.isSpelt h
  · exact Violation.IsWritable.isSpelt h
  · exact LegalFact.IsWritable.isSpelt h
  · exact Agenda.IsWritable.isSpelt h

/-- The tokens of a schema that can be written are the tokens of its text. -/
theorem Schema.tokens_write (layout : Layout) {schema : Schema} (h : schema.IsWritable) :
    Normative.tokens (schema.write layout) = schema.tokens := by
  refine layout.tokens_write_piece fun t ht ↦ ?_
  obtain ⟨institution, hinstitution, hwritable⟩ := h.institution
  rw [tokens, Option.mem_def.mp hinstitution, Option.elim_some] at ht
  rcases List.mem_append.mp ht with ht | ht
  · exact hwritable.isSpelt t ht
  · obtain ⟨part, hpart, ht⟩ := List.mem_flatMap.mp ht
    exact (h.parts part hpart).isSpelt t ht

end Normative
