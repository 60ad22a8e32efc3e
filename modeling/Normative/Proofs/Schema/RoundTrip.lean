import Normative.Proofs.Grammar.Acceptance
import Normative.Proofs.Schema.Writing

/-!
# Reading a schema back from its text

A schema that can be written is read back from its text, whatever the layout.

The grammar decides what a text writes: it is enough to give a derivation of the tokens of a schema
that denotes the schema. Such a derivation is put together as the tokens are, rule by rule. What
comes after the tokens of a part need not be looked at, since a derivation of a part says where the
part ends.

## Main definitions

* `Grammar.Rule.Derives` : tokens from which a rule derives a value, whatever comes after them.

## Main results

* `Grammar.Rule.derives_schema` : the tokens of a schema have a derivation that denotes it.
* `Schema.parse_write` : a schema is read back from its text.
-/

namespace Normative

/-! ### Derivations from tokens -/

namespace Grammar

namespace Rule

variable {α β γ δ ε : Type}

/-- A rule derives a value from tokens, whatever lexemes come after them. -/
def Derives (rule : Rule δ) (value : δ → α) (ts : List Token) (a : α) : Prop :=
  ∀ ⦃input : List Lexeme⦄ (rest : List Lexeme), input.map Lexeme.token = ts →
    ∃ d, rule (input ++ rest) d rest ∧ value d = a

namespace Derives

variable {rule first : Rule δ} {second : Rule ε} {v : δ → α} {w : ε → β} {ts us : List Token}
  {a : α} {b : β}

theorem map (f : α → β) (h : Derives rule v ts a) {w : δ → β} (hw : ∀ d, w d = f (v d)) :
    Derives rule w ts (f a) := by
  intro input rest hinput
  obtain ⟨d, hd, rfl⟩ := h rest hinput
  exact ⟨d, hd, hw d⟩

theorem terminal {value? : Token → Option α} {t : Token} (h : value? t = some a) :
    Derives (terminal value?) Leaf.value [t] a := by
  intro input rest hinput
  obtain ⟨l, rfl, rfl⟩ := List.map_eq_singleton_iff.mp hinput
  exact ⟨⟨l, a⟩, ⟨rfl, h⟩, rfl⟩

theorem andThen (hfirst : Derives first v ts a) (hsecond : Derives second w us b) :
    Derives (first.andThen second) (Prod.map v w) (ts ++ us) (a, b) := by
  intro input rest hinput
  obtain ⟨before, after, rfl, hbefore, hafter⟩ := List.map_eq_append_iff.mp hinput
  obtain ⟨d, hd, rfl⟩ := hfirst (after ++ rest) hbefore
  obtain ⟨e, he, rfl⟩ := hsecond rest hafter
  rw [List.append_assoc]
  exact ⟨(d, e), ⟨after ++ rest, hd, he⟩, rfl⟩

theorem none : Derives rule.opt (Option.map v) [] none := by
  intro input rest hinput
  obtain rfl := List.map_eq_nil_iff.mp hinput
  exact ⟨Option.none, rfl, rfl⟩

theorem some (h : Derives rule v ts a) : Derives rule.opt (Option.map v) ts (some a) := by
  intro input rest hinput
  obtain ⟨d, hd, rfl⟩ := h rest hinput
  exact ⟨Option.some d, hd, rfl⟩

theorem inl {value : δ ⊕ ε → α} (h : Derives first (fun d ↦ value (.inl d)) ts a) :
    Derives (first.orElse second) value ts a := by
  intro input rest hinput
  obtain ⟨d, hd, hvalue⟩ := h rest hinput
  exact ⟨.inl d, hd, hvalue⟩

theorem inr {value : δ ⊕ ε → α} (h : Derives second (fun d ↦ value (.inr d)) ts a) :
    Derives (first.orElse second) value ts a := by
  intro input rest hinput
  obtain ⟨d, hd, hvalue⟩ := h rest hinput
  exact ⟨.inr d, hd, hvalue⟩

/-- A repetition derives a list, one member after the other. -/
theorem many {write : α → List Token} {list : List α}
    (h : ∀ a ∈ list, Derives rule v (write a) a) :
    Derives rule.many (List.map v) (list.flatMap write) list := by
  induction list with
  | nil =>
    intro input rest hinput
    obtain rfl := List.map_eq_nil_iff.mp hinput
    exact ⟨[], rfl, rfl⟩
  | cons a list ih =>
    have hlist := ih fun a' ha' ↦ h a' (List.mem_cons_of_mem a ha')
    intro input rest hinput
    obtain ⟨⟨d, ds⟩, hd, hvalue⟩ := (h a List.mem_cons_self).andThen hlist rest hinput
    obtain ⟨rfl, rfl⟩ := Prod.mk.inj hvalue
    exact ⟨d :: ds, hd, rfl⟩

theorem terminal_andThen {value? : Token → Option α} {t : Token} (h : value? t = Option.some a)
    (hsecond : Derives second w us b) :
    Derives ((Rule.terminal value?).andThen second) (Prod.map Leaf.value w) (t :: us) (a, b) :=
  (terminal h).andThen hsecond

theorem opt_terminal_andThen {value? : Token → Option α} {t : Token}
    (h : value? t = Option.some a) (hsecond : Derives second w us b) :
    Derives ((Rule.terminal value?).opt.andThen second) (Prod.map (Option.map Leaf.value) w)
      (t :: us) (Option.some a, b) :=
  (terminal h).some.andThen hsecond

theorem mark (t : Token) : Derives (mark t) Leaf.value [t] () :=
  terminal (isToken?_eq_some.mpr rfl)

theorem mark_andThen (t : Token) (h : Derives rule v ts a) :
    Derives ((Rule.mark t).andThen rule) (fun d ↦ v d.2) (t :: ts) a :=
  ((mark t).andThen h).map Prod.snd fun _ ↦ rfl

theorem opt_mark_andThen (t : Token) (h : Derives rule v ts a) :
    Derives ((Rule.mark t).opt.andThen rule) (fun d ↦ v d.2) (t :: ts) a :=
  ((mark t).some.andThen h).map Prod.snd fun _ ↦ rfl

end Derives

/-! ### The parts of a schema -/

/-- A list that the conjunction separates is derived from its members. -/
theorem derives_joined {rule : Rule δ} {v : δ → α} {write : α → List Token} {list : List α}
    (hne : list ≠ []) (h : ∀ a ∈ list, Derives rule v (write a) a) :
    Derives rule.joined (JoinedTree.members v) (joinTokens (list.map write)) list := by
  obtain ⟨a, others, rfl⟩ := List.exists_cons_of_ne_nil hne
  have hothers := Derives.many fun b hb ↦
    (h b (List.mem_cons_of_mem a hb)).mark_andThen .conjunction
  rw [List.map_cons, joinTokens_cons, List.flatMap_map]
  exact ((h a List.mem_cons_self).andThen hothers).map (fun p ↦ p.1 :: p.2) fun _ ↦ rfl

/-- A quoted text is a phrase. -/
theorem derives_phrase (joined : Bool) (text : String) :
    Derives (phrase joined) PhraseTree.text [.quoted text] text := by
  intro input rest hinput
  obtain ⟨l, rfl, hl⟩ := List.map_eq_singleton_iff.mp hinput
  obtain ⟨_, position, raw⟩ := l
  obtain rfl : _ = Token.quoted text := hl
  exact ⟨(⟨_, text⟩, []), ⟨rest, ⟨rfl, rfl, rfl⟩, rfl⟩, by simp [PhraseTree.text]⟩

theorem withoutArticle_el (role : String) : withoutArticle ("el-" ++ role) = role := by
  rw [withoutArticle, Text.startsFold_append, Bool.true_or, if_pos rfl, String.toList_append]
  exact String.ofList_toList

theorem role?_roleToken (role : String) : role? (roleToken role) = some role :=
  congrArg some (withoutArticle_el role)

theorem derives_number (id : NormId) : Derives (terminal number?) Leaf.value [.number id] id :=
  .terminal rfl

theorem derives_condition (c : Condition) :
    Derives condition ConditionTree.condition c.tokens c := by
  cases c with
  | text description =>
    exact ((derives_phrase false description).map Condition.text fun _ ↦ rfl).inr
  | norm id =>
    have hid := (derives_number id).mark_andThen .normReference
    exact (hid.map Condition.norm fun _ ↦ rfl).inl

theorem derives_scope (scope : Option String) :
    Derives ((mark .scope).andThen (phrase true)).opt (Option.map fun d ↦ PhraseTree.text d.2)
      (scope.elim [] fun text ↦ [.scope, .quoted text]) scope := by
  cases scope with
  | none => exact .none
  | some text => exact ((derives_phrase true text).mark_andThen .scope).some

theorem derives_conditions (list : List Condition) :
    Derives ((mark .conditional).andThen condition.joined).opt
      (fun d ↦ (d.map fun d ↦ JoinedTree.members ConditionTree.condition d.2).getD [])
      (if list = [] then [] else .conditional :: joinTokens (list.map Condition.tokens)) list := by
  by_cases hlist : list = []
  · rw [if_pos hlist, hlist]
    exact Derives.map (v := Option.map fun d ↦ JoinedTree.members ConditionTree.condition d.2)
      (·.getD []) .none fun _ ↦ rfl
  · have hjoined := derives_joined hlist fun c _ ↦ derives_condition c
    rw [if_neg hlist]
    exact (hjoined.mark_andThen .conditional).some.map (·.getD []) fun _ ↦ rfl

theorem derives_norm {n : Norm} (hn : n.origin = .authored) :
    Derives norm NormTree.norm n.tokens n := by
  obtain ⟨id, role, deontic, action, scope, conditions, origin⟩ := n
  obtain rfl : origin = .authored := hn
  have htail := (derives_phrase true action).andThen
    ((derives_scope scope).andThen (derives_conditions conditions))
  have hnorm := (derives_number id).andThen <| Derives.terminal_andThen (role?_roleToken role) <|
    Derives.terminal_andThen (show deontic? (.deontic deontic) = some deontic from rfl) htail
  exact hnorm.map (β := Norm) (fun (id, role, deontic, action, scope, conditions) ↦
    ⟨id, role, deontic, action, scope, conditions, .authored⟩) fun _ ↦ rfl

theorem derives_reference (id : NormId) :
    Derives reference (fun d ↦ d.2.value) [.number id] id :=
  ((Derives.none (v := Leaf.value)).andThen (derives_number id)).map Prod.snd fun _ ↦ rfl

theorem derives_violatedNorms (norms : ViolatedNorms) :
    Derives violatedNorms ViolatedTree.norms (joinTokens (norms.ids.map fun id ↦ [.number id]))
      norms := by
  intro input rest hinput
  cases norms with
  | single id =>
    obtain ⟨first, hfirst, rfl⟩ := derives_reference id rest hinput
    exact ⟨(first, none), ⟨rest, hfirst, rfl⟩, rfl⟩
  | compound id id' =>
    have hsecond := (derives_reference id').mark_andThen .conjunction
    obtain ⟨⟨first, second⟩, hd, hvalue⟩ := (derives_reference id).andThen hsecond rest hinput
    obtain ⟨rfl, rfl⟩ := Prod.mk.inj hvalue
    exact ⟨(first, some second), hd, rfl⟩

theorem derives_violation (v : Violation) :
    Derives ((mark .violation).andThen violation) (fun d ↦ ViolationTree.violation d.2) v.tokens
      v := by
  have hposition : deontic? (.deontic v.deontic) = some v.deontic := rfl
  have hbound := Derives.terminal_andThen (role?_roleToken v.role) <|
    Derives.opt_terminal_andThen hposition (derives_phrase true v.consequence)
  have hviolation := (derives_violatedNorms v.norms).andThen (hbound.mark_andThen .consequence)
  exact (hviolation.mark_andThen .violation).map (β := Violation)
    (fun (norms, role, deontic, consequence) ↦
      ⟨norms, role, deontic.getD .claimRight, consequence⟩) fun _ ↦ rfl

theorem derives_fact (f : LegalFact) :
    Derives ((mark .fact).andThen fact) (fun d ↦ FactTree.fact d.2) f.tokens f := by
  have hevidence := (derives_phrase true f.evidence).mark_andThen .evidence
  have hfact := (derives_phrase true f.description).andThen hevidence
  exact (hfact.mark_andThen .fact).map (β := LegalFact)
    (fun texts ↦ ⟨texts.1, texts.2⟩) fun _ ↦ rfl

theorem derives_relief {r : Relief} (hr : r.IsWritable) :
    Derives relief ReliefTree.relief r.tokens r := by
  cases r with
  | essential => exact ((Derives.mark .essential).map (fun _ ↦ Relief.essential) fun _ ↦ rfl).inl
  | remedies list =>
    have hlist := derives_joined hr.1 fun remedy _ ↦ derives_phrase false remedy
    exact ((hlist.mark_andThen .following).map Relief.remedies fun _ ↦ rfl).inr

theorem derives_agenda (institutionName : String) {a : Agenda} (ha : a.relief.IsWritable) :
    Derives agenda (AgendaTree.agenda institutionName) a.tokens a := by
  have hname : referredName? (.quoted a.institution) = some a.institution := rfl
  have houtcome : compliance? (.compliance a.compliance) = some a.compliance := rfl
  have hadjudicated := (Derives.opt_terminal_andThen (role?_roleToken a.beneficiaryRole)
    (derives_relief ha)).opt_mark_andThen .adjudicate
  have hsought := (Derives.terminal_andThen houtcome
    (Derives.opt_terminal_andThen hname hadjudicated)).opt_mark_andThen .establish
  exact (Derives.terminal_andThen (role?_roleToken a.requestingRole)
    (hsought.mark_andThen .seek)).map (β := Agenda)
    (fun (requester, outcome, institution, beneficiary, relief) ↦
      ⟨requester, outcome, institution.getD institutionName, beneficiary.getD requester, relief⟩)
    fun _ ↦ rfl

theorem multiplicity?_keyword (m : Multiplicity) :
    multiplicity? (.multiplicity m.keyword) = some m := by
  cases m <;> decide +kernel

theorem derives_institution (i : Institution) :
    Derives institution InstitutionTree.institution i.tokens i := by
  have hname : institutionName? (.quoted i.name) = some i.name := rfl
  have htype : institutionType? (.institutionType i.typeName) = some i.typeName := rfl
  have hdomain : Derives (terminal legalDomain?).opt (fun d ↦ (d.map Leaf.value).getD "")
      (if i.legalDomain = "" then [] else [.legalDomain i.legalDomain]) i.legalDomain := by
    by_cases hempty : i.legalDomain = ""
    · rw [if_pos hempty, hempty]
      exact Derives.map (v := Option.map Leaf.value) (·.getD "") .none fun _ ↦ rfl
    · rw [if_neg hempty]
      exact Derives.map (v := Option.map Leaf.value) (·.getD "") (.some (.terminal rfl))
        fun _ ↦ rfl
  have hparts := Derives.terminal_andThen hname <| Derives.opt_terminal_andThen htype <|
    Derives.opt_terminal_andThen (multiplicity?_keyword i.multiplicity) hdomain
  exact (hparts.mark_andThen .institution).map (β := Institution)
    (fun (name, typeName, multiplicity, legalDomain) ↦
      ⟨name, typeName.getD "contrato", multiplicity.getD .multiple, legalDomain⟩) fun _ ↦ rfl

end Rule

/-! ### Whole schemas -/

/-- The item that a derivation denotes, as a schema keeps it. -/
def ItemTree.part (institutionName : String) : ItemTree → Part :=
  Sum.map NormTree.norm <| Sum.map (fun d ↦ ViolationTree.violation d.2) <|
    Sum.map (fun d ↦ FactTree.fact d.2) (AgendaTree.agenda institutionName)

theorem SchemaTree.schema_eq_ofParts (d : SchemaTree) :
    d.schema = Schema.ofParts (InstitutionTree.institution d.1)
      (d.2.map (ItemTree.part (InstitutionTree.institution d.1).name)) := by
  simp only [SchemaTree.schema, Schema.ofParts, List.filterMap_map]
  congr 2 <;> funext e <;> obtain e | e | e | e := e <;> rfl

theorem SchemaTree.numbers_eq (d : SchemaTree) : d.numbers = d.schema.norms.map Norm.id := by
  rw [SchemaTree.numbers, itemNumbers, SchemaTree.schema, List.map_filterMap]

/-- An item that can be written is derived from its tokens. -/
theorem Rule.derives_part (institutionName : String) {part : Part} (h : part.IsWritable) :
    Rule.Derives Rule.item (ItemTree.part institutionName) part.tokens part := by
  obtain n | v | f | a := part
  · exact ((Rule.derives_norm h.1).map Sum.inl fun _ ↦ rfl).inl
  · exact ((Rule.derives_violation v).map (Sum.inr <| Sum.inl ·) fun _ ↦ rfl).inl.inr
  · exact ((Rule.derives_fact f).map (Sum.inr <| Sum.inr <| Sum.inl ·) fun _ ↦ rfl).inl.inr.inr
  · exact ((Rule.derives_agenda institutionName h.2.2.2).map (Sum.inr <| Sum.inr <| Sum.inr ·)
      fun _ ↦ rfl).inr.inr.inr

/-- The tokens of an institution and items have a derivation that denotes their schema. -/
theorem Rule.derives_schema (institution : Institution) {parts : List Part}
    (hparts : ∀ part ∈ parts, part.IsWritable) :
    Rule.Derives Rule.schema SchemaTree.schema
      (institution.tokens ++ parts.flatMap Part.tokens) (.ofParts institution parts) := by
  intro input rest hinput
  have hitems := Rule.Derives.many fun part hpart ↦
    Rule.derives_part institution.name (hparts part hpart)
  obtain ⟨d, hd, hvalue⟩ := (Rule.derives_institution institution).andThen hitems rest hinput
  obtain ⟨hinstitution, hlist⟩ := Prod.mk.inj hvalue
  refine ⟨d, hd, ?_⟩
  rw [SchemaTree.schema_eq_ofParts, hinstitution, hlist]

end Grammar

namespace Schema

/-- A schema that can be written is read back from its text, in every layout. -/
theorem parse_write (layout : Layout) {schema : Schema} (h : schema.IsWritable) :
    parse (schema.write layout) = .ok schema := by
  obtain ⟨institution, hinstitution, -⟩ := h.institution
  -- The text has the tokens of the schema, and these have a derivation that denotes it.
  have htokens : (lexemes (schema.write layout)).map Lexeme.token =
      institution.tokens ++ schema.parts.flatMap Part.tokens := by
    have hread := tokens_write layout h
    rwa [Normative.tokens, tokens, Option.mem_def.mp hinstitution, Option.elim_some] at hread
  obtain ⟨d, hd, hvalue⟩ := Grammar.Rule.derives_schema institution h.parts [] htokens
  rw [List.append_nil] at hd
  rw [ofParts_parts hinstitution] at hvalue
  have hincreasing : d.numbers.Pairwise (· < ·) := by
    rw [d.numbers_eq, hvalue]
    exact h.increasing
  exact parse_eq_ok_iff.mpr (ofLexemes_eq_ok_iff.mpr ⟨d, hd, hincreasing, hvalue⟩)

/-- A schema in which texts are empty or hold keywords, noise words, numbers and separators, and
roles are empty or hold a quotation mark. -/
def crowded : Schema where
  institution := some ⟨"La Institution, en-caso-que", "acto-juridico", .single, "derecho-y"⟩
  norms :=
    [⟨0, "comprador", .obligation, "pagar y entonces", some "",
      [.norm 4294967295, .text "hecho", .text ""], .authored⟩,
      ⟨4294967295, "", .claimRight, "1. el-juez busca", none, [], .authored⟩]
  violations := [⟨.single 7, "la-\"parte\"", .privilege, "violacion"⟩,
    ⟨.compound 0 0, "debe", .prohibition, "de la norma"⟩]
  facts := [⟨"", "evidencia; [recibo]"⟩]
  agendas := [⟨"vendedor", .breached, "", "juez", .remedies ["y", "lo-esencial"]⟩,
    ⟨"el-juez", .fulfilled, "Permuta", "", .essential⟩]

theorem crowded_isWritable : crowded.IsWritable where
  institution := ⟨_, rfl, by decide +kernel⟩
  norms := by decide +kernel
  increasing := by decide
  violations := by decide +kernel
  facts := by decide +kernel
  agendas := by decide +kernel

theorem parse_write_crowded :
    crowded.IsWritable ∧ parse (crowded.write Layout.plain) = .ok crowded :=
  ⟨crowded_isWritable, parse_write Layout.plain crowded_isWritable⟩

example : (⟨some ⟨"Permuta", "contrato", .multiple, ""⟩, [], [⟨.compound 1 2, "juez", .privilege,
    "decidir"⟩], [], []⟩ : Schema).write Layout.plain =
    "Institution \"Permuta\" contrato múltiples " ++
      "violacion 1 y 2 entonces el-juez puede \"decidir\"" := by
  decide +kernel

end Schema

end Normative
