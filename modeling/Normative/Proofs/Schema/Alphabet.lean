import Normative.Program.Draft
import Normative.Proofs.Grammar.Acceptance
import Normative.Proofs.Schema.RoundTrip
import Normative.Proofs.Text.Alphabet

/-!
# The characters of a schema

The texts of a schema are taken from the text in which it is written. A chunk of that text lies on
one line, so no text of a schema has a line break, and a text of several words has spaces between
them. Apart from these spaces, its characters are those of the schema as it was written.

## Main definitions

* `Schema.texts` : the texts of a schema.
* `Grammar.Rule.Yields` : a rule whose derivations have a property if their lexemes have one.

## Main results

* `Schema.over_of_parse` : the texts of a schema are over the alphabet of the text in which it is
  written.
* `Schema.isLine_of_parse` : the texts of a schema have no line breaks.
-/

namespace Normative

open Text (Over IsLine)

variable {p : Char → Prop}

/-! ### The chunks of a text -/

/-- A pass over a text whose chunks, with the one that is open, are over an alphabet. -/
def Scan.Over (p : Char → Prop) (s : Scan) : Prop := ∀ chunk ∈ s.chunks, ∀ c ∈ chunk.text, p c

theorem Scan.over_step {s : Scan} {c : Char} (h : s.Over p) (hc : c ≠ '\n' → p c) :
    (s.step c).Over p := by
  obtain ⟨mode, position, done⟩ := s
  simp only [Scan.Over, Scan.chunks, List.forall_mem_append, List.mem_reverse] at h ⊢
  obtain ⟨hdone, hopen⟩ := h
  -- A line break is a separator, so no word has one; a quoted text ends at it.
  have hseparator (hne : ¬ isSeparator c = true) : p c := by
    refine hc ?_
    rintro rfl
    exact hne (by decide)
  cases mode with
  | between =>
    by_cases hsep : isSeparator c
    · simpa [Scan.step, Scan.advance, hsep, Scan.Mode.open?] using hdone
    · by_cases hquote : c = '"'
      · subst hquote
        simpa [Scan.step, Scan.advance, hsep, Scan.Mode.open?] using hdone
      · simpa [Scan.step, Scan.advance, hsep, hquote, Scan.Mode.open?, hseparator hsep] using hdone
  | inWord start reversed =>
    have hword : ∀ c ∈ reversed, p c := by simpa [Scan.Mode.open?] using hopen
    by_cases hsep : isSeparator c
    · simpa [Scan.step, Scan.advance, hsep, Scan.Mode.open?] using ⟨hword, hdone⟩
    · simpa [Scan.step, Scan.advance, hsep, Scan.Mode.open?] using
        ⟨hdone, fun a ha ↦ ha.elim (hword a) (· ▸ hseparator hsep)⟩
  | inQuote start reversed =>
    have hword : ∀ c ∈ reversed, p c := by simpa [Scan.Mode.open?] using hopen
    by_cases hend : c = '"' ∨ c = '\n'
    · simpa [Scan.step, Scan.advance, hend, Scan.Mode.open?] using ⟨hword, hdone⟩
    · simpa [Scan.step, Scan.advance, hend, Scan.Mode.open?] using
        ⟨hdone, fun a ha ↦ ha.elim (hword a) (· ▸ hc fun h ↦ hend (.inr h))⟩

theorem over_chunks {text : String} (h : ∀ c ∈ text.toList, c ≠ '\n' → p c) :
    ∀ chunk ∈ chunks text, ∀ c ∈ chunk.text, p c := by
  have hrun (list : List Char) : ∀ s : Scan, s.Over p → (∀ c ∈ list, c ≠ '\n' → p c) →
      (list.foldl Scan.step s).Over p := by
    induction list with
    | nil => exact fun _ hs _ ↦ hs
    | cons c list ih =>
      intro s hs hlist
      obtain ⟨hc, hlist⟩ := List.forall_mem_cons.mp hlist
      exact ih _ (Scan.over_step hs hc) hlist
  exact hrun _ _ (by simp [Scan.Over, Scan.chunks, Scan.start, Scan.Mode.open?]) h

/-! ### The lexemes of a text -/

/-- A lexeme over an alphabet. -/
def Lexeme.Over (p : Char → Prop) (l : Lexeme) : Prop :=
  Text.Over p l.raw ∧ ∀ text ∈ l.token.text?, Text.Over p text

theorem over_lexemes {text : String} (h : ∀ c ∈ text.toList, c ≠ '\n' → p c) :
    ∀ l ∈ lexemes text, l.Over p := by
  intro l hl
  obtain ⟨chunk, hchunk, hlexeme⟩ := List.mem_filterMap.mp hl
  have hraw : Text.Over p (String.ofList chunk.text) := by
    rw [Text.Over, String.toList_ofList]
    exact over_chunks h chunk hchunk
  dsimp only [Chunk.lexeme?] at hlexeme
  split at hlexeme
  · obtain rfl := Option.some.inj hlexeme
    refine ⟨hraw, fun text htext ↦ ?_⟩
    obtain rfl := Option.some.inj htext
    exact hraw
  · split at hlexeme
    · exact absurd hlexeme (by simp)
    · obtain rfl := Option.some.inj hlexeme
      refine ⟨hraw, fun text htext ↦ ?_⟩
      obtain rfl := Token.text?_classify htext
      exact hraw

/-! ### Derivations from lexemes over an alphabet -/

namespace Grammar.Rule

variable {δ ε α : Type} {good : Lexeme → Prop}

/-- A rule whose derivations have a property if the lexemes have one. -/
def Yields (good : Lexeme → Prop) (rule : Rule δ) (holds : δ → Prop) : Prop :=
  ∀ ⦃input d rest⦄, rule input d rest → (∀ l ∈ input, good l) → holds d ∧ ∀ l ∈ rest, good l

namespace Yields

variable {rule first : Rule δ} {second : Rule ε} {holds holds' : δ → Prop} {also : ε → Prop}

theorem mono (h : Yields good rule holds) (himp : ∀ d, holds d → holds' d) :
    Yields good rule holds' :=
  fun _ d _ hd hinput ↦ ⟨himp d (h hd hinput).1, (h hd hinput).2⟩

theorem terminal {value? : Token → Option α} {holds : α → Prop}
    (h : ∀ l a, good l → value? l.token = some a → holds a) :
    Yields good (terminal value?) (fun d ↦ holds d.value) := by
  rintro input d rest ⟨rfl, hd⟩ hinput
  obtain ⟨hl, hrest⟩ := List.forall_mem_cons.mp hinput
  exact ⟨h _ _ hl hd, hrest⟩

/-- A lexeme whose value does not matter. -/
theorem any (value? : Token → Option α) : Yields good (Rule.terminal value?) (fun _ ↦ True) := by
  rintro input d rest ⟨rfl, -⟩ hinput
  exact ⟨trivial, (List.forall_mem_cons.mp hinput).2⟩

theorem andThen (hfirst : Yields good first holds) (hsecond : Yields good second also) :
    Yields good (first.andThen second) (fun d ↦ holds d.1 ∧ also d.2) := by
  rintro input d rest ⟨middle, hd, he⟩ hinput
  obtain ⟨hholds, hmiddle⟩ := hfirst hd hinput
  obtain ⟨halso, hrest⟩ := hsecond he hmiddle
  exact ⟨⟨hholds, halso⟩, hrest⟩

theorem opt (h : Yields good rule holds) : Yields good rule.opt (fun d ↦ ∀ e ∈ d, holds e) := by
  rintro input (_ | d) rest hd hinput
  · obtain rfl : rest = input := hd
    exact ⟨by simp, hinput⟩
  · obtain ⟨hholds, hrest⟩ := h hd hinput
    exact ⟨by simpa using hholds, hrest⟩

theorem orElse (hfirst : Yields good first holds) (hsecond : Yields good second also) :
    Yields good (first.orElse second) (Sum.elim holds also) := by
  rintro input (d | d) rest hd hinput
  · exact hfirst hd hinput
  · exact hsecond hd hinput

theorem many (h : Yields good rule holds) : Yields good rule.many (fun ds ↦ ∀ d ∈ ds, holds d) := by
  intro input ds
  induction ds generalizing input with
  | nil =>
    intro rest hd hinput
    obtain rfl : rest = input := hd
    exact ⟨by simp, hinput⟩
  | cons d ds ih =>
    rintro rest ⟨middle, hd, hds⟩ hinput
    obtain ⟨hholds, hmiddle⟩ := h hd hinput
    obtain ⟨hall, hrest⟩ := ih hds hmiddle
    exact ⟨List.forall_mem_cons.mpr ⟨hholds, hall⟩, hrest⟩

theorem mark_andThen (token : Token) (h : Yields good rule holds) :
    Yields good ((mark token).andThen rule) (fun d ↦ holds d.2) :=
  ((any _).andThen h).mono fun _ hd ↦ hd.2

theorem opt_mark_andThen (token : Token) (h : Yields good rule holds) :
    Yields good ((mark token).opt.andThen rule) (fun d ↦ holds d.2) :=
  ((any _).opt.andThen h).mono fun _ hd ↦ hd.2

theorem joined (value : δ → α) (holds : α → Prop)
    (h : Yields good rule (fun d ↦ holds (value d))) :
    Yields good rule.joined (fun d ↦ ∀ a ∈ JoinedTree.members value d, holds a) := by
  refine (h.andThen (h.mark_andThen .conjunction).many).mono fun d hd ↦ ?_
  exact List.forall_mem_cons.mpr ⟨hd.1, List.forall_mem_map.mpr hd.2⟩

theorem word (joined : Bool) : Yields (Lexeme.Over p) (word joined) (fun d ↦ Over p d.value) := by
  rintro input d rest ⟨rfl, -, hd⟩ hinput
  obtain ⟨⟨hraw, htext⟩, hrest⟩ := List.forall_mem_cons.mp hinput
  refine ⟨?_, hrest⟩
  unfold wordText? at hd
  split at hd
  · rename_i text hsome
    rw [← Option.some.inj hd]
    exact htext text hsome
  · split at hd
    · rw [← Option.some.inj hd]
      exact hraw
    · exact absurd hd (by simp)

theorem phrase (hspace : p ' ') (joined : Bool) :
    Yields (Lexeme.Over p) (phrase joined) (fun d ↦ Over p (PhraseTree.text d)) := by
  refine ((word false).andThen (word joined).many).mono fun d hd ↦ ?_
  refine Text.Over.intercalate (by simpa [Text.Over] using hspace) ?_
  simpa using hd

/-- A role is a part of the word that names it. -/
theorem role : Yields (Lexeme.Over p) (Rule.terminal role?) (fun d ↦ Over p d.value) := by
  refine terminal fun l name hl hname ↦ ?_
  obtain ⟨text, htoken, rfl⟩ := role?_eq_some.mp hname
  have htext : Over p text := hl.2 text (by rw [htoken]; rfl)
  rw [withoutArticle]
  split
  · rw [Over, String.toList_ofList]
    exact fun c hc ↦ htext c (List.mem_of_mem_drop hc)
  · exact htext

end Yields

end Grammar.Rule

/-! ### The texts of a schema -/

/-- The texts of a norm. -/
def Norm.texts (norm : Norm) : List String :=
  norm.role :: norm.action :: (norm.scope.toList ++ Draft.conditionTexts norm.conditions)

/-- The texts of a violation. -/
def Violation.texts (violation : Violation) : List String :=
  [violation.role, violation.consequence]

/-- The texts of a fact. -/
def LegalFact.texts (fact : LegalFact) : List String := [fact.description, fact.evidence]

/-- The texts of what an agenda asks for. -/
def Relief.texts : Relief → List String
  | essential => []
  | remedies list => list

/-- The texts of an agenda. -/
def Agenda.texts (agenda : Agenda) : List String :=
  agenda.requestingRole :: agenda.institution :: agenda.beneficiaryRole :: agenda.relief.texts

/-- The texts of an item. -/
def Part.texts : Part → List String
  | .inl norm => norm.texts
  | .inr (.inl violation) => violation.texts
  | .inr (.inr (.inl fact)) => fact.texts
  | .inr (.inr (.inr agenda)) => agenda.texts

/-- The texts of a schema: the name of the institution and the texts of the items. -/
def Schema.texts (schema : Schema) : List String :=
  (schema.institution.map Institution.name).toList ++ schema.parts.flatMap Part.texts

theorem Draft.mem_conditionTexts {conditions : List Condition} {description : String} :
    description ∈ conditionTexts conditions ↔ Condition.text description ∈ conditions := by
  rw [conditionTexts, List.mem_filterMap]
  constructor
  · rintro ⟨_ | id, hmem, hdescription⟩
    · rwa [← Option.some.inj hdescription]
    · exact absurd hdescription (by simp)
  · exact fun h ↦ ⟨_, h, rfl⟩

namespace Grammar.Rule

variable (hspace : p ' ')
include hspace

theorem yields_norm :
    Yields (Lexeme.Over p) norm (fun d ↦ ∀ text ∈ (NormTree.norm d).texts, Over p text) := by
  have hcondition : Yields (Lexeme.Over p) condition.joined (fun d ↦
      ∀ c ∈ JoinedTree.members ConditionTree.condition d,
        ∀ description, c = .text description → Over p description) := by
    refine .joined ConditionTree.condition
      (fun c ↦ ∀ description, c = Condition.text description → Over p description) ?_
    refine (((Yields.any _).mark_andThen .normReference).orElse (.phrase hspace false)).mono ?_
    rintro (d | d) hd description hdescription
    · exact absurd hdescription (by simp [ConditionTree.condition])
    · obtain rfl := Condition.text.inj hdescription
      exact hd
  refine ((Yields.any _).andThen <| Yields.role.andThen <| (Yields.any _).andThen <|
    (Yields.phrase hspace true).andThen <|
    ((Yields.phrase hspace true).mark_andThen .scope).opt.andThen
      (hcondition.mark_andThen .conditional).opt).mono ?_
  rintro ⟨id, role, deontic, action, scope, conditions⟩ ⟨-, hrole, -, haction, hscope, hconditions⟩
  refine List.forall_mem_cons.mpr ⟨hrole, List.forall_mem_cons.mpr ⟨haction,
    List.forall_mem_append.mpr ⟨?_, ?_⟩⟩⟩
  · cases scope with
    | none => simp [NormTree.norm]
    | some d => simpa [NormTree.norm] using hscope d rfl
  · intro description hmem
    rw [Draft.mem_conditionTexts] at hmem
    cases conditions with
    | none => exact absurd hmem (by simp [NormTree.norm])
    | some d => exact hconditions d rfl _ hmem description rfl

theorem yields_violation : Yields (Lexeme.Over p) violation (fun d ↦
    ∀ text ∈ (ViolationTree.violation d).texts, Over p text) := by
  have hnorms : Yields (Lexeme.Over p) violatedNorms (fun _ ↦ True) := by
    have hreference : Yields (Lexeme.Over p) reference (fun _ ↦ True) :=
      (Yields.any number?).opt_mark_andThen .normReference
    exact (hreference.andThen (hreference.mark_andThen .conjunction).opt).mono fun _ _ ↦ trivial
  refine (hnorms.andThen <| (Yields.role.andThen <| (Yields.any deontic?).opt.andThen
    (Yields.phrase hspace true)).mark_andThen .consequence).mono ?_
  rintro ⟨norms, mark, role, deontic, consequence⟩ ⟨-, hrole, -, hconsequence⟩
  simpa [ViolationTree.violation, Violation.texts] using ⟨hrole, hconsequence⟩

theorem yields_fact :
    Yields (Lexeme.Over p) fact (fun d ↦ ∀ text ∈ (FactTree.fact d).texts, Over p text) := by
  refine ((Yields.phrase hspace true).andThen
    ((Yields.phrase hspace true).mark_andThen .evidence)).mono ?_
  rintro ⟨description, mark, evidence⟩ hd
  simpa [FactTree.fact, LegalFact.texts] using hd

theorem yields_relief :
    Yields (Lexeme.Over p) relief (fun d ↦ ∀ text ∈ (ReliefTree.relief d).texts, Over p text) := by
  have hremedies := Yields.joined PhraseTree.text (Over p) (.phrase hspace false)
  refine ((Yields.any _).orElse (hremedies.mark_andThen .following)).mono ?_
  rintro (d | d) hd
  · simp [ReliefTree.relief, Relief.texts]
  · exact hd

theorem yields_agenda {institutionName : String} (hname : Over p institutionName) :
    Yields (Lexeme.Over p) agenda (fun d ↦
      ∀ text ∈ (AgendaTree.agenda institutionName d).texts, Over p text) := by
  have hreferred : Yields (Lexeme.Over p) (terminal referredName?) (fun d ↦ Over p d.value) :=
    .terminal fun l name hl hname ↦ hl.2 name (by
      cases htoken : l.token <;> simp_all [referredName?, Token.text?])
  refine (Yields.role.andThen <| ((((Yields.any compliance?).andThen <| hreferred.opt.andThen <|
    (Yields.role.opt.andThen (yields_relief hspace)).opt_mark_andThen
      .adjudicate).opt_mark_andThen .establish).mark_andThen .seek)).mono ?_
  rintro ⟨requester, seek, establish, outcome, institution, adjudicate, beneficiary, relief⟩
    ⟨hrequester, -, hinstitution, hbeneficiary, hrelief⟩
  refine List.forall_mem_cons.mpr ⟨hrequester, List.forall_mem_cons.mpr ⟨?_,
    List.forall_mem_cons.mpr ⟨?_, hrelief⟩⟩⟩
  · cases institution with
    | none => exact hname
    | some d => exact hinstitution d rfl
  · cases beneficiary with
    | none => exact hrequester
    | some d => exact hbeneficiary d rfl

theorem yields_item {institutionName : String} (hname : Over p institutionName) :
    Yields (Lexeme.Over p) item (fun d ↦
      ∀ text ∈ (ItemTree.part institutionName d).texts, Over p text) := by
  refine ((yields_norm hspace).orElse <|
    ((yields_violation hspace).mark_andThen .violation).orElse <|
    ((yields_fact hspace).mark_andThen .fact).orElse (yields_agenda hspace hname)).mono ?_
  rintro (d | d | d | d) hd
  all_goals exact hd

end Grammar.Rule

namespace Schema

open Grammar (Rule InstitutionTree SchemaTree)

theorem parts_ofParts {institution : Institution} {parts : List Part} :
    ∀ part ∈ (ofParts institution parts).parts, part ∈ parts := by
  intro part hpart
  simp only [Schema.parts, ofParts, List.mem_append, List.mem_map, List.mem_filterMap] at hpart
  rcases hpart with ((⟨_, ⟨part', hmem, h⟩, rfl⟩ | ⟨_, ⟨part', hmem, h⟩, rfl⟩) |
    ⟨_, ⟨part', hmem, h⟩, rfl⟩) | ⟨_, ⟨part', hmem, h⟩, rfl⟩
  all_goals
    obtain n | v | f | a := part'
    all_goals simp_all

/-- The texts of a schema are over the alphabet of the text in which it is written, if that has the
space. Line breaks need not belong to the alphabet. -/
theorem over_of_parse {text : String} {schema : Schema} (h : parse text = .ok schema)
    (hspace : p ' ') (htext : ∀ c ∈ text.toList, c ≠ '\n' → p c) :
    ∀ t ∈ schema.texts, Over p t := by
  obtain ⟨⟨d, ds⟩, ⟨rest, hd, hds⟩, -, rfl⟩ := ofLexemes_eq_ok_iff.mp (parse_eq_ok_iff.mp h)
  have hinstitution : Rule.Yields (Lexeme.Over p) Rule.institution (fun d ↦
      Over p (InstitutionTree.institution d).name) := by
    have hname : Rule.Yields (Lexeme.Over p) (Rule.terminal Grammar.institutionName?)
        (fun d ↦ Over p d.value) :=
      .terminal fun l name hl hname ↦ hl.2 name (by
        cases htoken : l.token <;> simp_all [Grammar.institutionName?, Token.text?])
    exact ((hname.andThen <| (Rule.Yields.any _).opt.andThen <| (Rule.Yields.any _).opt.andThen
      (Rule.Yields.any _).opt).mark_andThen .institution).mono fun d hd ↦ hd.1
  obtain ⟨hname, hrest⟩ := hinstitution hd (over_lexemes htext)
  obtain ⟨hitems, -⟩ := (Rule.yields_item hspace hname).many hds hrest
  rw [SchemaTree.schema_eq_ofParts]
  refine List.forall_mem_append.mpr ⟨by simpa [ofParts] using hname, fun t ht ↦ ?_⟩
  obtain ⟨part, hpart, ht⟩ := List.mem_flatMap.mp ht
  obtain ⟨e, he, rfl⟩ := List.mem_map.mp (parts_ofParts part hpart)
  exact hitems e he t ht

/-- No text of a schema has a line break. -/
theorem isLine_of_parse {text : String} {schema : Schema} (h : parse text = .ok schema) :
    ∀ t ∈ schema.texts, IsLine t :=
  over_of_parse h (by decide) fun _ _ hc ↦ hc

/-- The roles that a schema mentions are among its texts. -/
theorem exists_part_of_mem_mentionedRoles {schema : Schema} {role : String}
    (h : role ∈ schema.mentionedRoles) : ∃ part ∈ schema.parts, role ∈ part.texts := by
  simp only [mentionedRoles, List.mem_append, List.mem_map, List.mem_flatMap] at h
  rcases h with (⟨n, hn, rfl⟩ | ⟨v, hv, rfl⟩) | ⟨a, ha, hrole⟩
  · exact ⟨.inl n, by simp [parts, hn], by simp [Part.texts, Norm.texts]⟩
  · exact ⟨.inr (.inl v), by simp [parts, hv], by simp [Part.texts, Violation.texts]⟩
  · refine ⟨.inr (.inr (.inr a)), by simp [parts, ha], ?_⟩
    rcases List.mem_cons.mp hrole with rfl | hrole
    · simp [Part.texts, Agenda.texts]
    · simp [Part.texts, Agenda.texts, List.mem_singleton.mp hrole]

end Schema

end Normative
