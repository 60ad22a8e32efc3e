import Normative.Proofs.Grammar.Unambiguity

/-!
# Derivations can be moved

What a derivation denotes depends on what its lexemes read and not on where they stand. A derivation
can also be moved to the front of other lexemes, as long as these do not begin with the word for
seeking: that word, and no other, changes how a lexeme before it is read, since it makes an agenda
of a role that would be a word.

## Main definitions

* `Lexeme.reading`, `Grammar.Alike` : lexemes that differ at most in their places.
* `Grammar.Rule.Portable` : a rule whose derivations can be moved.

## Main results

* `Grammar.Rule.portable_norm`, `Grammar.Rule.portable_violation`, `Grammar.Rule.portable_fact`,
  `Grammar.Rule.portable_agenda`, `Grammar.Rule.portable_institution` : the derivations of the parts
  of a schema can be moved.
-/

namespace Normative

/-- What a lexeme reads, wherever it stands. -/
def Lexeme.reading (l : Lexeme) : Token × String := (l.token, l.raw)

namespace Grammar

variable {α β δ ε : Type} {input rest : List Lexeme}

/-- Lexemes that read the same, one by one. -/
def Alike (ls ls' : List Lexeme) : Prop := ls.map Lexeme.reading = ls'.map Lexeme.reading

theorem alike_nil {ls : List Lexeme} : Alike ls [] ↔ ls = [] := List.map_eq_nil_iff

theorem alike_cons {ls tail : List Lexeme} {l : Lexeme} :
    Alike ls (l :: tail) ↔
      ∃ l' tail', ls = l' :: tail' ∧ l'.reading = l.reading ∧ Alike tail' tail := by
  rw [Alike, List.map_cons, List.map_eq_cons_iff]
  rfl

theorem alike_append {ls front back : List Lexeme} :
    Alike ls (front ++ back) ↔
      ∃ front' back', ls = front' ++ back' ∧ Alike front' front ∧ Alike back' back := by
  rw [Alike, List.map_append, List.map_eq_append_iff]
  rfl

/-! ### Words before other lexemes -/

theorem opensAgenda_iff :
    opensAgenda input = true ↔ ∃ l l' tail text, input = l :: l' :: tail ∧
      l.token = .role text ∧ l'.token = .seek := by
  constructor
  · intro h
    unfold opensAgenda at h
    split at h
    · exact ⟨_, _, _, _, rfl, rfl, rfl⟩
    · exact absurd h Bool.false_ne_true
  · rintro ⟨l, l', tail, text, rfl, hl, hl'⟩
    exact Rule.opensAgenda_of_tokens hl hl'

theorem wordText?_congr {l l' : Lexeme} (h : l'.reading = l.reading) (joined : Bool) :
    wordText? joined l' = wordText? joined l := by
  obtain ⟨htoken, hraw⟩ := Prod.mk.inj h
  rw [wordText?, wordText?, htoken, hraw]

namespace Rule

/-- A role that opens no agenda opens none where it is moved to. -/
theorem opensAgenda_of_alike {l l' : Lexeme} {tail tail' after : List Lexeme}
    (hl : l'.reading = l.reading) (htail : Alike tail' tail)
    (hopen : opensAgenda (l :: tail) = false) (hafter : Lacks (isToken? .seek) after) :
    opensAgenda (l' :: (tail' ++ after)) = false := by
  refine Bool.eq_false_iff.mpr fun h ↦ ?_
  obtain ⟨_, m', more, text, heq, hrole, hseek⟩ := opensAgenda_iff.mp h
  obtain ⟨rfl, hmore⟩ := List.cons.inj heq
  have hlrole : l.token = .role text := (Prod.mk.inj hl).1.symm.trans hrole
  -- The lexeme after the role is one of those that follow, or it was there before.
  cases tail with
  | nil =>
    rw [alike_nil.mp htail, List.nil_append] at hmore
    rw [hmore, lacks_cons, hseek] at hafter
    exact absurd hafter (by decide)
  | cons m tail =>
    obtain ⟨_, _, rfl, hm, -⟩ := alike_cons.mp htail
    obtain ⟨rfl, -⟩ := List.cons.inj hmore
    rw [opensAgenda_of_tokens hlrole ((Prod.mk.inj hm).1.symm.trans hseek)] at hopen
    exact Bool.false_ne_true hopen.symm

/-! ### Ways to build rules -/

/-- A rule whose derivations can be moved to lexemes that read the same and are followed by others,
which do not begin with the word for seeking. What they denote stays the same. -/
def Portable (rule : Rule δ) (value : δ → α) : Prop :=
  ∀ ⦃input d rest input'⦄ (after : List Lexeme), rule input d rest → Alike input' input →
    Lacks (isToken? .seek) after →
    ∃ d' rest', rule (input' ++ after) d' (rest' ++ after) ∧ Alike rest' rest ∧ value d' = value d

namespace Portable

variable {rule first : Rule δ} {second : Rule ε} {v : δ → α} {w : ε → β}

theorem map (f : α → β) (h : Portable rule v) {w : δ → β} (hw : ∀ d, w d = f (v d)) :
    Portable rule w := by
  intro input d rest input' after hd halike hafter
  obtain ⟨d', rest', hd', hrest, hvalue⟩ := h after hd halike hafter
  exact ⟨d', rest', hd', hrest, by rw [hw, hw, hvalue]⟩

theorem terminal (value? : Token → Option α) : Portable (terminal value?) Leaf.value := by
  rintro input ⟨l, a⟩ rest input' after ⟨rfl, ha⟩ halike -
  obtain ⟨l', rest', rfl, hl, hrest⟩ := alike_cons.mp halike
  have htoken : l'.token = l.token := (Prod.mk.inj hl).1
  exact ⟨⟨l', a⟩, rest', ⟨rfl, (congrArg value? htoken).trans ha⟩, hrest, rfl⟩

theorem mark (token : Token) : Portable (mark token) Leaf.value := terminal _

theorem word (joined : Bool) : Portable (word joined) Leaf.value := by
  rintro input ⟨l, a⟩ rest input' after ⟨rfl, hopen, ha⟩ halike hafter
  obtain ⟨l', rest', rfl, hl, hrest⟩ := alike_cons.mp halike
  exact ⟨⟨l', a⟩, rest', ⟨rfl, opensAgenda_of_alike hl hrest hopen hafter,
    (wordText?_congr hl joined).trans ha⟩, hrest, rfl⟩

theorem andThen (hfirst : Portable first v) (hsecond : Portable second w) :
    Portable (first.andThen second) (Prod.map v w) := by
  rintro input ⟨d, e⟩ rest input' after ⟨middle, hd, he⟩ halike hafter
  obtain ⟨d', middle', hd', hmiddle, hvalue⟩ := hfirst after hd halike hafter
  obtain ⟨e', rest', he', hrest, hvalue'⟩ := hsecond after he hmiddle hafter
  exact ⟨(d', e'), rest', ⟨_, hd', he'⟩, hrest, Prod.ext hvalue hvalue'⟩

theorem opt (h : Portable rule v) : Portable rule.opt (Option.map v) := by
  rintro input (_ | d) rest input' after hd halike hafter
  · obtain rfl : rest = input := hd
    exact ⟨none, input', rfl, halike, rfl⟩
  · obtain ⟨d', rest', hd', hrest, hvalue⟩ := h after hd halike hafter
    exact ⟨some d', rest', hd', hrest, congrArg some hvalue⟩

theorem orElse (hfirst : Portable first v) (hsecond : Portable second w) :
    Portable (first.orElse second) (Sum.map v w) := by
  rintro input (d | e) rest input' after hd halike hafter
  · obtain ⟨d', rest', hd', hrest, hvalue⟩ := hfirst after hd halike hafter
    exact ⟨.inl d', rest', hd', hrest, congrArg Sum.inl hvalue⟩
  · obtain ⟨e', rest', he', hrest, hvalue⟩ := hsecond after hd halike hafter
    exact ⟨.inr e', rest', he', hrest, congrArg Sum.inr hvalue⟩

theorem many (h : Portable rule v) : Portable rule.many (List.map v) := by
  intro input ds
  induction ds generalizing input with
  | nil =>
    intro rest input' after hd halike hafter
    obtain rfl : rest = input := hd
    exact ⟨[], input', rfl, halike, rfl⟩
  | cons d ds ih =>
    rintro rest input' after ⟨middle, hd, hds⟩ halike hafter
    obtain ⟨d', middle', hd', hmiddle, hvalue⟩ := h after hd halike hafter
    obtain ⟨ds', rest', hds', hrest, hvalues⟩ := ih after hds hmiddle hafter
    exact ⟨d' :: ds', rest', ⟨_, hd', hds'⟩, hrest, by rw [List.map_cons, hvalue, hvalues]; rfl⟩

theorem mark_andThen (token : Token) (h : Portable rule v) :
    Portable ((Rule.mark token).andThen rule) (fun d ↦ v d.2) :=
  ((mark token).andThen h).map Prod.snd fun _ ↦ rfl

theorem opt_mark_andThen (token : Token) (h : Portable rule v) :
    Portable ((Rule.mark token).opt.andThen rule) (fun d ↦ v d.2) :=
  ((mark token).opt.andThen h).map Prod.snd fun _ ↦ rfl

end Portable

/-! ### The parts of a schema -/

theorem portable_phrase (joined : Bool) : Portable (phrase joined) PhraseTree.text :=
  ((Portable.word false).andThen (Portable.word joined).many).map
    (fun words ↦ " ".intercalate (words.1 :: words.2)) fun _ ↦ rfl

theorem portable_joined {rule : Rule δ} {v : δ → α} (h : Portable rule v) :
    Portable rule.joined (JoinedTree.members v) :=
  (h.andThen (h.mark_andThen .conjunction).many).map (fun members ↦ members.1 :: members.2)
    fun _ ↦ rfl

theorem portable_condition : Portable condition ConditionTree.condition :=
  (((Portable.terminal number?).mark_andThen .normReference).orElse (portable_phrase false)).map
    (Sum.elim Condition.norm Condition.text) fun d ↦ by cases d <;> rfl

theorem portable_norm : Portable norm NormTree.norm := by
  have hscope := ((portable_phrase true).mark_andThen .scope).opt
  have hconditions := (((portable_joined portable_condition).mark_andThen .conditional).opt).map
    (·.getD []) fun _ ↦ rfl
  exact ((Portable.terminal number?).andThen <| (Portable.terminal role?).andThen <|
    (Portable.terminal deontic?).andThen <| (portable_phrase true).andThen <|
      hscope.andThen hconditions).map
    (fun p ↦ (⟨p.1, p.2.1, p.2.2.1, p.2.2.2.1, p.2.2.2.2.1, p.2.2.2.2.2, .authored⟩ : Norm))
    fun _ ↦ rfl

theorem portable_reference : Portable reference (fun d ↦ d.2.value) :=
  (Portable.terminal number?).opt_mark_andThen .normReference

theorem portable_violatedNorms : Portable violatedNorms ViolatedTree.norms :=
  (portable_reference.andThen (portable_reference.mark_andThen .conjunction).opt).map
    (fun ids ↦ ids.2.elim (.single ids.1) (.compound ids.1)) fun d ↦ by
      obtain ⟨first, _ | second⟩ := d <;> rfl

theorem portable_violation : Portable violation ViolationTree.violation :=
  (portable_violatedNorms.andThen <| ((Portable.terminal role?).andThen <|
    (Portable.terminal deontic?).opt.andThen (portable_phrase true)).mark_andThen .consequence).map
    (fun p ↦ (⟨p.1, p.2.1, p.2.2.1.getD .claimRight, p.2.2.2⟩ : Violation)) fun _ ↦ rfl

theorem portable_fact : Portable fact FactTree.fact :=
  ((portable_phrase true).andThen ((portable_phrase true).mark_andThen .evidence)).map
    (fun p ↦ (⟨p.1, p.2⟩ : LegalFact)) fun _ ↦ rfl

theorem portable_relief : Portable relief ReliefTree.relief :=
  ((Portable.mark .essential).orElse
    ((portable_joined (portable_phrase false)).mark_andThen .following)).map
    (Sum.elim (fun _ ↦ Relief.essential) Relief.remedies) fun d ↦ by cases d <;> rfl

theorem portable_agenda (institutionName : String) :
    Portable agenda (AgendaTree.agenda institutionName) := by
  have hrelief := ((Portable.terminal role?).opt.andThen portable_relief).opt_mark_andThen
    .adjudicate
  have hsought := ((Portable.terminal compliance?).andThen
    ((Portable.terminal referredName?).opt.andThen hrelief)).opt_mark_andThen .establish
  exact ((Portable.terminal role?).andThen (hsought.mark_andThen .seek)).map
    (fun p ↦ (⟨p.1, p.2.1, p.2.2.1.getD institutionName, p.2.2.2.1.getD p.1, p.2.2.2.2⟩ : Agenda))
    fun _ ↦ rfl

theorem portable_institution : Portable institution InstitutionTree.institution :=
  (((Portable.terminal institutionName?).andThen <| (Portable.terminal institutionType?).opt.andThen
    <| (Portable.terminal multiplicity?).opt.andThen
      (Portable.terminal legalDomain?).opt).mark_andThen .institution).map
    (fun p ↦ (⟨p.1, p.2.1.getD "contrato", p.2.2.1.getD .multiple, p.2.2.2.getD ""⟩ : Institution))
    fun _ ↦ rfl

end Rule

end Grammar

end Normative
