import Normative.Proofs.Grammar.Recognition

/-!
# Productions stop at the lexeme that stops them

A production decides at every lexeme without knowing how the text goes on. Once there is a lexeme
at which it stops, be it the first one that it leaves or one that it does not expect, its result is
settled: further lexemes at the end of the input are left where they are.

Only a phrase looks further than one lexeme ahead, since a role is a word unless the word for
seeking comes after it. It stops at such a role only if that word is there, so that nothing is
decided by the end of the input.

## Main definitions

* `Grammar.IsSettled` : a result that names the lexeme at which it was reached.
* `Grammar.Prompt` : a production whose settled results do not depend on what comes after.

## Main results

* `Grammar.Prompt.bind`, `Grammar.prompt_phrase`, `Grammar.prompt_joinedList` : the ways to build
  productions.
* `Grammar.prompt_item`, `Grammar.prompt_institution` : the two parts of a schema.
-/

namespace Normative.Grammar

variable {α β : Type} {input rest : List Lexeme}

/-- A fault of the grammar that names the lexeme that was not expected. -/
def NamesLexeme : ParseFault → Prop
  | .unexpected _ found => found ≠ none
  | .refused _ _ => False

/-- A result is settled if there is a lexeme at which it was reached: one that is left, or one that
was not expected. -/
def IsSettled : Except ParseFault (α × List Lexeme) → Prop
  | .ok r => r.2 ≠ []
  | .error fault => NamesLexeme fault

/-- A result with further lexemes after those that are left. -/
def followedBy (more : List Lexeme) (result : Except ParseFault (α × List Lexeme)) :
    Except ParseFault (α × List Lexeme) :=
  result.map fun r ↦ (r.1, r.2 ++ more)

@[simp] theorem isSettled_ok {a : α} :
    IsSettled (.ok (a, rest) : Except ParseFault (α × List Lexeme)) ↔ rest ≠ [] := Iff.rfl

@[simp] theorem isSettled_fail {expected : Expectation} :
    IsSettled (fail expected input : Except ParseFault (α × List Lexeme)) ↔ input ≠ [] := by
  cases input <;> simp [fail, IsSettled, NamesLexeme]

@[simp] theorem followedBy_ok (more : List Lexeme) (a : α) :
    followedBy more (.ok (a, rest)) = .ok (a, rest ++ more) := rfl

theorem followedBy_fail (more : List Lexeme) {expected : Expectation} (h : input ≠ []) :
    followedBy more (fail expected input : Except ParseFault (α × List Lexeme)) =
      fail expected (input ++ more) := by
  obtain ⟨l, tail, rfl⟩ := List.exists_cons_of_ne_nil h
  rfl

/-- A production whose settled results do not depend on what comes after the input. Nothing can be
settled by an empty input. -/
structure Prompt (production : Production α) : Prop where
  append : ∀ input more, IsSettled (production input) →
    production (input ++ more) = followedBy more (production input)
  nil : ¬ IsSettled (production [])

/-! ### Single lexemes -/

theorem prompt_return (a : α) : Prompt (fun input ↦ .ok (a, input)) :=
  ⟨fun _ _ _ ↦ rfl, fun h ↦ h rfl⟩

theorem prompt_take (value? : Token → Option α) (expected : Expectation) :
    Prompt (take value? expected) where
  append := by
    intro input more h
    cases input with
    | nil => simp [take] at h
    | cons l tail =>
      rw [List.cons_append, take, take]
      cases value? l.token with
      | some a => rfl
      | none => exact (followedBy_fail more (List.cons_ne_nil l tail)).symm
  nil := by simp [take]

theorem prompt_expect (token : Token) (expected : Expectation) : Prompt (expect token expected) :=
  prompt_take _ _

theorem prompt_fail (expected : Expectation) : Prompt (α := α) (fail expected) where
  append _ more h := (followedBy_fail more (isSettled_fail.mp h)).symm
  nil := by simp

theorem prompt_takeOr (value? : Token → Option α) (default : α) :
    Prompt (fun input ↦ .ok (takeOr value? default input)) where
  append := by
    intro input more h
    cases input with
    | nil => simp [takeOr] at h
    | cons l tail =>
      rw [List.cons_append, takeOr, takeOr]
      cases value? l.token <;> rfl
  nil := by simp [takeOr]

theorem prompt_skip (token : Token) : Prompt (fun input ↦ .ok ((), skip token input)) where
  append := by
    intro input more h
    cases input with
    | nil => simp [skip] at h
    | cons l tail =>
      rw [List.cons_append, skip, skip]
      split <;> rfl
  nil := by simp [skip]

/-! ### One production after another -/

/-- The second of two productions settles nothing if the first one has left nothing to it. -/
theorem Prompt.bind {first : Production α} {second : α → Production β} (hfirst : Prompt first)
    (hsecond : ∀ a, Prompt (second a)) :
    Prompt (fun input ↦ first input >>= fun r ↦ second r.1 r.2) where
  append := by
    intro input more hsettled
    have happend := hfirst.append input more
    cases hresult : first input with
    | error fault =>
      rw [hresult] at hsettled happend
      have hfault : NamesLexeme fault := hsettled
      rw [happend hfault]
      rfl
    | ok r =>
      obtain ⟨a, rest⟩ := r
      rw [hresult] at hsettled happend
      -- Otherwise the first production might have read on, if there had been more.
      have hrest : rest ≠ [] := by
        rintro rfl
        exact (hsecond a).nil hsettled
      rw [happend hrest]
      exact (hsecond a).append _ more hsettled
  nil := by
    intro hsettled
    have hnil := hfirst.nil
    cases hresult : first [] with
    | error fault =>
      rw [hresult] at hsettled hnil
      exact hnil hsettled
    | ok r =>
      obtain ⟨a, rest⟩ := r
      rw [hresult] at hsettled hnil
      obtain rfl : rest = [] := Classical.not_not.mp hnil
      exact (hsecond a).nil hsettled

theorem Prompt.map {production : Production α} (h : Prompt production) (f : α → β) :
    Prompt (fun input ↦ (production input).map fun r ↦ (f r.1, r.2)) := by
  have hbind := h.bind fun a ↦ prompt_return (f a)
  have heq : (fun input ↦ (production input).map fun r ↦ (f r.1, r.2)) =
      fun input ↦ production input >>= fun r ↦ .ok (f r.1, r.2) := by
    funext input
    cases production input <;> rfl
  rw [heq]
  exact hbind

/-! ### Phrases and lists -/

/-- Two lexemes tell whether an agenda is opened. -/
theorem opensAgenda_append {l : Lexeme} {tail : List Lexeme} (more : List Lexeme)
    (h : tail ≠ []) : opensAgenda (l :: (tail ++ more)) = opensAgenda (l :: tail) := by
  obtain ⟨l', tail, rfl⟩ := List.exists_cons_of_ne_nil h
  obtain ⟨token, _, _⟩ := l
  obtain ⟨token', _, _⟩ := l'
  cases token with
  | role text => cases token' <;> rfl
  | _ => rfl

/-- A phrase that leaves a lexeme ends there, whatever comes after the input. -/
theorem phraseWords_append (joined started : Bool) (more : List Lexeme)
    (h : (phraseWords joined started input).2 ≠ []) :
    phraseWords joined started (input ++ more) =
      ((phraseWords joined started input).1, (phraseWords joined started input).2 ++ more) := by
  induction input generalizing started with
  | nil => exact absurd rfl h
  | cons l tail ih =>
    rw [phraseWords_cons] at h ⊢
    rw [List.cons_append, phraseWords_cons]
    by_cases hopen : opensAgenda (l :: tail) = true
    · have htail : tail ≠ [] := by
        rintro rfl
        simp [opensAgenda] at hopen
      rw [opensAgenda_append more htail, if_pos hopen, if_pos hopen]
      rfl
    · rw [if_neg hopen] at h ⊢
      cases htext : wordText? (joined && started) l with
      | none =>
        dsimp only
        split <;> rfl
      | some text =>
        rw [htext] at h
        -- A word is followed by a lexeme of the input, so what comes after does not change it.
        have htail : tail ≠ [] := by
          rintro rfl
          exact h rfl
        rw [opensAgenda_append more htail, if_neg hopen]
        dsimp only
        rw [ih true h]

theorem phraseWords_of_isEmpty {joined started : Bool}
    (h : (phraseWords joined started input).1 = []) :
    phraseWords joined started input = ([], input) := by
  cases input with
  | nil => rfl
  | cons l tail =>
    rw [phraseWords_cons] at h ⊢
    split
    · rfl
    · rename_i hopen
      rw [if_neg hopen] at h
      split
      · rename_i htext
        simp [htext] at h
      · rfl

theorem prompt_phrase (expected : Expectation) (joined : Bool) :
    Prompt (phrase expected joined) where
  append := by
    intro input more h
    by_cases hwords : (phraseWords joined false input).1 = []
    · have hall := phraseWords_of_isEmpty hwords
      simp only [phrase, hall, List.isEmpty_nil, if_true] at h ⊢
      have hinput : input ≠ [] := isSettled_fail.mp h
      rw [phraseWords_append joined false more (by rwa [hall]), hall, followedBy_fail more hinput]
      rfl
    · have hne : (phraseWords joined false input).1.isEmpty = false := by simpa using hwords
      simp only [phrase, hne, Bool.false_eq_true, if_false, isSettled_ok] at h ⊢
      rw [phraseWords_append joined false more h]
      simp only [hne, Bool.false_eq_true, if_false, followedBy_ok]
  nil := by simp [phrase, phraseWords]

theorem joinedList_of_error {production : Production α} {hshrinks : Shrinks production}
    {fault : ParseFault} (hp : production input = .error fault) :
    joinedList production hshrinks input = .error fault := by
  rw [joinedList]
  split
  · rename_i fault' hp'
    rw [hp] at hp'
    exact congrArg Except.error (Except.error.inj hp').symm
  · rename_i hp'
    simp [hp] at hp'

theorem prompt_joinedList {production : Production α} (hproduction : Prompt production)
    (hshrinks : Shrinks production) : Prompt (joinedList production hshrinks) where
  append := by
    intro input
    fun_induction joinedList production hshrinks input with
    | case1 input fault hp =>
      intro more h
      have hfault : NamesLexeme fault := h
      have happend := hproduction.append input more (by rw [hp]; exact hfault)
      rw [hp] at happend
      exact joinedList_of_error happend
    | case2 input a position raw tail hp _ ih =>
      intro more h
      have happend := hproduction.append input more (by rw [hp]; simp)
      rw [hp, followedBy_ok, List.cons_append] at happend
      have hlist : IsSettled (joinedList production hshrinks tail) := by
        cases hresult : joinedList production hshrinks tail with
        | ok r => rwa [hresult] at h
        | error fault => rw [hresult] at h; exact h
      rw [joinedList_of_conjunction happend, ih more hlist]
      cases joinedList production hshrinks tail <;> rfl
    | case3 input a remaining hp _ hlast =>
      intro more h
      have hne : remaining ≠ [] := h
      have happend := hproduction.append input more (by rw [hp]; exact hne)
      rw [hp, followedBy_ok] at happend
      obtain ⟨l, tail, rfl⟩ := List.exists_cons_of_ne_nil hne
      obtain ⟨token, position, raw⟩ := l
      have htoken : token ≠ .conjunction := by
        rintro rfl
        exact hlast position raw tail hp rfl HEq.rfl
      exact joinedList_of_last happend (Rule.lacks_cons.mpr (by simp [Rule.isToken?, htoken]))
  nil := by
    have hnil := hproduction.nil
    cases hp : production [] with
    | error fault =>
      rw [hp] at hnil
      rw [joinedList_of_error hp]
      exact hnil
    | ok r =>
      have := hshrinks [] r.1 r.2 hp
      simp at this

/-! ### Parts that a mark opens -/

/-- Read one thing after a mark, and another where the mark is missing. -/
def ifMark (token : Token) (inside outside : Production α) : Production α
  | [] => outside []
  | l :: rest => if l.token = token then inside rest else outside (l :: rest)

theorem prompt_ifMark (token : Token) {inside outside : Production α} (hinside : Prompt inside)
    (houtside : Prompt outside) : Prompt (ifMark token inside outside) where
  append := by
    intro input more h
    cases input with
    | nil => exact absurd h houtside.nil
    | cons l tail =>
      rw [List.cons_append]
      by_cases hl : l.token = token
      · simp only [ifMark, if_pos hl] at h ⊢
        exact hinside.append _ more h
      · simp only [ifMark, if_neg hl] at h ⊢
        exact houtside.append _ more h
  nil := houtside.nil

theorem ifMark_of_ne {token : Token} {inside outside : Production α}
    (h : ∀ position raw tail, input ≠ ⟨token, position, raw⟩ :: tail) :
    ifMark token inside outside input = outside input := by
  cases input with
  | nil => rfl
  | cons l tail =>
    have hl : l.token ≠ token := fun hl ↦ h l.position l.raw tail (by rw [← hl])
    simp only [ifMark, if_neg hl]

theorem condition_eq :
    condition = ifMark .normReference
      (fun input ↦ (number input).map fun r ↦ (.norm r.1, r.2))
      (fun input ↦ (phrase .condition false input).map fun r ↦ (.text r.1, r.2)) := by
  funext input
  unfold condition
  split
  · rfl
  · rename_i h
    rw [ifMark_of_ne h]

theorem scope_eq :
    scope = ifMark .scope (fun input ↦ (phrase .scope true input).map fun r ↦ (some r.1, r.2))
      (fun input ↦ .ok (none, input)) := by
  funext input
  unfold scope
  split
  · rfl
  · rename_i h
    rw [ifMark_of_ne h]

theorem conditions_eq :
    conditions = ifMark .conditional (joinedList condition condition_shrinks)
      (fun input ↦ .ok ([], input)) := by
  funext input
  unfold conditions
  split
  · rfl
  · rename_i h
    rw [ifMark_of_ne h]

theorem violatedNorms_eq :
    violatedNorms = fun input ↦ reference input >>= fun r ↦
      ifMark .conjunction (fun input ↦ (reference input).map fun s ↦ (.compound r.1 s.1, s.2))
        (fun input ↦ .ok (.single r.1, input)) r.2 := by
  funext input
  unfold violatedNorms
  refine congrArg (reference input >>= ·) (funext fun r ↦ ?_)
  dsimp only
  split
  · rename_i h
    rw [h]
    rfl
  · rename_i h
    rw [ifMark_of_ne h]
    rfl

theorem relief_eq :
    relief = ifMark .essential (fun input ↦ .ok (.essential, input))
      (ifMark .following (fun input ↦ (joinedList (phrase .remedy false) (phrase_shrinks _ _)
        input).map fun r ↦ (.remedies r.1, r.2)) (fail .relief)) := by
  funext input
  unfold relief
  split
  · rfl
  · rfl
  · rename_i hessential hfollowing
    exact ((ifMark_of_ne hessential).trans (ifMark_of_ne hfollowing)).symm

/-! ### The parts of a schema -/

theorem prompt_number : Prompt number := prompt_take _ _

theorem prompt_role : Prompt role := prompt_take _ _

theorem prompt_institution : Prompt institution := by
  have h := (prompt_expect .institution .institutionMarker).bind fun _ ↦
    (prompt_take institutionName? .institutionName).bind fun name ↦
    (prompt_takeOr institutionType? "contrato").bind fun typeName ↦
    (prompt_takeOr multiplicity? .multiple).bind fun multiplicity ↦
    (prompt_takeOr legalDomain? "").bind fun legalDomain ↦
    prompt_return (⟨name, typeName, multiplicity, legalDomain⟩ : Institution)
  exact h

theorem prompt_condition : Prompt condition := by
  rw [condition_eq]
  exact prompt_ifMark _ (prompt_number.map _) ((prompt_phrase _ _).map _)

theorem prompt_scope : Prompt scope := by
  rw [scope_eq]
  exact prompt_ifMark _ ((prompt_phrase _ _).map _) (prompt_return _)

theorem prompt_conditions : Prompt conditions := by
  rw [conditions_eq]
  exact prompt_ifMark _ (prompt_joinedList prompt_condition _) (prompt_return _)

theorem prompt_norm : Prompt norm := by
  have h := prompt_number.bind fun id ↦ prompt_role.bind fun role ↦
    (prompt_take deontic? .deontic).bind fun deontic ↦
    (prompt_phrase .action true).bind fun action ↦
    prompt_scope.bind fun scope ↦ prompt_conditions.bind fun conditions ↦
    prompt_return (⟨id, role, deontic, action, scope, conditions, .authored⟩ : Norm)
  exact h

theorem prompt_reference : Prompt reference := by
  have h := (prompt_skip .normReference).bind fun _ ↦ prompt_number
  exact h

theorem prompt_violatedNorms : Prompt violatedNorms := by
  rw [violatedNorms_eq]
  exact prompt_reference.bind fun first ↦
    prompt_ifMark .conjunction (prompt_reference.map _) (prompt_return _)

theorem prompt_violation : Prompt violation := by
  have h := prompt_violatedNorms.bind fun norms ↦
    (prompt_expect .consequence .consequenceMarker).bind fun _ ↦ prompt_role.bind fun role ↦
    (prompt_takeOr deontic? .claimRight).bind fun deontic ↦
    (prompt_phrase .consequence true).bind fun consequence ↦
    prompt_return (⟨norms, role, deontic, consequence⟩ : Violation)
  exact h

theorem prompt_fact : Prompt fact := by
  have h := (prompt_phrase .factDescription true).bind fun description ↦
    (prompt_expect .evidence .evidenceMarker).bind fun _ ↦
    (prompt_phrase .evidence true).bind fun evidence ↦
    prompt_return (⟨description, evidence⟩ : LegalFact)
  exact h

theorem prompt_relief : Prompt relief := by
  rw [relief_eq]
  exact prompt_ifMark _ (prompt_return _) <| prompt_ifMark _
    ((prompt_joinedList (prompt_phrase _ _) _).map _) (prompt_fail _)

theorem prompt_agenda (institutionName : String) : Prompt (agenda institutionName) := by
  have h := prompt_role.bind fun requester ↦ (prompt_expect .seek .seek).bind fun _ ↦
    (prompt_skip .establish).bind fun _ ↦ (prompt_take compliance? .compliance).bind fun outcome ↦
    (prompt_takeOr referredName? institutionName).bind fun institution ↦
    (prompt_skip .adjudicate).bind fun _ ↦ (prompt_takeOr role? requester).bind fun beneficiary ↦
    prompt_relief.bind fun relief ↦
    prompt_return (⟨requester, outcome, institution, beneficiary, relief⟩ : Agenda)
  exact h

theorem prompt_item (institutionName : String) : Prompt (item institutionName) where
  append := by
    intro input more h
    cases input with
    | nil => simp [item] at h
    | cons l tail =>
      rw [List.cons_append]
      unfold item at h ⊢
      dsimp only at h ⊢
      cases hkind : itemKind? l.token with
      | none => exact (prompt_fail .item).append (l :: tail) more (by simp)
      | some kind =>
        rw [hkind] at h
        cases kind with
        | norm => exact (prompt_norm.map (Item.norm l)).append _ more h
        | violation => exact (prompt_violation.map Item.violation).append _ more h
        | fact => exact (prompt_fact.map Item.fact).append _ more h
        | agenda => exact ((prompt_agenda institutionName).map Item.agenda).append _ more h
  nil := by simp [item]

end Normative.Grammar
