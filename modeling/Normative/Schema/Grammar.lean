import Normative.Schema.Fault

/-!
# The grammar of schemas

A schema is written as an institution followed by items in any order:

```text
schema      := institution item*
institution := INSTITUTION name TYPE? MULTIPLICITY? DOMAIN?
item        := norm | violation | fact | agenda
norm        := NUMBER ROLE DEONTIC phrase (SCOPE phrase)? (CONDITIONAL cond (CONJUNCTION cond)*)?
cond        := NORM_REFERENCE NUMBER | phrase
violation   := VIOLATION NORM_REFERENCE? NUMBER (CONJUNCTION NORM_REFERENCE? NUMBER)?
               CONSEQUENCE ROLE DEONTIC? phrase
fact        := FACT phrase EVIDENCE phrase
agenda      := ROLE SEEK ESTABLISH? COMPLIANCE name? ADJUDICATE? ROLE?
               (ESSENTIAL | FOLLOWING phrase (CONJUNCTION phrase)*)
```

A phrase is a run of tokens that carry a text. It ends before a role that opens an agenda. The
conjunction is a word of a phrase, except in conditions and remedies, where it separates them.

Each production takes the lexemes that are left and returns what it read with those that remain.

## Main definitions

* `Grammar.Production` : a function that reads something from the front of a list of lexemes.
* `Grammar.institution`, `Grammar.item` : the two parts of a schema.

## Main results

* `Grammar.item_shrinks` : an item is never read from nothing, so that the items of a text can be
  read one after the other.
-/

namespace Normative.Grammar

/-- A production: it reads something from the lexemes that are left and returns those that
remain. -/
abbrev Production (α : Type) := List Lexeme → Except ParseFault (α × List Lexeme)

/-- A production that never succeeds without reading a lexeme. -/
def Shrinks {α : Type} (production : Production α) : Prop :=
  ∀ input a rest, production input = .ok (a, rest) → rest.length < input.length

/-- A production that never returns more lexemes than it was given. -/
def Keeps {α : Type} (production : Production α) : Prop :=
  ∀ input a rest, production input = .ok (a, rest) → rest.length ≤ input.length

/-- A step after another succeeds exactly if both do. -/
theorem bind_eq_ok {ε α β : Type} {x : Except ε α} {f : α → Except ε β} {b : β} :
    x >>= f = .ok b ↔ ∃ a, x = .ok a ∧ f a = .ok b := by
  cases x <;> simp [bind, Except.bind]

theorem map_eq_ok {ε α β : Type} {x : Except ε α} {f : α → β} {b : β} :
    x.map f = .ok b ↔ ∃ a, x = .ok a ∧ f a = b := by
  cases x <;> simp [Except.map]

/-! ### Single lexemes -/

/-- The fault of finding the next lexeme in place of what was expected. -/
def fail {α : Type} (expected : Expectation) (input : List Lexeme) : Except ParseFault α :=
  .error (.unexpected expected input.head?)

@[simp] theorem fail_ne_ok {α : Type} (expected : Expectation) (input : List Lexeme) (a : α) :
    fail expected input ≠ .ok a := by
  simp [fail]

/-- Pass over a token, if it is the next one. -/
def skip (token : Token) : List Lexeme → List Lexeme
  | [] => []
  | l :: rest => if l.token = token then rest else l :: rest

theorem length_skip_le (token : Token) (input : List Lexeme) :
    (skip token input).length ≤ input.length := by
  unfold skip
  split
  · exact Nat.le_refl _
  · split <;> simp

/-- Read a lexeme whose token carries a value of the kind that is wanted. -/
def take {α : Type} (value? : Token → Option α) (expected : Expectation) : Production α
  | [] => fail expected []
  | l :: rest =>
    match value? l.token with
    | some a => .ok (a, rest)
    | none => fail expected (l :: rest)

theorem take_shrinks {α : Type} (value? : Token → Option α) (expected : Expectation) :
    Shrinks (take value? expected) := by
  intro input a rest h
  unfold take at h
  split at h
  · simp at h
  · split at h <;> simp_all

/-- Read a lexeme whose token carries a value of the kind that is wanted, if it is the next one;
take `default` otherwise. -/
def takeOr {α : Type} (value? : Token → Option α) (default : α) : List Lexeme → α × List Lexeme
  | [] => (default, [])
  | l :: rest =>
    match value? l.token with
    | some a => (a, rest)
    | none => (default, l :: rest)

theorem length_takeOr_le {α : Type} (value? : Token → Option α) (default : α)
    (input : List Lexeme) : (takeOr value? default input).2.length ≤ input.length := by
  unfold takeOr
  split
  · exact Nat.le_refl _
  · split <;> simp

/-- Read a given token. -/
def expect (token : Token) (expected : Expectation) : Production Unit :=
  take (fun t ↦ if t = token then some () else none) expected

/-- The number that a token carries. -/
def number? : Token → Option NormId
  | .number id => some id
  | _ => none

/-- The deontic position that a token carries. -/
def deontic? : Token → Option Deontic
  | .deontic position => some position
  | _ => none

/-- The outcome that a token carries. -/
def compliance? : Token → Option Compliance
  | .compliance outcome => some outcome
  | _ => none

/-- A role without the article in front of it. -/
def withoutArticle (role : String) : String :=
  if Text.startsFold role "el-" || Text.startsFold role "la-" then
    String.ofList (role.toList.drop 3)
  else role

/-- The role that a token carries, without its article. -/
def role? : Token → Option String
  | .role text => some (withoutArticle text)
  | _ => none

/-- The name of an institution that a token carries where the institution is introduced. -/
def institutionName? : Token → Option String
  | .name text | .word text | .quoted text => some text
  | _ => none

/-- The name of an institution that a token carries where the institution is referred to. -/
def referredName? : Token → Option String
  | .name text | .quoted text => some text
  | _ => none

/-- The type of institution that a token carries. -/
def institutionType? : Token → Option String
  | .institutionType text => some text
  | _ => none

/-- The multiplicity that a token carries. -/
def multiplicity? : Token → Option Multiplicity
  | .multiplicity text => some (Multiplicity.ofKeyword text)
  | _ => none

/-- The legal domain that a token carries. -/
def legalDomain? : Token → Option String
  | .legalDomain text => some text
  | _ => none

/-- Read the number of a norm. -/
def number : Production NormId := take number? .normNumber

/-- Read a role. -/
def role : Production String := take role? .role

/-! ### Phrases -/

/-- Whether the next two lexemes open an agenda. -/
def opensAgenda : List Lexeme → Bool
  | ⟨.role _, _, _⟩ :: ⟨.seek, _, _⟩ :: _ => true
  | _ => false

/-- The words of a phrase and what remains after it. With `joined` the conjunction is a word, but
not the first one; `started` tells whether a word has been read. -/
def phraseWords (joined : Bool) : Bool → List Lexeme → List String × List Lexeme
  | _, [] => ([], [])
  | started, l :: rest =>
    if opensAgenda (l :: rest) then ([], l :: rest)
    else
      match l.token.text? with
      | some text =>
        let (words, remaining) := phraseWords joined true rest
        (text :: words, remaining)
      | none =>
        if joined && started && l.token == .conjunction then
          let (words, remaining) := phraseWords joined true rest
          (l.raw :: words, remaining)
        else ([], l :: rest)

/-- A phrase has one word for every lexeme that it takes. -/
theorem length_phraseWords (joined started : Bool) (input : List Lexeme) :
    (phraseWords joined started input).1.length + (phraseWords joined started input).2.length =
      input.length := by
  fun_induction phraseWords joined started input <;> simp_all <;> omega

/-- Read a phrase of at least one word; its words are joined by single spaces. -/
def phrase (expected : Expectation) (joined : Bool) : Production String := fun input ↦
  let (words, remaining) := phraseWords joined false input
  if words.isEmpty then fail expected input else .ok (" ".intercalate words, remaining)

theorem phrase_shrinks (expected : Expectation) (joined : Bool) :
    Shrinks (phrase expected joined) := by
  intro input a rest h
  have hlen := length_phraseWords joined false input
  simp only [phrase] at h
  split at h
  · simp at h
  · rename_i hne
    obtain ⟨-, rfl⟩ : _ ∧ (phraseWords joined false input).2 = rest := by simpa using h
    have : 0 < (phraseWords joined false input).1.length :=
      List.length_pos_iff.2 (by simpa using hne)
    omega

/-- Read one or more occurrences of a production, separated by the conjunction. -/
def joinedList {α : Type} (production : Production α) (h : Shrinks production) :
    Production (List α) := fun input ↦
  match _hp : production input with
  | .error fault => .error fault
  | .ok (a, remaining) =>
    match remaining with
    | ⟨.conjunction, _, _⟩ :: rest =>
      (joinedList production h rest).map (fun r ↦ (a :: r.1, r.2))
    | _ => .ok ([a], remaining)
termination_by input => input.length
decreasing_by
  have := h _ _ _ _hp
  simp only [List.length_cons] at this
  omega

theorem joinedList_shrinks {α : Type} (production : Production α) (h : Shrinks production) :
    Shrinks (joinedList production h) := by
  intro input
  induction hn : input.length using Nat.strongRecOn generalizing input with
  | ind n ih =>
    intro a rest heq
    rw [joinedList] at heq
    split at heq
    · simp at heq
    · rename_i a' remaining hp
      have hlt := h _ _ _ hp
      split at heq
      · rename_i p r tail
        obtain ⟨⟨list, remaining'⟩, hrec, hpair⟩ := map_eq_ok.1 heq
        have := ih _ (by simp only [List.length_cons] at hlt; omega) _ rfl _ _ hrec
        simp only [List.length_cons] at hlt
        simp only [Prod.mk.injEq] at hpair
        rw [← hpair.2]
        omega
      · simp only [Except.ok.injEq, Prod.mk.injEq] at heq
        rw [← heq.2]
        omega

/-! ### The institution -/

/-- Read the institution that opens a schema. Its type, multiplicity and domain may be left out. -/
def institution : Production Institution := fun input ↦ do
  let (_, input) ← expect .institution .institutionMarker input
  let (name, input) ← take institutionName? .institutionName input
  let (typeName, input) := takeOr institutionType? "contrato" input
  let (multiplicity, input) := takeOr multiplicity? .multiple input
  let (legalDomain, input) := takeOr legalDomain? "" input
  return (⟨name, typeName, multiplicity, legalDomain⟩, input)

/-! ### Norms -/

/-- Read a condition: a reference to a norm, or a phrase. -/
def condition : Production Condition := fun input ↦
  match input with
  | ⟨.normReference, _, _⟩ :: rest => (number rest).map (fun r ↦ (.norm r.1, r.2))
  | _ => (phrase .condition false input).map (fun r ↦ (.text r.1, r.2))

theorem condition_shrinks : Shrinks condition := by
  intro input a rest h
  unfold condition at h
  split at h
  · obtain ⟨⟨id, remaining⟩, hn, hpair⟩ := map_eq_ok.1 h
    have := take_shrinks _ _ _ _ _ hn
    simp only [Prod.mk.injEq] at hpair
    rw [← hpair.2, List.length_cons]
    omega
  · obtain ⟨⟨text, remaining⟩, hp, hpair⟩ := map_eq_ok.1 h
    have := phrase_shrinks _ _ _ _ _ hp
    simp only [Prod.mk.injEq] at hpair
    rw [← hpair.2]
    omega

/-- Read the object on which the action of a norm bears, if it is given. -/
def scope : Production (Option String) := fun input ↦
  match input with
  | ⟨.scope, _, _⟩ :: rest => (phrase .scope true rest).map (fun r ↦ (some r.1, r.2))
  | _ => .ok (none, input)

theorem scope_keeps : Keeps scope := by
  intro input a rest h
  unfold scope at h
  split at h
  · obtain ⟨⟨text, remaining⟩, hp, hpair⟩ := map_eq_ok.1 h
    have := phrase_shrinks _ _ _ _ _ hp
    simp only [Prod.mk.injEq] at hpair
    rw [← hpair.2, List.length_cons]
    omega
  · simp only [Except.ok.injEq, Prod.mk.injEq] at h
    exact Nat.le_of_eq (by rw [h.2])

/-- Read the conditions of a norm, if there are any. -/
def conditions : Production (List Condition) := fun input ↦
  match input with
  | ⟨.conditional, _, _⟩ :: rest => joinedList condition condition_shrinks rest
  | _ => .ok ([], input)

theorem conditions_keeps : Keeps conditions := by
  intro input a rest h
  unfold conditions at h
  split at h
  · have := joinedList_shrinks _ _ _ _ _ h
    rw [List.length_cons]
    omega
  · simp only [Except.ok.injEq, Prod.mk.injEq] at h
    exact Nat.le_of_eq (by rw [h.2])

/-- Read a norm. -/
def norm : Production Norm := fun input ↦ do
  let (id, input) ← number input
  let (role, input) ← role input
  let (deontic, input) ← take deontic? .deontic input
  let (action, input) ← phrase .action true input
  let (scope, input) ← scope input
  let (conditions, input) ← conditions input
  return (⟨id, role, deontic, action, scope, conditions, .authored⟩, input)

theorem norm_shrinks : Shrinks norm := by
  intro input a rest h
  simp only [norm, bind_eq_ok] at h
  obtain ⟨⟨_, r₁⟩, h₁, ⟨_, r₂⟩, h₂, ⟨_, r₃⟩, h₃, ⟨_, r₄⟩, h₄, ⟨_, r₅⟩, h₅, ⟨_, r₆⟩, h₆, hend⟩ := h
  simp only [pure, Except.pure, Except.ok.injEq, Prod.mk.injEq] at hend
  have := take_shrinks _ _ _ _ _ h₁
  have := take_shrinks _ _ _ _ _ h₂
  have := take_shrinks _ _ _ _ _ h₃
  have := phrase_shrinks _ _ _ _ _ h₄
  have := scope_keeps _ _ _ h₅
  have := conditions_keeps _ _ _ h₆
  rw [← hend.2]
  dsimp only at *
  omega

/-! ### Violations and facts -/

/-- Read the number of a norm, which the word for a norm may precede. -/
def reference : Production NormId := fun input ↦ number (skip .normReference input)

theorem reference_shrinks : Shrinks reference := by
  intro input a rest h
  have := take_shrinks _ _ _ _ _ h
  have := length_skip_le .normReference input
  omega

/-- Read the norms of a violation: one, or two joined by the conjunction. -/
def violatedNorms : Production ViolatedNorms := fun input ↦ do
  let (first, input) ← reference input
  match input with
  | ⟨.conjunction, _, _⟩ :: rest =>
    (reference rest).map (fun r ↦ (.compound first r.1, r.2))
  | _ => return (.single first, input)

theorem violatedNorms_shrinks : Shrinks violatedNorms := by
  intro input a rest h
  simp only [violatedNorms, bind_eq_ok] at h
  obtain ⟨⟨first, r₁⟩, h₁, h⟩ := h
  have := reference_shrinks _ _ _ h₁
  simp only at h
  split at h
  · obtain ⟨⟨second, r₂⟩, h₂, hpair⟩ := map_eq_ok.1 h
    have := reference_shrinks _ _ _ h₂
    simp only [List.length_cons] at *
    simp only [Prod.mk.injEq] at hpair
    rw [← hpair.2]
    omega
  · simp only [pure, Except.pure, Except.ok.injEq, Prod.mk.injEq] at h
    rw [← h.2]
    omega

/-- Read a violation after its marker. A consequence without a deontic position is a claim
right. -/
def violation : Production Violation := fun input ↦ do
  let (norms, input) ← violatedNorms input
  let (_, input) ← expect .consequence .consequenceMarker input
  let (role, input) ← role input
  let (deontic, input) := takeOr deontic? .claimRight input
  let (consequence, input) ← phrase .consequence true input
  return (⟨norms, role, deontic, consequence⟩, input)

theorem violation_shrinks : Shrinks violation := by
  intro input a rest h
  simp only [violation, bind_eq_ok] at h
  obtain ⟨⟨_, r₁⟩, h₁, ⟨_, r₂⟩, h₂, ⟨_, r₃⟩, h₃, ⟨_, r₄⟩, h₄, hend⟩ := h
  simp only [pure, Except.pure, Except.ok.injEq, Prod.mk.injEq] at hend
  have := violatedNorms_shrinks _ _ _ h₁
  have := take_shrinks _ _ _ _ _ h₂
  have := take_shrinks _ _ _ _ _ h₃
  have := length_takeOr_le deontic? .claimRight r₃
  have := phrase_shrinks _ _ _ _ _ h₄
  rw [← hend.2]
  dsimp only at *
  omega

/-- Read a fact after its marker. -/
def fact : Production LegalFact := fun input ↦ do
  let (description, input) ← phrase .factDescription true input
  let (_, input) ← expect .evidence .evidenceMarker input
  let (evidence, input) ← phrase .evidence true input
  return (⟨description, evidence⟩, input)

theorem fact_shrinks : Shrinks fact := by
  intro input a rest h
  simp only [fact, bind_eq_ok] at h
  obtain ⟨⟨_, r₁⟩, h₁, ⟨_, r₂⟩, h₂, ⟨_, r₃⟩, h₃, hend⟩ := h
  simp only [pure, Except.pure, Except.ok.injEq, Prod.mk.injEq] at hend
  have := phrase_shrinks _ _ _ _ _ h₁
  have := take_shrinks _ _ _ _ _ h₂
  have := phrase_shrinks _ _ _ _ _ h₃
  rw [← hend.2]
  dsimp only at *
  omega

/-! ### Agendas -/

/-- Read what an agenda asks for. -/
def relief : Production Relief := fun input ↦
  match input with
  | ⟨.essential, _, _⟩ :: rest => .ok (.essential, rest)
  | ⟨.following, _, _⟩ :: rest =>
    (joinedList (phrase .remedy false) (phrase_shrinks _ _) rest).map (fun r ↦ (.remedies r.1, r.2))
  | _ => fail .relief input

theorem relief_shrinks : Shrinks relief := by
  intro input a rest h
  unfold relief at h
  split at h
  · simp only [Except.ok.injEq, Prod.mk.injEq] at h
    rw [← h.2, List.length_cons]
    omega
  · obtain ⟨⟨list, remaining⟩, hl, hpair⟩ := map_eq_ok.1 h
    have := joinedList_shrinks _ _ _ _ _ hl
    simp only [Prod.mk.injEq] at hpair
    rw [← hpair.2, List.length_cons]
    omega
  · simp at h

/-- Read an agenda. An agenda that names no institution concerns that of the schema, and one that
names no beneficiary is for the benefit of the party that seeks it. -/
def agenda (institutionName : String) : Production Agenda := fun input ↦ do
  let (requestingRole, input) ← role input
  let (_, input) ← expect .seek .seek input
  let (outcome, input) ← take compliance? .compliance (skip .establish input)
  let (institution, input) := takeOr referredName? institutionName input
  let (beneficiaryRole, input) := takeOr role? requestingRole (skip .adjudicate input)
  let (relief, input) ← relief input
  return (⟨requestingRole, outcome, institution, beneficiaryRole, relief⟩, input)

theorem agenda_shrinks (institutionName : String) : Shrinks (agenda institutionName) := by
  intro input a rest h
  simp only [agenda, bind_eq_ok] at h
  obtain ⟨⟨requester, r₁⟩, h₁, ⟨_, r₂⟩, h₂, ⟨_, r₃⟩, h₃, ⟨_, r₄⟩, h₄, hend⟩ := h
  simp only [pure, Except.pure, Except.ok.injEq, Prod.mk.injEq] at hend
  have := take_shrinks _ _ _ _ _ h₁
  have := take_shrinks _ _ _ _ _ h₂
  have := length_skip_le .establish r₂
  have := take_shrinks _ _ _ _ _ h₃
  have := length_takeOr_le referredName? institutionName r₃
  have := length_skip_le .adjudicate (takeOr referredName? institutionName r₃).2
  have := length_takeOr_le role? requester
    (skip .adjudicate (takeOr referredName? institutionName r₃).2)
  have := relief_shrinks _ _ _ h₄
  rw [← hend.2]
  dsimp only at *
  omega

/-! ### Items -/

/-- An item of a schema. A norm comes with the lexeme of its number. -/
inductive Item where
  | norm (number : Lexeme) (norm : Norm)
  | violation (violation : Violation)
  | fact (fact : LegalFact)
  | agenda (agenda : Agenda)
  deriving DecidableEq

/-- The kinds of items. -/
inductive ItemKind where
  | norm
  | violation
  | fact
  | agenda
  deriving DecidableEq

/-- The kind of item that a token opens. -/
def itemKind? : Token → Option ItemKind
  | .number _ => some .norm
  | .violation => some .violation
  | .fact => some .fact
  | .role _ => some .agenda
  | _ => none

/-- Read an item, which its first lexeme tells apart. -/
def item (institutionName : String) : Production Item := fun input ↦
  match input with
  | [] => fail .item []
  | l :: rest =>
    match itemKind? l.token with
    | some .norm => (norm (l :: rest)).map (fun r ↦ (.norm l r.1, r.2))
    | some .violation => (violation rest).map (fun r ↦ (.violation r.1, r.2))
    | some .fact => (fact rest).map (fun r ↦ (.fact r.1, r.2))
    | some .agenda => (agenda institutionName (l :: rest)).map (fun r ↦ (.agenda r.1, r.2))
    | none => fail .item (l :: rest)

theorem item_shrinks (institutionName : String) : Shrinks (item institutionName) := by
  intro input a rest h
  unfold item at h
  split at h
  · simp at h
  · rename_i l tail
    split at h
    · obtain ⟨⟨_, remaining⟩, hn, hpair⟩ := map_eq_ok.1 h
      have := norm_shrinks _ _ _ hn
      simp only [Prod.mk.injEq] at hpair
      rw [← hpair.2]
      omega
    · obtain ⟨⟨_, remaining⟩, hv, hpair⟩ := map_eq_ok.1 h
      have := violation_shrinks _ _ _ hv
      simp only [Prod.mk.injEq] at hpair
      rw [← hpair.2, List.length_cons]
      omega
    · obtain ⟨⟨_, remaining⟩, hf, hpair⟩ := map_eq_ok.1 h
      have := fact_shrinks _ _ _ hf
      simp only [Prod.mk.injEq] at hpair
      rw [← hpair.2, List.length_cons]
      omega
    · obtain ⟨⟨_, remaining⟩, ha, hpair⟩ := map_eq_ok.1 h
      have := agenda_shrinks _ _ _ _ ha
      simp only [Prod.mk.injEq] at hpair
      rw [← hpair.2]
      omega
    · simp at h

end Normative.Grammar
