import Normative.Schema.Grammar

/-!
# Rules and derivations

A rule relates a list of lexemes to a derivation and to the lexemes that remain after it. Rules say
what may be read and not how it is found: an optional part may be left out even where it could be
read, and a repetition may end before it has to. A derivation records what each terminal was read
from, which optional parts are there, which alternative was taken and how often a part is repeated,
so that two derivations of the same lexemes differ if their structures do.

A rule on its own is hardly ever unambiguous. It is so where it is followed by something that
cannot continue it, which is what the lemmas on ambiguity are about.

## Main definitions

* `Grammar.Leaf` : a lexeme with the value it carries.
* `Grammar.Rule` : a rule, with the ways to build rules: `Rule.terminal`, `Rule.mark`,
  `Rule.andThen`, `Rule.opt`, `Rule.orElse`, `Rule.many`.
* `Grammar.Rule.Unambiguous` : a rule that has one derivation where a condition follows it.

## Main results

* `Grammar.Rule.Unambiguous.andThen`, `Grammar.Rule.Unambiguous.opt`,
  `Grammar.Rule.Unambiguous.orElse`, `Grammar.Rule.Unambiguous.many` : rules built from
  unambiguous rules are unambiguous if what follows a part cannot be taken for the part.
-/

namespace Normative.Grammar

/-- A lexeme with the value that it carries for the rule that reads it. -/
structure Leaf (α : Type) where
  lexeme : Lexeme
  value : α

/-- A rule: a relation between the lexemes that are left, a derivation, and the lexemes that remain
after what the derivation reads. -/
def Rule (δ : Type) := List Lexeme → δ → List Lexeme → Prop

namespace Rule

variable {α β : Type} {first rule : Rule α} {second : Rule β} {input rest : List Lexeme}

/-! ### Ways to build rules -/

/-- One lexeme whose token carries a value of the kind that is wanted. -/
def terminal (value? : Token → Option α) : Rule (Leaf α) := fun input d rest ↦
  input = d.lexeme :: rest ∧ value? d.lexeme.token = some d.value

/-- The kind of a single token. -/
def isToken? (token t : Token) : Option Unit := if t = token then some () else none

/-- One lexeme with a given token. -/
def mark (token : Token) : Rule (Leaf Unit) := terminal (isToken? token)

/-- A rule after another. -/
def andThen (first : Rule α) (second : Rule β) : Rule (α × β) := fun input d rest ↦
  ∃ middle, first input d.1 middle ∧ second middle d.2 rest

/-- A rule that may be left out. -/
def opt (rule : Rule α) : Rule (Option α)
  | input, none, rest => rest = input
  | input, some d, rest => rule input d rest

/-- One of two rules. -/
def orElse (first : Rule α) (second : Rule β) : Rule (α ⊕ β)
  | input, .inl d, rest => first input d rest
  | input, .inr d, rest => second input d rest

/-- A rule any number of times. -/
def many (rule : Rule α) : Rule (List α)
  | input, [], rest => rest = input
  | input, d :: ds, rest => ∃ middle, rule input d middle ∧ many rule middle ds rest

theorem terminal_iff {value? : Token → Option α} {d : Leaf α} :
    terminal value? input d rest ↔
      input = d.lexeme :: rest ∧ value? d.lexeme.token = some d.value := Iff.rfl

@[simp] theorem mark_iff {token : Token} {d : Leaf Unit} :
    mark token input d rest ↔ input = d.lexeme :: rest ∧ d.lexeme.token = token := by
  simp [mark, terminal_iff, isToken?]

@[simp] theorem opt_none : opt rule input none rest ↔ rest = input := Iff.rfl

@[simp] theorem opt_some {d : α} : opt rule input (some d) rest ↔ rule input d rest := Iff.rfl

@[simp] theorem orElse_inl {d : α} :
    orElse first second input (.inl d) rest ↔ first input d rest := Iff.rfl

@[simp] theorem orElse_inr {d : β} :
    orElse first second input (.inr d) rest ↔ second input d rest := Iff.rfl

@[simp] theorem many_nil : many rule input [] rest ↔ rest = input := Iff.rfl

@[simp] theorem many_cons {d : α} {ds : List α} :
    many rule input (d :: ds) rest ↔ ∃ middle, rule input d middle ∧ many rule middle ds rest :=
  Iff.rfl

/-! ### How rules begin -/

/-- The next lexeme, if there is one, carries no value of a kind. -/
def Lacks (value? : Token → Option α) (rest : List Lexeme) : Prop :=
  ∀ l ∈ rest.head?, value? l.token = none

/-- No token carries values of both kinds. -/
def Apart (value? : Token → Option α) (other? : Token → Option β) : Prop :=
  ∀ t a, value? t = some a → other? t = none

section Lacks

variable {γ : Type} {value? : Token → Option α} {other? : Token → Option γ}

@[simp] theorem lacks_nil : Lacks other? [] := by simp [Lacks]

@[simp] theorem lacks_cons {l : Lexeme} {tail : List Lexeme} :
    Lacks other? (l :: tail) ↔ other? l.token = none := by simp [Lacks]

theorem isToken?_eq_some {token t : Token} {a : Unit} : isToken? token t = some a ↔ t = token := by
  simp [isToken?]

theorem apart_isToken {token : Token} (h : other? token = none) :
    Apart (isToken? token) other? := by
  intro t a ht
  rw [isToken?_eq_some.mp ht, h]

theorem apart_of_isToken {token : Token} (h : other? token = none) :
    Apart other? (isToken? token) := by
  intro t a ht
  cases hu : isToken? token t with
  | none => rfl
  | some u => simp [isToken?_eq_some.mp hu, h] at ht

theorem Lacks.not_terminal (h : Lacks other? input) {d : Leaf γ} :
    ¬ terminal other? input d rest := by
  rintro ⟨rfl, hd⟩
  simp [lacks_cons.mp h] at hd

theorem Apart.lacks (h : Apart value? other?) {d : Leaf α} (hd : terminal value? input d rest) :
    Lacks other? input := by
  obtain ⟨rfl, hd⟩ := hd
  exact lacks_cons.mpr (h _ _ hd)

theorem Apart.lacks_andThen (h : Apart value? other?) {d : Leaf α × β}
    (hd : (terminal value?).andThen second input d rest) : Lacks other? input := by
  obtain ⟨_, hd, -⟩ := hd
  exact h.lacks hd

theorem Apart.lacks_opt (h : Apart value? other?) {d : Option (Leaf α)}
    (hd : (terminal value?).opt input d rest) (hrest : Lacks other? rest) : Lacks other? input := by
  obtain _ | d := d
  · obtain rfl : rest = input := hd
    exact hrest
  · exact h.lacks hd

end Lacks

/-- What begins a repetition begins the rule or follows the repetition. -/
theorem begins_of_many {follow between : List Lexeme → Prop}
    (hagain : ∀ {input d rest}, rule input d rest → between input)
    (hend : ∀ {rest}, follow rest → between rest) {ds : List α}
    (hds : rule.many input ds rest) (hr : follow rest) : between input := by
  cases ds with
  | nil =>
    obtain rfl : rest = input := hds
    exact hend hr
  | cons d ds =>
    obtain ⟨_, hd, -⟩ := hds
    exact hagain hd

/-! ### Ambiguity -/

/-- A rule has at most one derivation of the lexemes before a place where `follow` holds, and there
is at most one such place. -/
def Unambiguous (rule : Rule α) (follow : List Lexeme → Prop) : Prop :=
  ∀ ⦃input d d' rest rest'⦄, rule input d rest → rule input d' rest' →
    follow rest → follow rest' → d = d' ∧ rest = rest'

namespace Unambiguous

variable {follow between : List Lexeme → Prop}

theorem mono {stronger : List Lexeme → Prop} (h : Unambiguous rule follow)
    (hf : ∀ rest, stronger rest → follow rest) : Unambiguous rule stronger :=
  fun _ _ _ _ _ hd hd' hr hr' ↦ h hd hd' (hf _ hr) (hf _ hr')

theorem terminal (value? : Token → Option α) (follow : List Lexeme → Prop) :
    Unambiguous (terminal value?) follow := by
  rintro input ⟨l, a⟩ ⟨l', a'⟩ rest rest' ⟨hd, ha⟩ ⟨hd', ha'⟩ - -
  obtain ⟨rfl, rfl⟩ := List.cons.inj (hd.symm.trans hd')
  obtain rfl : a = a' := Option.some.inj (ha.symm.trans ha')
  exact ⟨rfl, rfl⟩

theorem mark (token : Token) (follow : List Lexeme → Prop) : Unambiguous (mark token) follow :=
  terminal _ _

/-- The first of two rules has to be unambiguous before every place from which the second one can
go on. -/
theorem andThen (hfirst : Unambiguous first between) (hsecond : Unambiguous second follow)
    (hbetween : ∀ {input d rest}, second input d rest → follow rest → between input) :
    Unambiguous (first.andThen second) follow := by
  rintro input ⟨d₁, d₂⟩ ⟨d₁', d₂'⟩ rest rest' ⟨mid, h₁, h₂⟩ ⟨mid', h₁', h₂'⟩ hr hr'
  obtain ⟨rfl, rfl⟩ := hfirst h₁ h₁' (hbetween h₂ hr) (hbetween h₂' hr')
  obtain ⟨rfl, rfl⟩ := hsecond h₂ h₂' hr hr'
  exact ⟨rfl, rfl⟩

/-- A terminal reads one lexeme whatever follows it. -/
theorem terminal_andThen (value? : Token → Option α) (h : Unambiguous second follow) :
    Unambiguous ((Rule.terminal value?).andThen second) follow :=
  (terminal value? (fun _ ↦ True)).andThen h (fun _ _ ↦ trivial)

/-- A rule may be left out if it cannot begin where it is followed. -/
theorem opt (h : Unambiguous rule follow)
    (hbegin : ∀ {input d rest}, rule input d rest → ¬ follow input) :
    Unambiguous rule.opt follow := by
  rintro input (_ | d) (_ | d') rest rest' hd hd' hr hr'
  · exact ⟨rfl, hd.trans hd'.symm⟩
  · obtain rfl : rest = input := hd
    exact absurd hr (hbegin hd')
  · obtain rfl : rest' = input := hd'
    exact absurd hr' (hbegin hd)
  · obtain ⟨rfl, rfl⟩ := h hd hd' hr hr'
    exact ⟨rfl, rfl⟩

/-- A terminal may be left out before a rule that cannot begin with it. -/
theorem opt_terminal_andThen (value? : Token → Option α) (h : Unambiguous second follow)
    (hlacks : ∀ {input d rest}, second input d rest → follow rest → Lacks value? input) :
    Unambiguous ((Rule.terminal value?).opt.andThen second) follow :=
  ((terminal value? (Lacks value?)).opt fun hd hl ↦ hl.not_terminal hd).andThen h hlacks

/-- Two rules are alternatives if they cannot begin at the same place. -/
theorem orElse (hfirst : Unambiguous first follow) (hsecond : Unambiguous second follow)
    (hdisjoint : ∀ {input d d' rest rest'}, first input d rest → ¬ second input d' rest') :
    Unambiguous (first.orElse second) follow := by
  rintro input (d | d) (d' | d') rest rest' hd hd' hr hr'
  · obtain ⟨rfl, rfl⟩ := hfirst hd hd' hr hr'
    exact ⟨rfl, rfl⟩
  · exact absurd hd' (hdisjoint hd)
  · exact absurd hd (hdisjoint hd')
  · obtain ⟨rfl, rfl⟩ := hsecond hd hd' hr hr'
    exact ⟨rfl, rfl⟩

/-- A rule may be repeated if it is unambiguous before itself and before what follows the
repetition, and cannot begin where the repetition is followed. -/
theorem many (h : Unambiguous rule between)
    (hagain : ∀ {input d rest}, rule input d rest → between input)
    (hend : ∀ {rest}, follow rest → between rest)
    (hbegin : ∀ {input d rest}, rule input d rest → ¬ follow input) :
    Unambiguous rule.many follow := by
  intro input ds
  induction ds generalizing input with
  | nil =>
    rintro (_ | ⟨d', ds'⟩) rest rest' hd hd' hr hr'
    · exact ⟨rfl, hd.trans hd'.symm⟩
    · obtain rfl : rest = input := hd
      obtain ⟨_, hd', -⟩ := hd'
      exact absurd hr (hbegin hd')
  | cons d ds ih =>
    rintro (_ | ⟨d', ds'⟩) rest rest' ⟨middle, hd, hds⟩ hd' hr hr'
    · obtain rfl : rest' = input := hd'
      exact absurd hr' (hbegin hd)
    · obtain ⟨middle', hd', hds'⟩ := hd'
      obtain ⟨rfl, rfl⟩ := h hd hd' (begins_of_many hagain hend hds hr)
        (begins_of_many hagain hend hds' hr')
      obtain ⟨rfl, rfl⟩ := ih hds hds' hr hr'
      exact ⟨rfl, rfl⟩

end Unambiguous

end Rule

end Normative.Grammar
