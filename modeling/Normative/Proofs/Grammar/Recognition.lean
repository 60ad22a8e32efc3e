import Normative.Proofs.Grammar.Unambiguity
import Normative.Schema.Parse

/-!
# Productions read what the rules derive

A production commits itself at every lexeme and never goes back, while a rule may stop anywhere.
The two agree at the places where a rule has to stop: whatever a production reads has a derivation
with the same value, and whatever has a derivation is read, if it is followed by something that
cannot continue it.

## Main definitions

* `Grammar.Reads` : a production reads what a rule derives.

## Main results

* `Grammar.reads_phrase`, `Grammar.reads_joinedList` : phrases and lists.
* `Grammar.reads_item`, `Grammar.reads_institution` : the two parts of a schema.
-/

namespace Normative.Grammar

open Rule (Lacks EndsPhrase isToken? lacks_cons)

variable {α δ : Type} {input rest : List Lexeme}

/-- A production reads what a rule derives: it reads nothing else, and it reads every derivation
that is followed by what `follow` allows. -/
structure Reads (production : Production α) (rule : Rule δ) (value : δ → α)
    (follow : List Lexeme → Prop) : Prop where
  sound : ∀ {input a rest}, production input = .ok (a, rest) → ∃ d, rule input d rest ∧ value d = a
  complete : ∀ {input d rest}, rule input d rest → follow rest →
    production input = .ok (value d, rest)

/-! ### Single lexemes -/

theorem reads_take (value? : Token → Option α) (expected : Expectation) :
    Reads (take value? expected) (Rule.terminal value?) Leaf.value (fun _ ↦ True) where
  sound := by
    intro input a rest h
    unfold take at h
    split at h
    · simp at h
    · rename_i l tail
      split at h
      · rename_i a' ha
        obtain ⟨rfl, rfl⟩ : a' = a ∧ tail = rest := by simpa using h
        exact ⟨⟨l, a'⟩, ⟨rfl, ha⟩, rfl⟩
      · simp at h
  complete := by
    rintro input d rest ⟨rfl, hd⟩ -
    simp [take, hd]

theorem reads_expect (token : Token) (expected : Expectation) :
    Reads (expect token expected) (Rule.mark token) Leaf.value (fun _ ↦ True) :=
  reads_take (isToken? token) expected

theorem takeOr_sound (value? : Token → Option α) (default : α) (input : List Lexeme) :
    ∃ d, (Rule.terminal value?).opt input d (takeOr value? default input).2 ∧
      (d.map Leaf.value).getD default = (takeOr value? default input).1 := by
  unfold takeOr
  split
  · exact ⟨none, rfl, rfl⟩
  · rename_i l tail
    split
    · rename_i a ha
      exact ⟨some ⟨l, a⟩, ⟨rfl, ha⟩, rfl⟩
    · exact ⟨none, rfl, rfl⟩

theorem takeOr_complete {value? : Token → Option α} {default : α} {d : Option (Leaf α)}
    (hd : (Rule.terminal value?).opt input d rest) (hr : d = none → Lacks value? rest) :
    takeOr value? default input = ((d.map Leaf.value).getD default, rest) := by
  obtain _ | d := d
  · obtain rfl : rest = input := hd
    cases rest with
    | nil => rfl
    | cons l tail => simp [takeOr, lacks_cons.mp (hr rfl)]
  · obtain ⟨rfl, hd⟩ := hd
    simp [takeOr, hd]

theorem skip_sound (token : Token) (input : List Lexeme) :
    ∃ d, (Rule.mark token).opt input d (skip token input) := by
  unfold skip
  split
  · exact ⟨none, rfl⟩
  · rename_i l tail
    split
    · rename_i hl
      exact ⟨some ⟨l, ()⟩, Rule.mark_iff.mpr ⟨rfl, hl⟩⟩
    · exact ⟨none, rfl⟩

theorem skip_complete {token : Token} {d : Option (Leaf Unit)}
    (hd : (Rule.mark token).opt input d rest) (hr : d = none → Lacks (isToken? token) rest) :
    skip token input = rest := by
  obtain _ | d := d
  · obtain rfl : rest = input := hd
    cases rest with
    | nil => rfl
    | cons l tail =>
      have hl : l.token ≠ token := by simpa [isToken?] using hr rfl
      simp [skip, hl]
  · obtain ⟨rfl, htoken⟩ := Rule.mark_iff.mp hd
    simp [skip, htoken]

theorem mark_cons {token : Token} {l : Lexeme} (h : l.token = token) :
    Rule.mark token (l :: rest) ⟨l, ()⟩ rest :=
  Rule.mark_iff.mpr ⟨rfl, h⟩

theorem eq_cons_of_mark {token : Token} {d : Leaf Unit} (h : Rule.mark token input d rest) :
    ∃ position raw, input = ⟨token, position, raw⟩ :: rest := by
  obtain ⟨rfl, rfl⟩ := Rule.mark_iff.mp h
  exact ⟨_, _, rfl⟩

/-! ### Phrases -/

/-- One word of a phrase after the other. The conjunction is a word only once there is another. -/
theorem phraseWords_cons (joined started : Bool) (l : Lexeme) (tail : List Lexeme) :
    phraseWords joined started (l :: tail) =
      if opensAgenda (l :: tail) then ([], l :: tail)
      else match wordText? (joined && started) l with
        | some text =>
          (text :: (phraseWords joined true tail).1, (phraseWords joined true tail).2)
        | none => ([], l :: tail) := by
  rw [phraseWords, wordText?]
  split
  · rfl
  · cases l.token.text? with
    | some text => rfl
    | none =>
      dsimp only
      split <;> rfl

theorem phraseWords_sound (joined : Bool) (input : List Lexeme) :
    ∃ ds, (Rule.word joined).many input ds (phraseWords joined true input).2 ∧
      ds.map Leaf.value = (phraseWords joined true input).1 := by
  induction input with
  | nil => exact ⟨[], rfl, rfl⟩
  | cons l tail ih =>
    rw [phraseWords_cons, Bool.and_true]
    by_cases hopen : opensAgenda (l :: tail) = true
    · rw [if_pos hopen]
      exact ⟨[], rfl, rfl⟩
    · rw [if_neg hopen]
      cases htext : wordText? joined l with
      | none => exact ⟨[], rfl, rfl⟩
      | some text =>
        obtain ⟨ds, hds, hwords⟩ := ih
        refine ⟨⟨l, text⟩ :: ds, ⟨tail, ⟨rfl, by simpa using hopen, htext⟩, hds⟩, ?_⟩
        rw [List.map_cons, hwords]

theorem phraseWords_nil_of_endsPhrase {joined started : Bool}
    (h : EndsPhrase (joined && started) rest) : phraseWords joined started rest = ([], rest) := by
  cases rest with
  | nil => rfl
  | cons l tail =>
    rw [phraseWords_cons]
    by_cases hopen : opensAgenda (l :: tail) = true
    · rw [if_pos hopen]
    · rw [if_neg hopen]
      cases htext : wordText? (joined && started) l with
      | none => rfl
      | some text => exact absurd ⟨rfl, by simpa using hopen, htext⟩ (h ⟨l, text⟩ tail)

theorem phraseWords_cons_of_word {joined started : Bool} {d : Leaf String}
    (hd : Rule.word (joined && started) input d rest) :
    phraseWords joined started input =
      (d.value :: (phraseWords joined true rest).1, (phraseWords joined true rest).2) := by
  obtain ⟨rfl, hopen, htext⟩ := hd
  rw [phraseWords_cons, if_neg (by simp [hopen]), htext]

theorem phraseWords_complete {joined : Bool} {ds : List (Leaf String)}
    (hds : (Rule.word joined).many input ds rest) (hr : EndsPhrase joined rest) :
    phraseWords joined true input = (ds.map Leaf.value, rest) := by
  induction ds generalizing input with
  | nil =>
    obtain rfl : rest = input := hds
    exact phraseWords_nil_of_endsPhrase (by simpa using hr)
  | cons d ds ih =>
    obtain ⟨middle, hd, hds⟩ := hds
    rw [phraseWords_cons_of_word (by simpa using hd), ih hds, List.map_cons]

theorem reads_phrase (expected : Expectation) (joined : Bool) :
    Reads (phrase expected joined) (Rule.phrase joined) PhraseTree.text (EndsPhrase joined) where
  sound := by
    intro input a rest h
    rw [phrase] at h
    cases input with
    | nil => simp [phraseWords] at h
    | cons l tail =>
      rw [phraseWords_cons, Bool.and_false] at h
      by_cases hopen : opensAgenda (l :: tail) = true
      · simp [if_pos hopen] at h
      · rw [if_neg hopen] at h
        cases htext : wordText? false l with
        | none => simp [htext] at h
        | some text =>
          obtain ⟨ds, hds, hwords⟩ := phraseWords_sound joined tail
          simp only [htext, List.isEmpty_cons, Bool.false_eq_true, if_false, Except.ok.injEq,
            Prod.mk.injEq] at h
          obtain ⟨rfl, rfl⟩ := h
          refine ⟨(⟨l, text⟩, ds), ⟨tail, ⟨rfl, by simpa using hopen, htext⟩, hds⟩, ?_⟩
          rw [PhraseTree.text, hwords]
  complete := by
    rintro input ⟨d, ds⟩ rest ⟨middle, hd, hds⟩ hr
    rw [phrase, phraseWords_cons_of_word (by simpa using hd), phraseWords_complete hds hr]
    simp [PhraseTree.text]

/-! ### Lists -/

section JoinedList

variable {production : Production α} {hshrinks : Shrinks production}

theorem joinedList_of_last {a : α} (hp : production input = .ok (a, rest))
    (hr : Lacks (isToken? .conjunction) rest) :
    joinedList production hshrinks input = .ok ([a], rest) := by
  rw [joinedList]
  split
  · rename_i hp'
    simp [hp] at hp'
  · rename_i a' rest' hp'
    obtain ⟨rfl, rfl⟩ : a = a' ∧ rest = rest' := by simpa [hp] using hp'
    split
    · simp [isToken?] at hr
    · rfl

theorem joinedList_of_conjunction {a : α} {position : Position} {raw : String}
    (hp : production input = .ok (a, ⟨.conjunction, position, raw⟩ :: rest)) :
    joinedList production hshrinks input =
      (joinedList production hshrinks rest).map (fun r ↦ (a :: r.1, r.2)) := by
  rw [joinedList]
  split
  · rename_i hp'
    simp [hp] at hp'
  · rename_i a' rest' hp'
    obtain ⟨rfl, rfl⟩ : a = a' ∧ _ = rest' := by simpa [hp] using hp'
    rfl

/-- A list is read member by member. The production goes on exactly if it finds the conjunction. -/
theorem reads_joinedList {rule : Rule δ} {value : δ → α} (hshrinks : Shrinks production)
    (h : Reads production rule value (EndsPhrase false)) :
    Reads (joinedList production hshrinks) rule.joined (JoinedTree.members value)
      (fun rest ↦ EndsPhrase false rest ∧ Lacks (isToken? .conjunction) rest) where
  sound := by
    intro input
    fun_induction joinedList production hshrinks input with
    | case1 input fault hp => simp
    | case2 input a position raw tail hp _ ih =>
      intro as rest hlist
      obtain ⟨⟨as', rest'⟩, hlist', hpair⟩ := map_eq_ok.1 hlist
      obtain ⟨rfl, rfl⟩ := Prod.mk.inj hpair
      obtain ⟨d, hd, rfl⟩ := h.sound hp
      obtain ⟨⟨e, es⟩, ⟨middle, he, hes⟩, hmembers⟩ := ih hlist'
      refine ⟨(d, (_, e) :: es), ⟨_, hd, middle, ⟨tail, mark_cons rfl, he⟩, hes⟩, ?_⟩
      rw [← hmembers]
      rfl
    | case3 input a remaining hp =>
      intro as rest hlist
      obtain ⟨rfl, rfl⟩ : [a] = as ∧ remaining = rest := by simpa using hlist
      obtain ⟨d, hd, rfl⟩ := h.sound hp
      exact ⟨(d, []), ⟨_, hd, rfl⟩, rfl⟩
  complete := by
    rintro input ⟨d, ds⟩ rest ⟨middle, hd, hds⟩ ⟨hends, hlacks⟩
    induction ds generalizing input d middle with
    | nil =>
      obtain rfl : rest = middle := hds
      exact joinedList_of_last (h.complete hd hends) hlacks
    | cons e ds ih =>
      obtain ⟨last, ⟨after, hmark, he⟩, hds⟩ := hds
      have hmiddle : EndsPhrase false middle := Rule.endsPhrase_of_mark ⟨after, hmark, he⟩ rfl
      obtain ⟨position, raw, rfl⟩ := eq_cons_of_mark hmark
      rw [joinedList_of_conjunction (h.complete hd hmiddle), ih _ _ he hds]
      rfl

end JoinedList

/-! ### Norms -/

theorem reads_condition :
    Reads condition Rule.condition ConditionTree.condition (EndsPhrase false) where
  sound := by
    intro input a rest h
    unfold condition at h
    split at h
    · rename_i position raw tail
      obtain ⟨⟨id, rest'⟩, hnumber, hpair⟩ := map_eq_ok.1 h
      obtain ⟨rfl, rfl⟩ := Prod.mk.inj hpair
      obtain ⟨d, hd, rfl⟩ := (reads_take _ _).sound hnumber
      exact ⟨.inl (_, d), ⟨tail, mark_cons rfl, hd⟩, rfl⟩
    · obtain ⟨⟨text, rest'⟩, hphrase, hpair⟩ := map_eq_ok.1 h
      obtain ⟨rfl, rfl⟩ := Prod.mk.inj hpair
      obtain ⟨d, hd, rfl⟩ := (reads_phrase _ _).sound hphrase
      exact ⟨.inr d, hd, rfl⟩
  complete := by
    rintro input (⟨m, d⟩ | d) rest hd hr
    · obtain ⟨middle, hmark, hd⟩ := hd
      obtain ⟨position, raw, rfl⟩ := eq_cons_of_mark hmark
      rw [condition, number, (reads_take _ _).complete hd trivial]
      rfl
    · have hphrase := (reads_phrase .condition false).complete hd hr
      obtain ⟨_, hword, -⟩ := hd
      unfold condition
      split
      -- The word for a norm carries no text, so that it begins no phrase.
      · refine absurd hword (Lacks.endsPhrase (?_ : Lacks (Rule.wordKind? false) _) _ _)
        exact Rule.lacks_cons.mpr rfl
      · rw [hphrase]
        rfl

theorem reads_scope :
    Reads scope ((Rule.mark .scope).andThen (Rule.phrase true)).opt
      (Option.map fun d ↦ PhraseTree.text d.2)
      (fun rest ↦ EndsPhrase true rest ∧ Lacks (isToken? .scope) rest) where
  sound := by
    intro input a rest h
    unfold scope at h
    split at h
    · rename_i position raw tail
      obtain ⟨⟨text, rest'⟩, hphrase, hpair⟩ := map_eq_ok.1 h
      obtain ⟨rfl, rfl⟩ := Prod.mk.inj hpair
      obtain ⟨d, hd, rfl⟩ := (reads_phrase _ _).sound hphrase
      exact ⟨some (_, d), ⟨tail, mark_cons rfl, hd⟩, rfl⟩
    · obtain ⟨rfl, rfl⟩ : none = a ∧ input = rest := by simpa using h
      exact ⟨none, rfl, rfl⟩
  complete := by
    rintro input (_ | ⟨m, d⟩) rest hd ⟨hends, hlacks⟩
    · obtain rfl : rest = input := hd
      unfold scope
      split
      · simp [isToken?] at hlacks
      · rfl
    · obtain ⟨middle, hmark, hd⟩ := hd
      obtain ⟨position, raw, rfl⟩ := eq_cons_of_mark hmark
      rw [scope, (reads_phrase _ _).complete hd hends]
      rfl

theorem reads_conditions :
    Reads conditions ((Rule.mark .conditional).andThen Rule.condition.joined).opt
      (fun d ↦ (d.map fun d ↦ JoinedTree.members ConditionTree.condition d.2).getD [])
      Boundary where
  sound := by
    intro input a rest h
    unfold conditions at h
    split at h
    · rename_i position raw tail
      obtain ⟨d, hd, rfl⟩ := (reads_joinedList _ reads_condition).sound h
      exact ⟨some (_, d), ⟨tail, mark_cons rfl, hd⟩, rfl⟩
    · obtain ⟨rfl, rfl⟩ : [] = a ∧ input = rest := by simpa using h
      exact ⟨none, rfl, rfl⟩
  complete := by
    rintro input (_ | ⟨m, d⟩) rest hd hr
    · obtain rfl : rest = input := hd
      have hlacks : Lacks (isToken? .conditional) rest := hr.lacks (Rule.apart_of_isToken rfl)
      unfold conditions
      split
      · simp [isToken?] at hlacks
      · rfl
    · obtain ⟨middle, hmark, hd⟩ := hd
      obtain ⟨position, raw, rfl⟩ := eq_cons_of_mark hmark
      exact (reads_joinedList _ reads_condition).complete hd
        ⟨hr.endsPhrase false, hr.lacks (Rule.apart_of_isToken rfl)⟩

theorem reads_norm : Reads norm Rule.norm NormTree.norm Boundary where
  sound := by
    intro input a rest h
    simp only [norm, bind_eq_ok] at h
    obtain ⟨⟨_, r₁⟩, h₁, ⟨_, r₂⟩, h₂, ⟨_, r₃⟩, h₃, ⟨_, r₄⟩, h₄, ⟨_, r₅⟩, h₅, ⟨_, r₆⟩, h₆, hend⟩ := h
    obtain ⟨d₁, hd₁, rfl⟩ := (reads_take _ _).sound h₁
    obtain ⟨d₂, hd₂, rfl⟩ := (reads_take _ _).sound h₂
    obtain ⟨d₃, hd₃, rfl⟩ := (reads_take _ _).sound h₃
    obtain ⟨d₄, hd₄, rfl⟩ := (reads_phrase _ _).sound h₄
    obtain ⟨d₅, hd₅, rfl⟩ := reads_scope.sound h₅
    obtain ⟨d₆, hd₆, rfl⟩ := reads_conditions.sound h₆
    obtain ⟨rfl, rfl⟩ := Prod.mk.inj (Except.ok.inj hend)
    exact ⟨(d₁, d₂, d₃, d₄, d₅, d₆), ⟨r₁, hd₁, r₂, hd₂, r₃, hd₃, r₄, hd₄, r₅, hd₅, hd₆⟩, rfl⟩
  complete := by
    rintro input ⟨d₁, d₂, d₃, d₄, d₅, d₆⟩ rest
      ⟨r₁, hd₁, r₂, hd₂, r₃, hd₃, r₄, hd₄, r₅, hd₅, hd₆⟩ hr
    have hends := Rule.endsScope_of_conditions hd₆ hr
    have h₁ := (reads_take _ .normNumber).complete hd₁ trivial
    have h₂ := (reads_take _ .role).complete hd₂ trivial
    have h₃ := (reads_take _ .deontic).complete hd₃ trivial
    have h₄ := (reads_phrase .action _).complete hd₄ (Rule.endsPhrase_of_scope hd₅ hends.1)
    have h₅ := reads_scope.complete hd₅ hends
    have h₆ := reads_conditions.complete hd₆ hr
    simp only [norm, bind_eq_ok]
    exact ⟨_, h₁, _, h₂, _, h₃, _, h₄, _, h₅, _, h₆, rfl⟩

/-! ### Violations and facts -/

theorem reads_reference :
    Reads reference Rule.reference (fun d ↦ d.2.value) (fun _ ↦ True) where
  sound := by
    intro input a rest h
    obtain ⟨d, hd, rfl⟩ := (reads_take _ _).sound h
    obtain ⟨m, hm⟩ := skip_sound .normReference input
    exact ⟨(m, d), ⟨_, hm, hd⟩, rfl⟩
  complete := by
    rintro input ⟨m, d⟩ rest ⟨middle, hm, hd⟩ -
    have hskip := skip_complete hm fun _ ↦ (Rule.apart_of_isToken rfl).lacks hd
    rw [reference, hskip, number, (reads_take _ _).complete hd trivial]

theorem reads_violatedNorms :
    Reads violatedNorms Rule.violatedNorms ViolatedTree.norms
      (Lacks (isToken? .conjunction)) where
  sound := by
    intro input a rest h
    simp only [violatedNorms, bind_eq_ok] at h
    obtain ⟨⟨_, r₁⟩, h₁, h⟩ := h
    obtain ⟨d, hd, rfl⟩ := reads_reference.sound h₁
    dsimp only at h
    split at h
    · rename_i position raw tail
      obtain ⟨⟨id, r₂⟩, h₂, hpair⟩ := map_eq_ok.1 h
      obtain ⟨rfl, rfl⟩ := Prod.mk.inj hpair
      obtain ⟨e, he, rfl⟩ := reads_reference.sound h₂
      exact ⟨(d, some (_, e)), ⟨_, hd, tail, mark_cons rfl, he⟩, rfl⟩
    · obtain ⟨rfl, rfl⟩ := Prod.mk.inj (Except.ok.inj h)
      exact ⟨(d, none), ⟨_, hd, rfl⟩, rfl⟩
  complete := by
    rintro input ⟨d, e⟩ rest ⟨middle, hd, he⟩ hr
    simp only [violatedNorms, bind_eq_ok]
    refine ⟨_, reads_reference.complete hd trivial, ?_⟩
    obtain _ | ⟨m, e⟩ := e
    · obtain rfl : rest = middle := he
      dsimp only
      split
      · simp [isToken?] at hr
      · rfl
    · obtain ⟨_, hmark, he⟩ := he
      obtain ⟨position, raw, rfl⟩ := eq_cons_of_mark hmark
      dsimp only
      rw [reads_reference.complete he trivial]
      rfl

theorem reads_violation : Reads violation Rule.violation ViolationTree.violation Boundary where
  sound := by
    intro input a rest h
    simp only [violation, bind_eq_ok] at h
    obtain ⟨⟨_, r₁⟩, h₁, ⟨_, r₂⟩, h₂, ⟨_, r₃⟩, h₃, ⟨_, r₄⟩, h₄, hend⟩ := h
    obtain ⟨d₁, hd₁, rfl⟩ := reads_violatedNorms.sound h₁
    obtain ⟨d₂, hd₂, -⟩ := (reads_expect _ _).sound h₂
    obtain ⟨d₃, hd₃, rfl⟩ := (reads_take _ _).sound h₃
    obtain ⟨d₄, hd₄, hdeontic⟩ := takeOr_sound deontic? .claimRight r₃
    obtain ⟨d₅, hd₅, rfl⟩ := (reads_phrase _ _).sound h₄
    obtain ⟨rfl, rfl⟩ := Prod.mk.inj (Except.ok.inj hend)
    refine ⟨(d₁, d₂, d₃, d₄, d₅), ⟨r₁, hd₁, r₂, hd₂, r₃, hd₃, _, hd₄, hd₅⟩, ?_⟩
    rw [← hdeontic]
    rfl
  complete := by
    rintro input ⟨d₁, d₂, d₃, d₄, d₅⟩ rest ⟨r₁, hd₁, r₂, hd₂, r₃, hd₃, r₄, hd₄, hd₅⟩ hr
    have h₁ := reads_violatedNorms.complete hd₁ ((Rule.apart_isToken rfl).lacks hd₂)
    have h₂ := (reads_expect _ .consequenceMarker).complete hd₂ trivial
    have h₃ := (reads_take _ .role).complete hd₃ trivial
    have h₄ : takeOr deontic? .claimRight r₃ = _ := takeOr_complete hd₄ fun _ ↦ by
      -- If the position is left out, the consequence follows, and its first word is none.
      obtain ⟨_, hword, -⟩ := hd₅
      exact (Rule.apart_word_deontic false).lacks_word hword
    have h₅ := (reads_phrase .consequence _).complete hd₅ (hr.endsPhrase true)
    simp only [violation, bind_eq_ok]
    refine ⟨_, h₁, _, h₂, _, h₃, ?_⟩
    rw [h₄]
    exact ⟨_, h₅, rfl⟩

theorem reads_fact : Reads fact Rule.fact FactTree.fact Boundary where
  sound := by
    intro input a rest h
    simp only [fact, bind_eq_ok] at h
    obtain ⟨⟨_, r₁⟩, h₁, ⟨_, r₂⟩, h₂, ⟨_, r₃⟩, h₃, hend⟩ := h
    obtain ⟨d₁, hd₁, rfl⟩ := (reads_phrase _ _).sound h₁
    obtain ⟨d₂, hd₂, -⟩ := (reads_expect _ _).sound h₂
    obtain ⟨d₃, hd₃, rfl⟩ := (reads_phrase _ _).sound h₃
    obtain ⟨rfl, rfl⟩ := Prod.mk.inj (Except.ok.inj hend)
    exact ⟨(d₁, d₂, d₃), ⟨r₁, hd₁, r₂, hd₂, hd₃⟩, rfl⟩
  complete := by
    rintro input ⟨d₁, d₂, d₃⟩ rest ⟨r₁, hd₁, r₂, hd₂, hd₃⟩ hr
    have h₁ := (reads_phrase .factDescription _).complete hd₁
      (Rule.endsPhrase_of_mark ⟨r₂, hd₂, hd₃⟩ rfl)
    have h₂ := (reads_expect _ .evidenceMarker).complete hd₂ trivial
    have h₃ := (reads_phrase .evidence _).complete hd₃ (hr.endsPhrase true)
    simp only [fact, bind_eq_ok]
    exact ⟨_, h₁, _, h₂, _, h₃, rfl⟩

/-! ### Agendas -/

theorem reads_relief : Reads relief Rule.relief ReliefTree.relief Boundary where
  sound := by
    intro input a rest h
    unfold relief at h
    split at h
    · rename_i position raw tail
      obtain ⟨rfl, rfl⟩ := Prod.mk.inj (Except.ok.inj h)
      exact ⟨.inl _, mark_cons rfl, rfl⟩
    · rename_i position raw tail
      obtain ⟨⟨list, rest'⟩, hlist, hpair⟩ := map_eq_ok.1 h
      obtain ⟨rfl, rfl⟩ := Prod.mk.inj hpair
      obtain ⟨d, hd, rfl⟩ := (reads_joinedList _ (reads_phrase _ _)).sound hlist
      exact ⟨.inr (_, d), ⟨tail, mark_cons rfl, hd⟩, rfl⟩
    · simp at h
  complete := by
    rintro input (d | ⟨m, d⟩) rest hd hr
    · obtain ⟨position, raw, rfl⟩ := eq_cons_of_mark hd
      rfl
    · obtain ⟨middle, hmark, hd⟩ := hd
      obtain ⟨position, raw, rfl⟩ := eq_cons_of_mark hmark
      have hlist := (reads_joinedList (phrase_shrinks .remedy false) (reads_phrase _ _)).complete hd
        ⟨hr.endsPhrase false, hr.lacks (Rule.apart_of_isToken rfl)⟩
      rw [relief, hlist]
      rfl

theorem reads_agenda (institutionName : String) :
    Reads (agenda institutionName) Rule.agenda (AgendaTree.agenda institutionName) Boundary where
  sound := by
    intro input a rest h
    simp only [agenda, bind_eq_ok] at h
    obtain ⟨⟨requester, r₁⟩, h₁, ⟨_, r₂⟩, h₂, ⟨_, r₄⟩, h₄, ⟨_, r₈⟩, h₈, hend⟩ := h
    obtain ⟨d₁, hd₁, rfl⟩ := (reads_take _ _).sound h₁
    obtain ⟨d₂, hd₂, -⟩ := (reads_expect _ _).sound h₂
    obtain ⟨d₃, hd₃⟩ := skip_sound .establish r₂
    obtain ⟨d₄, hd₄, rfl⟩ := (reads_take _ _).sound h₄
    obtain ⟨d₅, hd₅, hname⟩ := takeOr_sound referredName? institutionName r₄
    obtain ⟨d₆, hd₆⟩ := skip_sound .adjudicate (takeOr referredName? institutionName r₄).2
    obtain ⟨d₇, hd₇, hbeneficiary⟩ := takeOr_sound role? d₁.value
      (skip .adjudicate (takeOr referredName? institutionName r₄).2)
    obtain ⟨d₈, hd₈, rfl⟩ := reads_relief.sound h₈
    obtain ⟨rfl, rfl⟩ := Prod.mk.inj (Except.ok.inj hend)
    refine ⟨(d₁, d₂, d₃, d₄, d₅, d₆, d₇, d₈),
      ⟨r₁, hd₁, r₂, hd₂, _, hd₃, r₄, hd₄, _, hd₅, _, hd₆, _, hd₇, hd₈⟩, ?_⟩
    rw [← hname, ← hbeneficiary]
    rfl
  complete := by
    rintro input ⟨d₁, d₂, d₃, d₄, d₅, d₆, d₇, d₈⟩ rest
      ⟨r₁, hd₁, r₂, hd₂, r₃, hd₃, r₄, hd₄, r₅, hd₅, r₆, hd₆, r₇, hd₇, hd₈⟩ hr
    have h₁ := (reads_take _ .role).complete hd₁ trivial
    have h₂ := (reads_expect _ .seek).complete hd₂ trivial
    have h₃ := skip_complete hd₃ fun _ ↦ (Rule.apart_of_isToken rfl).lacks hd₄
    have h₄ := (reads_take _ .compliance).complete hd₄ trivial
    -- A part that is left out is not taken from what follows, whichever parts those are.
    have h₅ : takeOr referredName? institutionName r₄ = _ := takeOr_complete hd₅ fun _ ↦
      (Rule.apart_isToken rfl).lacks_opt hd₆
        (Rule.apart_role_referredName.lacks_opt hd₇ (Rule.lacks_of_relief hd₈ rfl rfl))
    have h₆ := skip_complete hd₆ fun _ ↦
      (Rule.apart_of_isToken rfl).lacks_opt hd₇ (Rule.lacks_of_relief hd₈ rfl rfl)
    have h₇ : takeOr role? d₁.value r₆ = _ := takeOr_complete hd₇ fun _ ↦
      Rule.lacks_of_relief hd₈ rfl rfl
    have h₈ := reads_relief.complete hd₈ hr
    simp only [agenda, bind_eq_ok]
    refine ⟨_, h₁, _, h₂, _, h₃ ▸ h₄, ?_⟩
    rw [h₅, h₆, h₇]
    exact ⟨_, h₈, rfl⟩

/-! ### The parts of a schema -/

theorem reads_institution :
    Reads institution Rule.institution InstitutionTree.institution Boundary where
  sound := by
    intro input a rest h
    simp only [institution, bind_eq_ok] at h
    obtain ⟨⟨_, r₁⟩, h₁, ⟨_, r₂⟩, h₂, hend⟩ := h
    obtain ⟨d₁, hd₁, -⟩ := (reads_expect _ _).sound h₁
    obtain ⟨d₂, hd₂, rfl⟩ := (reads_take _ _).sound h₂
    obtain ⟨d₃, hd₃, htype⟩ := takeOr_sound institutionType? "contrato" r₂
    obtain ⟨d₄, hd₄, hmultiplicity⟩ := takeOr_sound multiplicity? .multiple
      (takeOr institutionType? "contrato" r₂).2
    obtain ⟨d₅, hd₅, hdomain⟩ := takeOr_sound legalDomain? ""
      (takeOr multiplicity? .multiple (takeOr institutionType? "contrato" r₂).2).2
    obtain ⟨rfl, rfl⟩ := Prod.mk.inj (Except.ok.inj hend)
    refine ⟨(d₁, d₂, d₃, d₄, d₅), ⟨r₁, hd₁, r₂, hd₂, _, hd₃, _, hd₄, hd₅⟩, ?_⟩
    rw [← htype, ← hmultiplicity, ← hdomain]
    rfl
  complete := by
    rintro input ⟨d₁, d₂, d₃, d₄, d₅⟩ rest ⟨r₁, hd₁, r₂, hd₂, r₃, hd₃, r₄, hd₄, hd₅⟩ hr
    obtain ⟨⟨hitemType, hitemMultiplicity, hitemDomain⟩, hmultiplicityType, hdomainType,
      hdomainMultiplicity⟩ := Rule.institutionParts_apart
    have h₁ := (reads_expect _ .institutionMarker).complete hd₁ trivial
    have h₂ := (reads_take _ .institutionName).complete hd₂ trivial
    have h₃ : takeOr institutionType? "contrato" r₂ = _ := takeOr_complete hd₃ fun _ ↦
      hmultiplicityType.lacks_opt hd₄ (hdomainType.lacks_opt hd₅ (hr.lacks hitemType))
    have h₄ : takeOr multiplicity? .multiple r₃ = _ := takeOr_complete hd₄ fun _ ↦
      hdomainMultiplicity.lacks_opt hd₅ (hr.lacks hitemMultiplicity)
    have h₅ : takeOr legalDomain? "" r₄ = _ := takeOr_complete hd₅ fun _ ↦ hr.lacks hitemDomain
    simp only [institution, bind_eq_ok]
    refine ⟨_, h₁, _, h₂, ?_⟩
    rw [h₃, h₄, h₅]
    rfl

theorem reads_item (institutionName : String) :
    Reads (item institutionName) Rule.item (ItemTree.item institutionName) Boundary where
  sound := by
    intro input a rest h
    unfold item at h
    split at h
    · simp at h
    · rename_i l tail
      cases hkind : itemKind? l.token with
      | none => simp [hkind] at h
      | some kind =>
        rw [hkind] at h
        cases kind with
        | norm =>
          obtain ⟨⟨n, rest'⟩, hn, hpair⟩ := map_eq_ok.1 h
          obtain ⟨rfl, rfl⟩ := Prod.mk.inj hpair
          obtain ⟨d, hd, rfl⟩ := reads_norm.sound hn
          obtain ⟨_, ⟨hnumber, _⟩, _⟩ := id hd
          obtain ⟨rfl, -⟩ := List.cons.inj hnumber
          exact ⟨.inl d, hd, rfl⟩
        | violation =>
          obtain ⟨⟨v, rest'⟩, hv, hpair⟩ := map_eq_ok.1 h
          obtain ⟨rfl, rfl⟩ := Prod.mk.inj hpair
          obtain ⟨d, hd, rfl⟩ := reads_violation.sound hv
          have htoken := itemKind?_eq_violation.mp hkind
          exact ⟨.inr (.inl (⟨l, ()⟩, d)), ⟨tail, mark_cons htoken, hd⟩, rfl⟩
        | fact =>
          obtain ⟨⟨f, rest'⟩, hf, hpair⟩ := map_eq_ok.1 h
          obtain ⟨rfl, rfl⟩ := Prod.mk.inj hpair
          obtain ⟨d, hd, rfl⟩ := reads_fact.sound hf
          have htoken := itemKind?_eq_fact.mp hkind
          exact ⟨.inr (.inr (.inl (⟨l, ()⟩, d))), ⟨tail, mark_cons htoken, hd⟩, rfl⟩
        | agenda =>
          obtain ⟨⟨g, rest'⟩, hg, hpair⟩ := map_eq_ok.1 h
          obtain ⟨rfl, rfl⟩ := Prod.mk.inj hpair
          obtain ⟨d, hd, rfl⟩ := (reads_agenda institutionName).sound hg
          exact ⟨.inr (.inr (.inr d)), hd, rfl⟩
  complete := by
    rintro input (d | d | d | d) rest hd hr
    · have hn := reads_norm.complete hd hr
      obtain ⟨_, ⟨rfl, hid⟩, -⟩ := hd
      have hkind : itemKind? (.number d.1.value) = some .norm := rfl
      simp only [item, number?_eq_some.mp hid, hkind, hn]
      rfl
    · obtain ⟨_, hmark, hd⟩ := hd
      obtain ⟨position, raw, rfl⟩ := eq_cons_of_mark hmark
      have hkind : itemKind? .violation = some .violation := rfl
      simp only [item, hkind, reads_violation.complete hd hr]
      rfl
    · obtain ⟨_, hmark, hd⟩ := hd
      obtain ⟨position, raw, rfl⟩ := eq_cons_of_mark hmark
      have hkind : itemKind? .fact = some .fact := rfl
      simp only [item, hkind, reads_fact.complete hd hr]
      rfl
    · have hg := (reads_agenda institutionName).complete hd hr
      obtain ⟨_, ⟨rfl, hrole⟩, -⟩ := hd
      obtain ⟨text, htoken, -⟩ := role?_eq_some.mp hrole
      have hkind : itemKind? (.role text) = some .agenda := rfl
      simp only [item, htoken, hkind, hg]
      rfl

end Normative.Grammar
