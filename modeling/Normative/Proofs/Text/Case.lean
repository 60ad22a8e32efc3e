import Normative.Identifier
import Normative.Text.Fold

/-!
# Case and the characters before the letters

The code points of digits, blanks and most marks lie before those of the letters. Such characters
have no case: the lower or upper case of a text has each of them as often as the text. The null
character is left out, since a code point that is not valid becomes one.

## Main definitions

* `Text.IsLow` : the characters before the letters.
* `Text.Recases` : characters that may come of a change of case.

## Main results

* `Text.count_upper`, `Text.count_lowercase` : a change of case keeps the characters before the
  letters.
-/

namespace Normative

namespace Text

/-- A character before the letters that is not null. -/
def IsLow (c : Char) : Prop := c.toNat ≠ 0 ∧ c.toNat < 0x41

instance : DecidablePred IsLow := fun c ↦ inferInstanceAs (Decidable (c.toNat ≠ 0 ∧ c.toNat < 0x41))

theorem isLow_newline : IsLow '\n' := by decide

/-- Characters that may come of a change of case: the character itself, or characters in the place
of one that is not low, none of which is low either. -/
def Recases (c : Char) (image : List Char) : Prop :=
  image = [c] ∨ ¬ IsLow c ∧ ∀ e ∈ image, ¬ IsLow e

theorem Recases.count_eq {c x : Char} {image : List Char} (h : Recases c image) (hx : IsLow x) :
    image.count x = [c].count x := by
  obtain rfl | ⟨hc, himage⟩ := h
  · rfl
  · have hne : x ∉ [c] := by
      rw [List.mem_singleton]
      rintro rfl
      exact hc hx
    rw [List.count_eq_zero.mpr hne, List.count_eq_zero]
    exact fun hmem ↦ himage x hmem hx

/-! ### The tables -/

theorem not_isLow_ofNat {n : Nat} (h : 0x41 ≤ n) : ¬ IsLow (Char.ofNat n) := by
  rintro ⟨hne, hlt⟩
  by_cases hvalid : n.isValidChar
  · have hvalue : Char.ofNat n = Char.ofNatAux n hvalid := dif_pos hvalid
    rw [hvalue] at hlt
    exact absurd (show n < 0x41 from hlt) (Nat.not_lt.mpr h)
  · -- A number that is no code point stands for the character zero, which is not low.
    have hzero : Char.ofNat n = ⟨0, .inl (by decide)⟩ := dif_neg hvalid
    exact hne (congrArg Char.toNat hzero)

theorem Span.bounds_of_contains {s : Span} {n : Nat} (h : s.contains n = true) :
    s.first ≤ n ∧ n ≤ s.last := by
  simp only [Span.contains, Bool.and_eq_true, decide_eq_true_eq] at h
  exact h.1

/-- A value that a table gives belongs to a span of the table that holds the code point. -/
theorem Span.exists_of_find? {α : Type} {table : List (Span × α)} {n : Nat} {a : α}
    (h : Span.find? table n = some a) : ∃ s, (s, a) ∈ table ∧ s.contains n = true := by
  induction table with
  | nil => exact absurd h (by simp [Span.find?])
  | cons entry table ih =>
    obtain ⟨s, b⟩ := entry
    rw [Span.find?] at h
    split at h
    · exact absurd h (by simp)
    · split at h
      · rename_i hcontains
        obtain rfl := Option.some.inj h
        exact ⟨s, List.mem_cons_self, hcontains⟩
      · obtain ⟨s', hs', hcontains⟩ := ih h
        exact ⟨s', List.mem_cons_of_mem _ hs', hcontains⟩

/-- A table of distances leads from letters to letters. -/
theorem recases_shift {table : List (Span × Int)}
    (htable : ∀ entry ∈ table, 0x41 ≤ entry.1.first ∧ 0x41 ≤ entry.1.first + entry.2) (c : Char) :
    Recases c [shift c ((Span.find? table c.toNat).getD 0)] := by
  cases hfind : Span.find? table c.toNat with
  | none =>
    left
    simp [shift]
  | some distance =>
    -- The distance is the same in the whole span, so the first character of the span decides.
    right
    obtain ⟨s, hs, hcontains⟩ := Span.exists_of_find? hfind
    obtain ⟨hfirst, -⟩ := Span.bounds_of_contains hcontains
    obtain ⟨hletter, himage⟩ := htable _ hs
    dsimp only at hletter himage
    refine ⟨fun hlow ↦ by have := hlow.2; omega, ?_⟩
    rw [Option.getD_some, List.forall_mem_singleton]
    exact not_isLow_ofNat (by omega)

theorem recases_lowerChar (c : Char) : Recases c (lowerChar c) := by
  have htable : lowerSpans.all (fun entry ↦
      0x41 ≤ entry.1.first ∧ (0x41 : Int) ≤ entry.1.first + entry.2) = true := by
    decide +kernel
  rw [lowerChar]
  split
  · rename_i hc
    refine .inr ⟨fun hlow ↦ by have := hlow.2; omega, ?_⟩
    simp [IsLow]
  · refine recases_shift (fun entry hentry ↦ ?_) c
    simpa using List.all_eq_true.mp htable entry hentry

theorem recases_upperChar (c : Char) : Recases c (upperChar c) := by
  have htable : upperSpans.all (fun entry ↦
      0x41 ≤ entry.1.first ∧ (0x41 : Int) ≤ entry.1.first + entry.2) = true := by
    decide +kernel
  have hexpansions : upperExpansions.all (fun entry ↦
      decide (0x41 ≤ entry.1.first) && entry.2.all (0x41 ≤ ·)) = true := by
    decide +kernel
  rw [upperChar]
  split
  · rename_i expansion hfind
    obtain ⟨s, hs, hcontains⟩ := Span.exists_of_find? hfind
    obtain ⟨hfirst, -⟩ := Span.bounds_of_contains hcontains
    obtain ⟨hletter, himage⟩ : 0x41 ≤ s.first ∧ ∀ n ∈ expansion, 0x41 ≤ n := by
      simpa using List.all_eq_true.mp hexpansions _ hs
    refine .inr ⟨fun hlow ↦ by have := hlow.2; omega, ?_⟩
    rw [List.forall_mem_map]
    exact fun n hn ↦ not_isLow_ofNat (himage n hn)
  · refine recases_shift (fun entry hentry ↦ ?_) c
    simpa using List.all_eq_true.mp htable entry hentry

/-! ### Texts -/

variable {x : Char}

/-- Upper case keeps the characters before the letters. -/
theorem count_upper (hx : IsLow x) (text : String) :
    (upper text).toList.count x = text.toList.count x := by
  rw [upper, String.toList_ofList]
  induction text.toList with
  | nil => rfl
  | cons c rest ih =>
    rw [List.flatMap_cons, List.count_append, (recases_upperChar c).count_eq hx, ih,
      ← List.count_append, List.singleton_append]

/-- Folding keeps the characters before the letters. -/
theorem count_fold (hx : IsLow x) (text : String) :
    (fold text).count x = text.toList.count x := by
  rw [fold]
  induction text.toList with
  | nil => rfl
  | cons c rest ih =>
    rw [List.flatMap_cons, List.count_append, (recases_lowerChar c).count_eq hx, ih,
      ← List.count_append, List.singleton_append]

/-- Lower case keeps the characters before the letters. -/
theorem count_lowercase (hx : IsLow x) (text : String) :
    (lowercase text).toList.count x = text.toList.count x := by
  -- What a sigma becomes depends on the characters before it, but it is never a low character.
  have hafter (rest : List Char) :
      ∀ before, (lowercaseAfter before rest).count x = rest.count x := by
    induction rest with
    | nil => exact fun _ ↦ rfl
    | cons c rest ih =>
      intro before
      have hc : Recases c (if c = 'Σ' then [lowerSigma before rest] else lowerChar c) := by
        split
        · rename_i hsigma
          subst hsigma
          refine .inr ⟨by simp [IsLow], ?_⟩
          rw [List.forall_mem_singleton, lowerSigma]
          split <;> simp [IsLow]
        · exact recases_lowerChar c
      rw [lowercaseAfter, List.count_append, hc.count_eq hx, ih, ← List.count_append,
        List.singleton_append]
  rw [lowercase, String.toList_ofList]
  exact hafter _ []

end Text

/-- A capital at the beginning keeps the characters before the letters. -/
theorem Identifier.count_capitalize {x : Char} (hx : Text.IsLow x) (word : String) :
    (capitalize word).toList.count x = word.toList.count x := by
  rw [capitalize]
  split
  · rename_i h
    rw [h]
    rfl
  · rename_i c rest h
    rw [h, String.toList_ofList, List.count_append, (Text.recases_upperChar c).count_eq hx,
      ← List.count_append, List.singleton_append]

end Normative
