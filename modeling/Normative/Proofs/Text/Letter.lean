import Normative.Proofs.Text.Case

/-!
# Lower case keeps the ends of words

Whether a word goes on before or after a place is decided by the nearest character there that is
not case-ignorable: it goes on if that one is cased. Lower case does not change the answer. A
character that has a lower case of its own is cased and not case-ignorable, and so is its lower
case; the capital `I` with a dot becomes two characters, of which the second is case-ignorable.

The forms of sigma stand apart: only the capital one is changed by lower case, and no other
character becomes a sigma.

## Main definitions

* `Text.IsLetter` : a cased character that is not case-ignorable.
* `Text.IsSigma` : the forms of sigma.
* `Text.lowerButSigma` : lower case that leaves the capital sigma as it is.

## Main results

* `Text.lowers_lowerButSigma` : what lower case makes of a character.
* `Text.Lowers.nextIsCased_append`, `Text.Lowers.nextIsCased_reverse_append` : lower case keeps the
  ends of words.
-/

namespace Normative.Text

/-! ### Spans inside and outside of a table -/

namespace Span

/-- Whether one span of a table holds all code points from `first` to `last`, and none in front of
it begins after `first`. -/
def holdsAll : List Span → Nat → Nat → Bool
  | [], _, _ => false
  | s :: table, first, last =>
    Nat.ble s.first first &&
      ((Nat.beq s.stride 1 && Nat.ble last s.last) || holdsAll table first last)

/-- Whether the spans of a table that begin no later than `last` end before `first`. -/
def holdsNone : List Span → Nat → Nat → Bool
  | [], _, _ => true
  | s :: table, first, last =>
    Nat.blt last s.first || (Nat.blt s.last first && holdsNone table first last)

variable {table : List Span} {first last n : Nat}

theorem holds_of_holdsAll (h : holdsAll table first last = true) (hfirst : first ≤ n)
    (hlast : n ≤ last) : holds table n = true := by
  induction table with
  | nil => exact absurd h Bool.false_ne_true
  | cons s table ih =>
    simp only [holdsAll, Bool.and_eq_true, Bool.or_eq_true, Nat.ble_eq, Nat.beq_eq] at h
    obtain ⟨hbegin, ⟨hstride, hend⟩ | htable⟩ := h
    · have hcontains : s.contains n = true := by
        simp only [contains, hstride, Nat.mod_one, beq_self_eq_true, Bool.and_true,
          Bool.and_eq_true, decide_eq_true_eq]
        omega
      rw [holds, if_neg (by omega), hcontains, Bool.true_or]
    · rw [holds, if_neg (by omega), ih htable, Bool.or_true]

theorem holds_eq_false_of_holdsNone (h : holdsNone table first last = true) (hfirst : first ≤ n)
    (hlast : n ≤ last) : holds table n = false := by
  induction table with
  | nil => rfl
  | cons s table ih =>
    simp only [holdsNone, Bool.and_eq_true, Bool.or_eq_true, Nat.blt_eq] at h
    rw [holds]
    split
    · rfl
    · obtain hbegin | ⟨hend, htable⟩ := h
      · omega
      · have hcontains : s.contains n = false := by
          simp only [contains, Bool.and_eq_false_iff, decide_eq_false_iff_not]
          omega
        rw [hcontains, ih htable, Bool.or_false]

/-- The code points of a span, one after the other. -/
def points (s : Span) : List Nat :=
  (List.range ((s.last - s.first) / s.stride + 1)).map fun k ↦ s.first + s.stride * k

theorem mem_points {s : Span} (h : s.contains n = true) : n ∈ s.points := by
  simp only [contains, Bool.and_eq_true, decide_eq_true_eq, beq_iff_eq] at h
  obtain ⟨⟨hfirst, hlast⟩, hstride⟩ := h
  refine List.mem_map.mpr ⟨(n - s.first) / s.stride, List.mem_range.mpr ?_, ?_⟩
  · exact Nat.lt_succ_of_le (Nat.div_le_div_right (by omega))
  · rw [Nat.mul_div_cancel' (Nat.dvd_of_mod_eq_zero hstride)]
    omega

end Span

/-! ### Letters -/

/-- A character that decides whether a word goes on, and says that it does. -/
def IsLetter (c : Char) : Prop := isCased c = true ∧ isCaseIgnorable c = false

instance : DecidablePred IsLetter := fun c ↦
  inferInstanceAs (Decidable (isCased c = true ∧ isCaseIgnorable c = false))

/-- The capital sigma, the small one, and the small one at the end of a word. -/
def IsSigma (c : Char) : Prop := c = 'Σ' ∨ c = 'σ' ∨ c = 'ς'

instance : DecidablePred IsSigma := fun c ↦
  inferInstanceAs (Decidable (c = 'Σ' ∨ c = 'σ' ∨ c = 'ς'))

theorem IsSigma.isLetter {c : Char} (h : IsSigma c) : IsLetter c := by
  obtain rfl | rfl | rfl := h <;> decide +kernel

variable {c d : Char} {distance : Int} {image : List Char}

/-- The code point of a character with a lower case of its own, and that of the lower case. -/
theorem toNat_shift (h : Span.find? lowerSpans c.toNat = some distance) :
    (shift c distance).toNat = (c.toNat + distance).toNat := by
  have hvalid : lowerSpans.all (fun entry ↦
      Nat.blt (entry.1.last + entry.2).toNat 0xD800 ||
        (Nat.blt 0xDFFF (entry.1.first + entry.2).toNat &&
          Nat.blt (entry.1.last + entry.2).toNat 0x110000)) = true := by
    decide +kernel
  obtain ⟨s, hs, hcontains⟩ := Span.exists_of_find? h
  obtain ⟨hfirst, hlast⟩ := Span.bounds_of_contains hcontains
  have hs := List.all_eq_true.mp hvalid _ hs
  simp only [Bool.and_eq_true, Bool.or_eq_true, Nat.blt_eq] at hs
  have hvalid : (c.toNat + distance).toNat.isValidChar := by
    unfold Nat.isValidChar
    omega
  have hvalue : shift c distance = Char.ofNatAux _ hvalid := dif_pos hvalid
  rw [hvalue]
  rfl

theorem isLetter_of_find? (h : Span.find? lowerSpans c.toNat = some distance) :
    IsLetter c ∧ IsLetter (shift c distance) := by
  have hcased : lowerSpans.all (fun entry ↦
      (Span.holdsAll casedSpans entry.1.first entry.1.last ||
        entry.1.points.all (Span.holds casedSpans)) &&
      Span.holdsAll casedSpans (entry.1.first + entry.2).toNat (entry.1.last + entry.2).toNat) =
        true := by
    decide +kernel
  have hignorable : lowerSpans.all (fun entry ↦
      Span.holdsNone caseIgnorableSpans entry.1.first entry.1.last &&
      Span.holdsNone caseIgnorableSpans (entry.1.first + entry.2).toNat
        (entry.1.last + entry.2).toNat) = true := by
    decide +kernel
  obtain ⟨s, hs, hcontains⟩ := Span.exists_of_find? h
  obtain ⟨hfirst, hlast⟩ := Span.bounds_of_contains hcontains
  have hcased := List.all_eq_true.mp hcased _ hs
  have hignorable := List.all_eq_true.mp hignorable _ hs
  simp only [Bool.and_eq_true, Bool.or_eq_true] at hcased hignorable
  refine ⟨⟨?_, Span.holds_eq_false_of_holdsNone hignorable.1 hfirst hlast⟩, ?_, ?_⟩
  · exact hcased.1.elim (Span.holds_of_holdsAll · hfirst hlast)
      fun hpoints ↦ List.all_eq_true.mp hpoints _ (Span.mem_points hcontains)
  · rw [isCased, toNat_shift h]
    exact Span.holds_of_holdsAll hcased.2 (by omega) (by omega)
  · rw [isCaseIgnorable, toNat_shift h]
    exact Span.holds_eq_false_of_holdsNone hignorable.2 (by omega) (by omega)

/-- Only the capital sigma has a sigma as its lower case. -/
theorem not_isSigma_of_find? (h : Span.find? lowerSpans c.toNat = some distance) (hc : c ≠ 'Σ') :
    ¬ IsSigma c ∧ ¬ IsSigma (shift c distance) := by
  have htable : lowerSpans.all (fun entry ↦ [0x3A3, 0x3C2, 0x3C3].all fun (n : Nat) ↦
      !entry.1.contains (n - entry.2).toNat || Nat.beq (n - entry.2).toNat 0x3A3) = true := by
    decide +kernel
  refine ⟨?_, fun hsigma ↦ hc ?_⟩
  · rintro (rfl | rfl | rfl)
    · exact hc rfl
    · have hnone : Span.find? lowerSpans 'σ'.toNat = none := by decide +kernel
      exact absurd (hnone.symm.trans h) (by simp)
    · have hnone : Span.find? lowerSpans 'ς'.toNat = none := by decide +kernel
      exact absurd (hnone.symm.trans h) (by simp)
  · have hcode : (shift c distance).toNat ∈ [0x3A3, 0x3C2, 0x3C3] := by
      obtain h | h | h := hsigma <;> rw [h] <;> decide
    obtain ⟨s, hs, hcontains⟩ := Span.exists_of_find? h
    have hs := List.all_eq_true.mp (List.all_eq_true.mp htable _ hs) _ hcode
    have hpos : (shift c distance).toNat ≠ 0 := fun hzero ↦ by simp [hzero] at hcode
    rw [toNat_shift h] at hs hpos
    have hsource : (((c.toNat + distance).toNat : Int) - distance).toNat = c.toNat := by omega
    simp only [hsource, hcontains, Bool.not_true, Bool.false_or, Nat.beq_eq] at hs
    exact Char.toNat_inj.mp hs

/-- Lower case that leaves the capital sigma as it is. -/
def lowerButSigma (c : Char) : List Char := if c = 'Σ' then [c] else lowerChar c

/-- What such a lower case may make of a character: the character itself, or something in the place
of a letter, with no sigma on either side. -/
inductive Lowers (c : Char) : List Char → Prop
  | same : Lowers c [c]
  | letter {d : Char} (hc : IsLetter c ∧ ¬ IsSigma c) (hd : IsLetter d ∧ ¬ IsSigma d) : Lowers c [d]
  | dotted (hc : IsLetter c ∧ ¬ IsSigma c) : Lowers c ['i', Char.ofNat 0x307]

theorem lowers_lowerButSigma (c : Char) : Lowers c (lowerButSigma c) := by
  rw [lowerButSigma]
  split
  · exact .same
  · rename_i hsigma
    rw [lowerChar]
    split
    · rename_i hdotted
      have hc : c = Char.ofNat 0x130 := Char.toNat_inj.mp hdotted
      rw [hc]
      exact .dotted (by decide +kernel)
    · cases hfind : Span.find? lowerSpans c.toNat with
      | none =>
        have hsame : shift c 0 = c := by simp [shift]
        rw [Option.getD_none, hsame]
        exact .same
      | some distance =>
        obtain ⟨hc, hd⟩ := isLetter_of_find? hfind
        obtain ⟨hcsigma, hdsigma⟩ := not_isSigma_of_find? hfind hsigma
        exact .letter ⟨hc, hcsigma⟩ ⟨hd, hdsigma⟩

/-! ### The ends of words -/

theorem nextIsCased_cons (c : Char) (rest : List Char) :
    nextIsCased (c :: rest) = if isCaseIgnorable c then nextIsCased rest else isCased c := by
  rw [nextIsCased, List.dropWhile_cons]
  by_cases hc : isCaseIgnorable c = true
  · rw [if_pos hc, if_pos hc, nextIsCased]
  · rw [if_neg hc, if_neg hc]

theorem IsLetter.nextIsCased_cons (h : IsLetter c) (rest : List Char) :
    nextIsCased (c :: rest) = true := by
  rw [Text.nextIsCased_cons, h.2, h.1]
  rfl

/-- Whether a word goes on after a character depends on what follows only in this respect. -/
theorem nextIsCased_cons_congr {rest rest' : List Char} (h : nextIsCased rest = nextIsCased rest')
    (c : Char) : nextIsCased (c :: rest) = nextIsCased (c :: rest') := by
  rw [nextIsCased_cons, nextIsCased_cons, h]

theorem isLetter_i : IsLetter 'i' := by decide +kernel

theorem isCaseIgnorable_dot : isCaseIgnorable (Char.ofNat 0x307) = true := by decide +kernel

variable {rest rest' : List Char}

theorem Lowers.nextIsCased_append (h : Lowers c image)
    (hrest : nextIsCased rest = nextIsCased rest') :
    nextIsCased (image ++ rest) = nextIsCased (c :: rest') := by
  cases h with
  | same => exact nextIsCased_cons_congr hrest c
  | letter hc hd => exact (hd.1.nextIsCased_cons _).trans (hc.1.nextIsCased_cons _).symm
  | dotted hc => exact (isLetter_i.nextIsCased_cons _).trans (hc.1.nextIsCased_cons _).symm

theorem Lowers.nextIsCased_reverse_append (h : Lowers c image)
    (hrest : nextIsCased rest = nextIsCased rest') :
    nextIsCased (image.reverse ++ rest) = nextIsCased (c :: rest') := by
  cases h with
  | same => exact nextIsCased_cons_congr hrest c
  | letter hc hd => exact (hd.1.nextIsCased_cons _).trans (hc.1.nextIsCased_cons _).symm
  | dotted hc =>
    -- Backwards the dot comes first, and it is passed over.
    rw [List.reverse_cons, List.reverse_singleton, List.append_assoc, List.singleton_append,
      List.singleton_append, nextIsCased_cons, isCaseIgnorable_dot, if_pos rfl,
      isLetter_i.nextIsCased_cons, hc.1.nextIsCased_cons]

theorem nextIsCased_flatMap_lowerButSigma (text : List Char) :
    nextIsCased (text.flatMap lowerButSigma) = nextIsCased text := by
  induction text with
  | nil => rfl
  | cons c rest ih =>
    rw [List.flatMap_cons]
    exact (lowers_lowerButSigma c).nextIsCased_append ih

end Normative.Text
