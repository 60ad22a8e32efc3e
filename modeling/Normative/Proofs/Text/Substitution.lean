import Normative.Text.Search

/-!
# Substitution in one pass

Several parts of a text are replaced at once, each by a text of its own: a single pass from left to
right puts in the new text wherever one of the parts begins, and what has been put in is never
searched. Replacing one part in the whole text and then another in the result is a different thing,
since the second search also reads what the first one put in. The two agree for parts that begin
with a mark that the second part has nowhere else, if the text put in first is not empty and shares
no character with the second part. Such a text can neither complete the second part nor take
anything from it.

## Main definitions

* `Text.fillFrom`, `Text.fill` : replacement of several parts in one pass.

## Main results

* `Text.replaceFrom_eq_fillFrom` : replacement is the case of one part.
* `Text.replaceFrom_append_of_notMem` : a stretch without the mark is passed over.
* `Text.prefix_of_prefix_replaceFrom` : replacement makes no new beginning out of other characters.
* `Text.replaceFrom_replaceFrom` : two replacements in turn are one pass.
-/

namespace Normative.Text

/-- Replace the occurrences of several parts, each by the text that stands beside it. At a place
where more than one of them begins, the first in the list counts. The counter tells how many
characters of the occurrence found last are still to be passed over. -/
def fillFrom (fillings : List (List Char × List Char)) : Nat → List Char → List Char
  | _, [] => []
  | pending + 1, _ :: rest => fillFrom fillings pending rest
  | 0, c :: rest =>
    match fillings.find? (fun f ↦ f.1.isPrefixOf (c :: rest)) with
    | some (part, new) => new ++ fillFrom fillings (part.length - 1) rest
    | none => c :: fillFrom fillings 0 rest

/-- Replace every occurrence of several parts, none of which is empty, each by the text that stands
beside it, in one pass from left to right. -/
def fill (fillings : List (String × String)) (text : String) : String :=
  String.ofList (fillFrom (fillings.map fun f ↦ (f.1.toList, f.2.toList)) 0 text.toList)

variable {mark c : Char} {part new rest text : List Char}
  {fillings : List (List Char × List Char)}

/-! ### Single steps -/

theorem fillFrom_eq_drop (fillings : List (List Char × List Char)) (pending : Nat)
    (text : List Char) :
    fillFrom fillings pending text = fillFrom fillings 0 (text.drop pending) := by
  induction pending generalizing text with
  | zero => rw [List.drop_zero]
  | succ pending ih =>
    cases text with
    | nil => rfl
    | cons c rest => rw [fillFrom, ih, List.drop_succ_cons]

theorem fillFrom_part_append
    (h : fillings.find? (fun f ↦ f.1.isPrefixOf (mark :: part ++ rest)) =
      some (mark :: part, new)) :
    fillFrom fillings 0 (mark :: part ++ rest) = new ++ fillFrom fillings 0 rest := by
  rw [List.cons_append] at h ⊢
  rw [fillFrom, h]
  simp only [List.length_cons, Nat.add_sub_cancel]
  rw [fillFrom_eq_drop, List.drop_left]

theorem fillFrom_cons (h : ∀ f ∈ fillings, ¬ f.1 <+: c :: rest) :
    fillFrom fillings 0 (c :: rest) = c :: fillFrom fillings 0 rest := by
  have hnone : fillings.find? (fun f ↦ f.1.isPrefixOf (c :: rest)) = none :=
    List.find?_eq_none.mpr fun f hf ↦ mt List.isPrefixOf_iff_prefix.mp (h f hf)
  rw [fillFrom, hnone]

/-- To replace one part is to fill in that part alone. -/
theorem replaceFrom_eq_fillFrom (part new : List Char) (pending : Nat) (text : List Char) :
    replaceFrom part new pending text = fillFrom [(part, new)] pending text := by
  induction text generalizing pending with
  | nil => rw [replaceFrom, fillFrom]
  | cons c rest ih =>
    cases pending with
    | succ pending => rw [replaceFrom, fillFrom, ih]
    | zero =>
      rw [replaceFrom, fillFrom, List.find?_singleton]
      split <;> simp only [ih]

theorem replaceFrom_part_append (mark : Char) (part new rest : List Char) :
    replaceFrom (mark :: part) new 0 (mark :: part ++ rest) =
      new ++ replaceFrom (mark :: part) new 0 rest := by
  rw [replaceFrom_eq_fillFrom, replaceFrom_eq_fillFrom]
  refine fillFrom_part_append (List.find?_cons_of_pos ?_)
  exact List.isPrefixOf_iff_prefix.mpr (List.prefix_append _ _)

theorem replaceFrom_cons (h : ¬ part <+: c :: rest) :
    replaceFrom part new 0 (c :: rest) = c :: replaceFrom part new 0 rest := by
  rw [replaceFrom_eq_fillFrom, replaceFrom_eq_fillFrom]
  exact fillFrom_cons (List.forall_mem_singleton.mpr h)

/-! ### Replacement and other characters -/

/-- A stretch without the mark with which a part begins is passed over. -/
theorem replaceFrom_append_of_notMem {stretch : List Char} (h : mark ∉ stretch)
    (part new rest : List Char) :
    replaceFrom (mark :: part) new 0 (stretch ++ rest) =
      stretch ++ replaceFrom (mark :: part) new 0 rest := by
  induction stretch with
  | nil => rfl
  | cons c stretch ih =>
    obtain ⟨hc, hstretch⟩ := not_or.mp (mt List.mem_cons.mpr h)
    have hpart : ¬ mark :: part <+: c :: (stretch ++ rest) := fun hprefix ↦
      hc (List.cons_prefix_cons.mp hprefix).1
    rw [List.cons_append, replaceFrom_cons hpart, ih hstretch, List.cons_append]

/-- What begins a text after replacement has begun it before, unless it has characters that were
put in. -/
theorem prefix_of_prefix_replaceFrom (hnew : new ≠ []) {start : List Char}
    (hstart : ∀ c ∈ new, c ∉ start) (h : start <+: replaceFrom (mark :: part) new 0 text) :
    start <+: text := by
  induction start generalizing text with
  | nil => exact List.nil_prefix
  | cons x start ih =>
    by_cases hpart : mark :: part <+: text
    · -- The text would begin with a character that was put in.
      obtain ⟨rest, rfl⟩ := hpart
      obtain ⟨first, more, rfl⟩ := List.exists_cons_of_ne_nil hnew
      rw [replaceFrom_part_append, List.cons_append, List.cons_prefix_cons] at h
      exact absurd (List.mem_cons.mpr (.inl h.1.symm)) (hstart first List.mem_cons_self)
    · cases text with
      | nil => exact h
      | cons c rest =>
        rw [replaceFrom_cons hpart, List.cons_prefix_cons] at h
        exact List.cons_prefix_cons.mpr
          ⟨h.1, ih (fun c hc hmem ↦ hstart c hc (List.mem_cons_of_mem x hmem)) h.2⟩

/-- Two parts that begin with the same mark are replaced in turn as they are in one pass. The second
part does not have the mark again, and what is put in for the first part is not empty and has none
of the characters of the second. -/
theorem replaceFrom_replaceFrom {part' : List Char} (hmark : mark ∉ part') (hnew : new ≠ [])
    (hapart : ∀ c ∈ new, c ∉ mark :: part') (part new' text : List Char) :
    replaceFrom (mark :: part') new' 0 (replaceFrom (mark :: part) new 0 text) =
      fillFrom [(mark :: part, new), (mark :: part', new')] 0 text := by
  -- Along the pass, which goes on behind the part that it has replaced.
  induction hn : text.length using Nat.strongRecOn generalizing text with
  | ind n ih =>
    subst hn
    by_cases hpart : mark :: part <+: text
    · obtain ⟨rest, rfl⟩ := hpart
      have hmarkNew : mark ∉ new := fun h ↦ hapart mark h List.mem_cons_self
      have hshorter : rest.length < (mark :: part ++ rest).length := by
        rw [List.length_append, List.length_cons]
        omega
      rw [replaceFrom_part_append, replaceFrom_append_of_notMem hmarkNew, ih _ hshorter rest rfl,
        fillFrom_part_append]
      exact List.find?_cons_of_pos (List.isPrefixOf_iff_prefix.mpr (List.prefix_append _ _))
    · by_cases hpart' : mark :: part' <+: text
      · obtain ⟨rest, rfl⟩ := hpart'
        have hshorter : rest.length < (mark :: part' ++ rest).length := by
          rw [List.length_append, List.length_cons]
          omega
        have hpassed : replaceFrom (mark :: part) new 0 (mark :: part' ++ rest) =
            mark :: part' ++ replaceFrom (mark :: part) new 0 rest := by
          rw [List.cons_append] at hpart ⊢
          rw [replaceFrom_cons hpart, replaceFrom_append_of_notMem hmark, List.cons_append]
        rw [hpassed, replaceFrom_part_append, ih _ hshorter rest rfl, fillFrom_part_append]
        refine (List.find?_cons_of_neg ?_).trans (List.find?_cons_of_pos ?_)
        · exact mt List.isPrefixOf_iff_prefix.mp hpart
        · exact List.isPrefixOf_iff_prefix.mpr (List.prefix_append _ _)
      · cases text with
        | nil => rfl
        | cons c rest =>
          have hlater : ¬ mark :: part' <+: c :: replaceFrom (mark :: part) new 0 rest := by
            rw [← replaceFrom_cons hpart]
            exact fun h ↦ hpart' (prefix_of_prefix_replaceFrom hnew hapart h)
          rw [replaceFrom_cons hpart, replaceFrom_cons hlater, fillFrom_cons,
            ih rest.length (Nat.lt_succ_self _) rest rfl]
          exact List.forall_mem_cons.mpr ⟨hpart, List.forall_mem_singleton.mpr hpart'⟩

end Normative.Text
