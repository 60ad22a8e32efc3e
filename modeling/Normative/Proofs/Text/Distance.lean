import Mathlib.Data.List.Infix
import Mathlib.Data.List.Induction
import Normative.Proofs.Text.Alignment
import Normative.Text.EditDistance

/-!
# The edit distance is the least number of edits

The edit distance is computed row by row. A row has one entry more than the target has characters,
and its entries are the distances from what has been read of the source to the initial parts of the
target. A row is computed from the row before it by the recursion on last characters. So no index
is outside a row when an entry is looked up or written, and the last entry of the last row is the
distance of the two texts.

## Main results

* `Text.rowAfter_eq` : the entries of a row.
* `Text.Rows.readChar_foldlM_eq_some` : both rows after some characters of the source.
* `Text.editDistance_isLeast_edits` : the edit distance is the least number of edits.
* `Text.editDistance_metric` : the edit distance is a metric on texts up to letter case.
-/

namespace Normative.Text

theorem inits_eq_cons_tail {α : Type} (list : List α) : list.inits = [] :: list.inits.tail := by
  cases list <;> simp

/-- The row before anything has been read: all characters of an initial part are inserted. -/
theorem range_eq_map_inits (target : List Char) :
    List.range (target.length + 1) = target.inits.map (levenshtein []) := by
  refine List.ext_getElem (by simp) fun j hj hj' ↦ ?_
  have hlt : j < target.length + 1 := by simpa using hj
  simp only [List.getElem_range, List.getElem_map, List.getElem_inits, levenshtein_nil_left,
    List.length_take]
  omega

/-- The entries to the right of one entry of a row, for one more character. What stands above them
is known, and each is computed from its neighbours. -/
theorem nextEntries_eq (c : Char) (read before rest : List Char) :
    nextEntries c (levenshtein (read ++ [c]) before) (levenshtein read before)
        (rest.inits.tail.map fun part ↦ levenshtein read (before ++ part)) rest =
      rest.inits.tail.map fun part ↦ levenshtein (read ++ [c]) (before ++ part) := by
  induction rest generalizing before with
  | nil => rfl
  | cons d rest ih =>
    have htail : (d :: rest).inits.tail = [d] :: rest.inits.tail.map (d :: ·) := by
      rw [List.inits_cons, List.tail_cons, inits_eq_cons_tail rest, List.map_cons, List.tail_cons]
    have hentry : Rows.entry c d (levenshtein read (before ++ [d]))
        (levenshtein (read ++ [c]) before) (levenshtein read before) =
          levenshtein (read ++ [c]) (before ++ [d]) := (levenshtein_concat read before c d).symm
    have hnext := ih (before ++ [d])
    simp only [List.append_assoc, List.singleton_append] at hnext
    rw [htail, List.map_cons, List.map_map, nextEntries, hentry, List.map_cons, List.map_map]
    exact congrArg (levenshtein (read ++ [c]) (before ++ [d]) :: ·) hnext

/-- The entries of a row are the distances to the initial parts of the target. -/
theorem rowAfter_eq (target read : List Char) :
    rowAfter target read = target.inits.map (levenshtein read) := by
  induction read using List.reverseRecOn with
  | nil => exact range_eq_map_inits target
  | append_singleton read c ih =>
    rw [rowAfter, List.foldl_append]
    change nextRow target (rowAfter target read) c = _
    have hlength : levenshtein (read ++ [c]) [] = levenshtein read [] + 1 := by simp
    have hnext := nextEntries_eq c read [] target
    rw [ih, inits_eq_cons_tail target, List.map_cons, List.map_cons, nextRow, ← hlength]
    simpa only [List.nil_append, List.cons.injEq, true_and] using hnext

theorem getElem?_rowAfter (target read : List Char) (j : Fin (target.length + 1)) :
    (rowAfter target read)[j.val]? = some (levenshtein read (target.take j.val)) := by
  have hj : j.val < target.inits.length := (List.length_inits target).symm ▸ j.isLt
  rw [rowAfter_eq, List.getElem?_map, List.getElem?_eq_getElem hj, List.getElem_inits,
    Option.map_some]

/-- The last entry of the last row is the distance. -/
theorem charDistance_eq (source target : List Char) :
    charDistance source target = levenshtein source target := by
  have hlast : (rowAfter target source).getLast? = some (levenshtein source target) := by
    have hentry := getElem?_rowAfter target source (Fin.last target.length)
    rw [Fin.val_last, List.take_length] at hentry
    rw [List.getLast?_eq_getElem?, length_rowAfter]
    exact hentry
  rw [charDistance, List.getLastD_eq_getLast?]
  exact congrArg (Option.getD · 0) hlast

/-- While a distance is computed on two rows, the row for what has been read of the source holds its
distances to the initial parts of the target, and the other row is as long. -/
theorem Rows.readChar_foldlM_eq_some (target read : List Char) :
    ∃ rows, read.zipIdx.foldlM (readChar target) (allocate target.length) = some rows ∧
      rows.previous.toList = target.inits.map (levenshtein read) ∧
      rows.current.size = target.length + 1 := by
  obtain ⟨stale, hstale, hrows⟩ := readChar_foldlM_allocate target read
  exact ⟨_, hrows, rowAfter_eq target read, hstale⟩

theorem rowDistance?_eq_levenshtein (source target : List Char) :
    rowDistance? source target = some (levenshtein source target) := by
  rw [rowDistance?_eq, charDistance_eq]

theorem editDistance_eq (a b : String) :
    editDistance a b = levenshtein (lowercase a).toList (lowercase b).toList :=
  Option.get_of_eq_some _ (rowDistance?_eq_levenshtein _ _)

theorem editDistance_eq_zero_iff {a b : String} :
    editDistance a b = 0 ↔ lowercase a = lowercase b := by
  rw [editDistance_eq, levenshtein_eq_zero_iff, String.toList_inj]

/-- The edit distance of two texts is the least number of single insertions, deletions and
substitutions that turn the lower case of one into that of the other, and it is the distance by
recursion on first characters. It is what the computation on two rows results in, so no index is
outside a row: neither at the end, nor after any part of the source, when the row for that part
holds its distances to the initial parts of the target and the other row is as long. -/
theorem editDistance_isLeast_edits (a b : String) :
    IsLeast {n | Edits n (lowercase a).toList (lowercase b).toList} (editDistance a b) ∧
      editDistance a b = levenshtein (lowercase a).toList (lowercase b).toList ∧
      rowDistance? (lowercase a).toList (lowercase b).toList = some (editDistance a b) ∧
      ∀ i, ∃ rows, ((lowercase a).toList.take i).zipIdx.foldlM (Rows.readChar (lowercase b).toList)
          (Rows.allocate (lowercase b).toList.length) = some rows ∧
        rows.previous.toList =
          (lowercase b).toList.inits.map (levenshtein ((lowercase a).toList.take i)) ∧
        rows.previous.size = (lowercase b).toList.length + 1 ∧
        rows.current.size = (lowercase b).toList.length + 1 := by
  refine ⟨?_, editDistance_eq a b, ?_, fun i ↦ ?_⟩
  · rw [editDistance_eq]
    exact isLeast_edits _ _
  · rw [editDistance_eq]
    exact rowDistance?_eq_levenshtein _ _
  · obtain ⟨rows, hrows, hprevious, hcurrent⟩ :=
      Rows.readChar_foldlM_eq_some (lowercase b).toList ((lowercase a).toList.take i)
    have hsize : rows.previous.size = (lowercase b).toList.length + 1 := by
      rw [← Array.length_toList, hprevious, List.length_map, List.length_inits]
    exact ⟨rows, hrows, hprevious, hsize, hcurrent⟩

/-- The edit distance is a metric on texts up to letter case: it is symmetric, it is zero exactly
for texts with the same lower case, and it satisfies the triangle inequality. -/
theorem editDistance_metric (a b c : String) :
    editDistance a b = editDistance b a ∧
      (editDistance a b = 0 ↔ lowercase a = lowercase b) ∧
      editDistance a c ≤ editDistance a b + editDistance b c := by
  simp only [editDistance_eq]
  exact ⟨levenshtein_comm _ _, levenshtein_eq_zero_iff.trans String.toList_inj,
    levenshtein_triangle _ _ _⟩

end Normative.Text
