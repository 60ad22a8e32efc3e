import Normative.Text.Fold

/-!
# The edit distance of two texts

The edit distance is computed on a table whose rows belong to initial parts of the source and whose
columns belong to initial parts of the target. Two rows are held: the row for what has been read of
the source, and a row that is overwritten with the next one. After each character of the source the
two change places. An entry is looked up or written by its index, and a computation that uses an
index outside a row comes to nothing.

The same table can be computed without indices, each row as a list that follows from the list
before it. Both computations agree, so no index is ever outside a row.

## Main definitions

* `Rows` : the two rows that are held.
* `rowDistance?` : the edit distance of two lists of characters, computed on two rows.
* `charDistance` : the same distance, computed on lists.
* `editDistance` : the edit distance of two texts up to letter case.

## Main results

* `Rows.fillEntry_foldlM_eq` : filling in a row, entry by entry.
* `Rows.readChar_foldlM_eq` : the two rows after some characters of the source.
* `rowDistance?_eq` : the computation on two rows has a result, which is that on lists.
-/

namespace Normative.Text

/-! ### Two rows -/

/-- The two rows that are held while a distance is computed: the row for the characters that have
been read, and the row that is filled in for the next one. -/
structure Rows where
  previous : Array Nat
  current : Array Nat
  deriving DecidableEq

namespace Rows

/-- A row with another entry at an index of it. -/
def write? (row : Array Nat) (i entry : Nat) : Option (Array Nat) :=
  if h : i < row.size then some (row.set i entry h) else none

/-- The rows before anything has been read, for a target of `n` characters. -/
def allocate (n : Nat) : Rows :=
  ⟨(List.range (n + 1)).toArray, Array.replicate (n + 1) 0⟩

/-- The entry for a character of the source and one of the target, from the entries above it, to
its left and in the corner between them. -/
def entry (c d : Char) (above left corner : Nat) : Nat :=
  min (min (above + 1) (left + 1)) (corner + if c = d then 0 else 1)

/-- Fill in the entry for a character of the target, which comes with its index. -/
def fillEntry (c : Char) (rows : Rows) (d : Char × Nat) : Option Rows := do
  let above ← rows.previous[d.2 + 1]?
  let left ← rows.current[d.2]?
  let corner ← rows.previous[d.2]?
  let current ← write? rows.current (d.2 + 1) (entry c d.1 above left corner)
  return ⟨rows.previous, current⟩

/-- The two rows in each other's place. -/
def swap (rows : Rows) : Rows := ⟨rows.current, rows.previous⟩

/-- The rows after one more character of the source, which comes with its index. -/
def readChar (target : List Char) (rows : Rows) (c : Char × Nat) : Option Rows := do
  let current ← write? rows.current 0 (c.2 + 1)
  let rows ← target.zipIdx.foldlM (fillEntry c.1) ⟨rows.previous, current⟩
  return rows.swap

end Rows

/-- The edit distance of two lists of characters, computed on two rows. If one of the lists is empty
it is the length of the other. -/
def rowDistance? (source target : List Char) : Option Nat :=
  if source.isEmpty then some target.length
  else if target.isEmpty then some source.length
  else do
    let rows ← source.zipIdx.foldlM (Rows.readChar target) (Rows.allocate target.length)
    rows.previous[target.length]?

/-! ### The rows as lists -/

/-- The entries of the next row to the right of an entry, which is `left`. The entry above it is
`corner`, and the entries to the right of that are given. -/
def nextEntries (c : Char) (left corner : Nat) : List Nat → List Char → List Nat
  | above :: row, d :: target =>
    Rows.entry c d above left corner ::
      nextEntries c (Rows.entry c d above left corner) above row target
  | _, _ => []

/-- The row after one more character of the source. -/
def nextRow (target : List Char) (row : List Nat) (c : Char) : List Nat :=
  match row with
  | [] => []
  | first :: rest => (first + 1) :: nextEntries c (first + 1) first rest target

/-- The row after some characters of the source. -/
def rowAfter (target read : List Char) : List Nat :=
  read.foldl (nextRow target) (List.range (target.length + 1))

/-- The edit distance of two lists of characters: the last entry of the last row. -/
def charDistance (source target : List Char) : Nat := (rowAfter target source).getLastD 0

theorem length_nextEntries (c : Char) (left corner : Nat) {row : List Nat} {target : List Char}
    (h : row.length = target.length) :
    (nextEntries c left corner row target).length = target.length := by
  induction target generalizing left corner row with
  | nil => cases row <;> rfl
  | cons d target ih =>
    cases row with
    | nil => simp at h
    | cons above row =>
      rw [nextEntries, List.length_cons, ih _ _ (by simpa using h), List.length_cons]

theorem length_nextRow (c : Char) {row : List Nat} {target : List Char}
    (h : row.length = target.length + 1) :
    (nextRow target row c).length = target.length + 1 := by
  obtain ⟨first, rest, rfl⟩ := List.exists_cons_of_length_eq_add_one h
  rw [nextRow, List.length_cons, length_nextEntries _ _ _ (Nat.succ.inj h)]

theorem length_rowAfter (target read : List Char) :
    (rowAfter target read).length = target.length + 1 :=
  List.foldlRecOn (motive := fun row ↦ row.length = target.length + 1) read (nextRow target)
    List.length_range fun _ h c _ ↦ length_nextRow c h

theorem rowAfter_nil_right (read : List Char) : rowAfter [] read = [read.length] := by
  have hrun (i : Nat) : read.foldl (nextRow []) [i] = [i + read.length] := by
    induction read generalizing i with
    | nil => rfl
    | cons c read ih => exact (ih (i + 1)).trans (by simp [Nat.add_right_comm, Nat.add_assoc])
  rw [← Nat.zero_add read.length]
  exact hrun 0

/-! ### Both computations agree -/

namespace Rows

theorem write?_toArray (row : List Nat) {i : Nat} (entry : Nat) (h : i < row.length) :
    write? row.toArray i entry = some (row.set i entry).toArray := by
  rw [write?, dif_pos (by simpa using h), List.set_toArray]

theorem getElem?_toArray_middle (front : List Nat) (x : Nat) (back : List Nat) :
    (front ++ x :: back).toArray[front.length]? = some x := by
  simp

/-- An entry is filled in exactly if its index lies in both rows. -/
theorem isSome_fillEntry_iff (c : Char) (rows : Rows) (d : Char × Nat) :
    (fillEntry c rows d).isSome ↔
      d.2 + 1 < rows.previous.size ∧ d.2 + 1 < rows.current.size := by
  by_cases hprevious : d.2 + 1 < rows.previous.size
  · by_cases hcurrent : d.2 + 1 < rows.current.size
    · simp [fillEntry, write?, hprevious, hcurrent, Nat.lt_of_succ_lt hprevious,
        Nat.lt_of_succ_lt hcurrent]
    · simp [fillEntry, write?, hcurrent]
  · simp [fillEntry, hprevious]

-- Rows that are one entry shorter than those that are allocated do not suffice.
example : readChar ['t', 'o'] (allocate 1) ('t', 0) = none := by decide

/-- One entry is filled in: what stands to its left is complete, and what stands to its right is
left over from the row before the last. -/
theorem fillEntry_eq (c d : Char) {front done : List Nat} (above left corner stale : Nat)
    (row rest : List Nat) (h : front.length = done.length) :
    fillEntry c ⟨(front ++ corner :: above :: row).toArray, (done ++ left :: stale :: rest).toArray⟩
        (d, done.length) =
      some ⟨(front ++ corner :: above :: row).toArray,
        (done ++ left :: entry c d above left corner :: rest).toArray⟩ := by
  have habove : (front ++ corner :: above :: row).toArray[done.length + 1]? = some above := by
    rw [← h]
    simp
  have hcorner : (front ++ corner :: above :: row).toArray[done.length]? = some corner :=
    h ▸ getElem?_toArray_middle front corner (above :: row)
  have hwrite : write? (done ++ left :: stale :: rest).toArray (done.length + 1)
      (entry c d above left corner) =
        some (done ++ left :: entry c d above left corner :: rest).toArray := by
    rw [write?_toArray _ _ (by simp)]
    simp
  simp only [fillEntry, habove, hcorner, getElem?_toArray_middle, hwrite, Option.bind_eq_bind,
    Option.bind_some, Option.pure_def]

/-- Filling in a row from an entry on. The entries up to that one are complete, and the others are
those of the list that follows from the row above. -/
theorem fillEntry_foldlM_eq (c : Char) (target : List Char) {front done row stale : List Nat}
    (left corner : Nat) (h : front.length = done.length) (hrow : row.length = target.length)
    (hstale : stale.length = target.length) :
    (target.zipIdx done.length).foldlM (fillEntry c)
        ⟨(front ++ corner :: row).toArray, (done ++ left :: stale).toArray⟩ =
      some ⟨(front ++ corner :: row).toArray,
        (done ++ left :: nextEntries c left corner row target).toArray⟩ := by
  induction target generalizing front done row stale left corner with
  | nil =>
    rw [List.length_eq_zero_iff.mp hrow, List.length_eq_zero_iff.mp hstale]
    rfl
  | cons d target ih =>
    obtain ⟨above, row, rfl⟩ := List.exists_cons_of_length_eq_add_one hrow
    obtain ⟨old, stale, rfl⟩ := List.exists_cons_of_length_eq_add_one hstale
    have hlength : (front ++ [corner]).length = (done ++ [left]).length := by simpa using h
    have hnext := ih (entry c d above left corner) above hlength (Nat.succ.inj hrow)
      (Nat.succ.inj hstale)
    rw [List.zipIdx_cons, List.foldlM_cons, fillEntry_eq c d above left corner old row stale h]
    simpa [nextEntries] using hnext

/-- One more character of the source: the row in which the next one is written is held as the row
for what has been read, and the other one is to be overwritten. -/
theorem readChar_eq (c : Char) (i : Nat) {target : List Char} {row stale : List Nat}
    (hrow : row.length = target.length) (hstale : stale.length = target.length + 1) :
    readChar target ⟨(i :: row).toArray, stale.toArray⟩ (c, i) =
      some ⟨(nextRow target (i :: row) c).toArray, (i :: row).toArray⟩ := by
  obtain ⟨old, stale, rfl⟩ := List.exists_cons_of_length_eq_add_one hstale
  have hwrite : write? (old :: stale).toArray 0 (i + 1) = some ((i + 1) :: stale).toArray :=
    write?_toArray _ _ (by simp)
  have hfill : target.zipIdx.foldlM (fillEntry c) ⟨(i :: row).toArray, ((i + 1) :: stale).toArray⟩ =
      some ⟨(i :: row).toArray, ((i + 1) :: nextEntries c (i + 1) i row target).toArray⟩ :=
    fillEntry_foldlM_eq c target (i + 1) i (List.length_nil.trans List.length_nil.symm) hrow
      (Nat.succ.inj hstale)
  simp only [readChar, hwrite, hfill, Option.bind_eq_bind, Option.bind_some, Option.pure_def, swap,
    nextRow]

/-- The two rows after some characters of the source. The first entry of a row is the number of
characters that have been read. -/
theorem readChar_foldlM_eq (source : List Char) (i : Nat) {target : List Char}
    {row stale : List Nat} (hrow : row.length = target.length)
    (hstale : stale.length = target.length + 1) :
    ∃ stale' : List Nat, stale'.length = target.length + 1 ∧
      (source.zipIdx i).foldlM (readChar target) ⟨(i :: row).toArray, stale.toArray⟩ =
        some ⟨(source.foldl (nextRow target) (i :: row)).toArray, stale'.toArray⟩ := by
  induction source generalizing i row stale with
  | nil => exact ⟨stale, hstale, rfl⟩
  | cons c source ih =>
    rw [List.zipIdx_cons, List.foldlM_cons, readChar_eq c i hrow hstale]
    exact ih (i + 1) (length_nextEntries c (i + 1) i hrow) (by simpa using hrow)

/-- The two rows after a part of the source has been read. -/
theorem readChar_foldlM_allocate (target read : List Char) :
    ∃ stale : List Nat, stale.length = target.length + 1 ∧
      read.zipIdx.foldlM (readChar target) (allocate target.length) =
        some ⟨(rowAfter target read).toArray, stale.toArray⟩ := by
  have hrange : List.range (target.length + 1) = 0 :: (List.range target.length).map (· + 1) :=
    List.range_succ_eq_map
  rw [allocate, rowAfter, hrange, ← List.toArray_replicate]
  exact readChar_foldlM_eq read 0 (by simp) (by simp)

end Rows

/-- The computation on two rows never uses an index outside of them, and its result is the last
entry of the last row. -/
theorem rowDistance?_eq (source target : List Char) :
    rowDistance? source target = some (charDistance source target) := by
  rw [rowDistance?, charDistance]
  split
  case isTrue h =>
    rw [List.isEmpty_iff.mp h, rowAfter, List.foldl_nil, List.range_succ, List.getLastD_concat]
  case isFalse =>
    split
    case isTrue h =>
      rw [List.isEmpty_iff.mp h, rowAfter_nil_right]
      rfl
    case isFalse =>
      obtain ⟨stale, -, hrows⟩ := Rows.readChar_foldlM_allocate target source
      have hlast : (rowAfter target source)[target.length]? =
          (rowAfter target source).getLast? := by
        rw [List.getLast?_eq_getElem?, length_rowAfter, Nat.add_sub_cancel]
      have hne : rowAfter target source ≠ [] :=
        List.ne_nil_of_length_eq_add_one (length_rowAfter target source)
      simp only [hrows, Option.bind_eq_bind, Option.bind_some, List.getElem?_toArray, hlast,
        List.getLastD_eq_getLast?, List.getLast?_eq_some_getLast hne, Option.getD_some]

/-- The edit distance of two texts up to letter case. -/
def editDistance (a b : String) : Nat :=
  (rowDistance? (lowercase a).toList (lowercase b).toList).get
    (rowDistance?_eq _ _ ▸ Option.isSome_some)

end Normative.Text
