import Mathlib.Data.List.Chain
import Mathlib.Data.List.Forall2
import Normative.Document.Read
import Normative.Proofs.Document.Spelling

/-!
# Texts that write a value

The marks of a value are determined by the value. A text writes the value if it consists of
spellings of these marks, in order, with any amount of space before, between and after them. Every
text that writes a value is read as that value, to any depth of nesting.

## Main definitions

* `Document.Value.marks` : the marks of a value.
* `Document.Spread` : marks written one after the other, with space between them.
* `Document.Value.IsWrittenAs` : the texts that write a value.

## Main results

* `Document.foldlM_step_marks` : the reader puts a value together from its marks.
* `Document.marksAfter_of_spread` : marks are read from a text over which they are spread.
* `Document.read?_of_isWrittenAs` : a text that writes a value is read as the value.
-/

namespace Normative.Document

/-! ### The marks of a value -/

mutual

/-- The marks of a value. -/
def Value.marks : Value → List Mark
  | .null => [.null]
  | .bool b => [.bool b]
  | .number numeral => [.number numeral]
  | .string spelled => [.string spelled]
  | .array items => .openArray :: (itemMarks items ++ [.closeArray])
  | .object members => .openObject :: (memberMarks members ++ [.closeObject])

/-- The marks of the items of an array, with commas between them. -/
def itemMarks : List Value → List Mark
  | [] => []
  | [v] => v.marks
  | v :: w :: items => v.marks ++ .comma :: itemMarks (w :: items)

/-- The marks of the members of an object, with commas between them. -/
def memberMarks : List (Spelled × Value) → List Mark
  | [] => []
  | [(key, v)] => .string key :: .colon :: v.marks
  | (key, v) :: m :: members =>
    .string key :: .colon :: (v.marks ++ .comma :: memberMarks (m :: members))

end

/-- The marks of a value begin with one that does not end an array. -/
theorem Value.exists_marks_eq_cons (v : Value) :
    ∃ mark others, v.marks = mark :: others ∧ mark ≠ .closeArray := by
  cases v <;> exact ⟨_, _, by rw [Value.marks], by simp⟩

/-! ### Reading the marks of a value -/

open Reader in
/-- The first item of an array is read like any other value. -/
theorem step_firstItem {mark : Mark} (h : mark ≠ .closeArray) (stack : List Frame) :
    step (firstItem stack) mark = step (value (.array [] :: stack)) mark := by
  cases mark <;> first | rfl | exact absurd rfl h

@[simp] theorem step_comma_afterItem (items : List Value) (stack : List Frame) :
    Reader.step (.afterItem items stack) .comma = some (.value (.array items :: stack)) := rfl

@[simp] theorem step_comma_afterMember (members : List (Spelled × Value)) (stack : List Frame) :
    Reader.step (.afterMember members stack) .comma = some (.nextKey members stack) := rfl

@[simp] theorem step_colon (members : List (Spelled × Value)) (key : Spelled)
    (stack : List Frame) :
    Reader.step (.keyColon members key stack) .colon =
      some (.value (.object members key :: stack)) := rfl

/-- A reader that awaits a key of an object whose members so far are given. -/
def Reader.AwaitsKey (reader : Reader) (members : List (Spelled × Value)) (stack : List Frame) :
    Prop :=
  ∀ key, reader.step (.string key) = some (.keyColon members key stack)

mutual

/-- The marks of a value are read as the value, which is put into its place. -/
theorem foldlM_step_marks : ∀ (v : Value) (stack : List Frame),
    v.marks.foldlM Reader.step (.value stack) = some (.place v stack)
  | .null, stack | .bool _, stack | .number _, stack | .string _, stack => by
    simp [Value.marks, Reader.step, Reader.beginValue]
  | .array [], stack => by
    simp [Value.marks, itemMarks, Reader.step, Reader.beginValue]
  | .array (v :: items), stack => by
    have hitems := foldlM_step_itemMarks (v :: items) (List.cons_ne_nil v items) [] stack
    have hfirst : (itemMarks (v :: items)).foldlM Reader.step (.firstItem stack) =
        (itemMarks (v :: items)).foldlM Reader.step (.value (.array [] :: stack)) := by
      obtain ⟨mark, others, hmarks, hne⟩ := v.exists_marks_eq_cons
      cases items <;> simp [itemMarks, hmarks, step_firstItem hne]
    simp [Value.marks, Reader.step, Reader.beginValue, List.foldlM_append, hfirst, hitems]
  | .object [], stack => by
    simp [Value.marks, memberMarks, Reader.step, Reader.beginValue]
  | .object (m :: members), stack => by
    have hmembers := foldlM_step_memberMarks (m :: members) (List.cons_ne_nil m members)
      (.firstKey stack) [] stack fun _ ↦ rfl
    simp [Value.marks, Reader.step, Reader.beginValue, List.foldlM_append, hmembers]

/-- The marks of items are read as the items, after those that have been read before. -/
theorem foldlM_step_itemMarks : ∀ (items : List Value), items ≠ [] →
    ∀ (before : List Value) (stack : List Frame),
    (itemMarks items).foldlM Reader.step (.value (.array before :: stack)) =
      some (.afterItem (items.reverse ++ before) stack)
  | [], h, _, _ => absurd rfl h
  | [v], _, before, stack => by
    have hvalue := foldlM_step_marks v (.array before :: stack)
    simp [itemMarks, hvalue, Reader.place]
  | v :: w :: items, _, before, stack => by
    have hvalue := foldlM_step_marks v (.array before :: stack)
    have hitems := foldlM_step_itemMarks (w :: items) (List.cons_ne_nil w items) (v :: before) stack
    simp [itemMarks, List.foldlM_append, hvalue, Reader.place, hitems]

/-- The marks of members are read as the members, after those that have been read before. -/
theorem foldlM_step_memberMarks : ∀ (members : List (Spelled × Value)), members ≠ [] →
    ∀ (reader : Reader) (before : List (Spelled × Value)) (stack : List Frame),
    reader.AwaitsKey before stack →
    (memberMarks members).foldlM Reader.step reader =
      some (.afterMember (members.reverse ++ before) stack)
  | [], h, _, _, _, _ => absurd rfl h
  | [(key, v)], _, reader, before, stack, hreader => by
    have hvalue := foldlM_step_marks v (.object before key :: stack)
    simp [memberMarks, hreader key, hvalue, Reader.place]
  | (key, v) :: m :: members, _, reader, before, stack, hreader => by
    have hvalue := foldlM_step_marks v (.object before key :: stack)
    have hmembers := foldlM_step_memberMarks (m :: members) (List.cons_ne_nil m members)
      (.nextKey ((key, v) :: before) stack) ((key, v) :: before) stack fun _ ↦ rfl
    simp [memberMarks, hreader key, List.foldlM_append, hvalue, Reader.place, hmembers]

end

/-- The reader puts a value together from its marks. -/
theorem ofMarks?_marks (v : Value) : ofMarks? v.marks = some v := by
  rw [ofMarks?, foldlM_step_marks, Option.bind_some, Reader.place, Reader.result?]

/-! ### Marks spread over a text -/

/-- Any number of spaces, tabs and line ends. -/
def IsSpacing (text : List Char) : Prop := ∀ c ∈ text, c ∈ [' ', '\t', '\n', '\r']

/-- Marks written one after the other, with any space before, between and after them. -/
inductive Spread : List Mark → List Char → Prop
  | nil {space : List Char} (hspace : IsSpacing space) : Spread [] space
  | cons {mark : Mark} {marks : List Mark} {space text rest : List Char} (hspace : IsSpacing space)
      (hmark : mark.IsSpelled text) (others : Spread marks rest) :
      Spread (mark :: marks) (space ++ text ++ rest)

/-- Marks are spread over the text that has the spelling of each of them after some space. -/
theorem spread_of_forall₂ {marks : List Mark} {pieces : List (String × String)}
    (h : List.Forall₂ (fun mark piece ↦ IsSpacing piece.1.toList ∧ mark.IsSpelled piece.2.toList)
      marks pieces) :
    Spread marks (pieces.flatMap fun piece ↦ piece.1.toList ++ piece.2.toList) := by
  induction h with
  | nil => exact .nil (by simp [IsSpacing])
  | cons hpiece _ ih => exact .cons hpiece.1 hpiece.2 ih

/-- A mark begins with a character that is not a space; only a number begins with one that could
continue a number. -/
theorem Mark.IsSpelled.exists_cons {mark : Mark} {text : List Char} (h : mark.IsSpelled text) :
    ∃ c rest, text = c :: rest ∧ isSpace c = false ∧
      (mark.isNumber = true ∨ continuesNumber c = false) := by
  cases mark with
  | number numeral =>
    obtain ⟨c, rest, rfl, hc⟩ := Numeral.IsSpelled.exists_cons h
    refine ⟨c, rest, rfl, ?_, .inl rfl⟩
    have hne {d : Char} (hd : (d == '-' || d.isDigit) = false) : c ≠ d := by
      rintro rfl
      simp_all
    simp [isSpace, hne (d := ' ') rfl, hne (d := '\t') rfl, hne (d := '\n') rfl,
      hne (d := '\r') rfl]
  | string spelled =>
    obtain ⟨body, rfl, -⟩ := h
    exact ⟨'"', _, rfl, by decide, .inr (by decide)⟩
  | bool value =>
    cases value
    · exact ⟨'f', _, h, by decide, .inr (by decide)⟩
    · exact ⟨'t', _, h, by decide, .inr (by decide)⟩
  | _ => exact ⟨_, _, h, by decide, .inr (by decide)⟩

theorem IsSpacing.dropWhile_append {space text : List Char} (h : IsSpacing space) :
    (space ++ text).dropWhile isSpace = text.dropWhile isSpace := by
  refine List.dropWhile_append_of_pos fun c hc ↦ ?_
  have hmem := h c hc
  simp only [List.mem_cons, List.not_mem_nil, or_false] at hmem
  rcases hmem with rfl | rfl | rfl | rfl <;> rfl

/-- Marks of which the first is not a number do not continue a number. -/
theorem Spread.endsNumber {marks : List Mark} {text : List Char} (h : Spread marks text)
    (hfirst : ∀ mark ∈ marks.head?, mark.isNumber = false) : EndsNumber text := by
  have hspacing {space : List Char} {c : Char} (hspace : IsSpacing (c :: space)) :
      continuesNumber c = false := by
    have hmem := hspace c List.mem_cons_self
    simp only [List.mem_cons, List.not_mem_nil, or_false] at hmem
    rcases hmem with rfl | rfl | rfl | rfl <;> decide
  cases h with
  | nil hspace =>
    rintro c hc
    obtain ⟨rest, rfl⟩ := List.head?_eq_some_iff.mp hc
    exact hspacing hspace
  | @cons mark _ space _ rest hspace hmark _ =>
    cases space with
    | cons c space =>
      rintro _ ⟨⟩
      exact hspacing hspace
    | nil =>
      obtain ⟨c, others, rfl, -, hnumber | hc⟩ := hmark.exists_cons
      · rw [hfirst mark rfl] at hnumber
        exact absurd hnumber (by decide)
      · rintro _ ⟨⟩
        exact hc

/-! ### Reading the marks of a text -/

theorem marksAfter_of_scanMark {done : List Mark} {text remaining : List Char} {mark : Mark}
    (hscan : scanMark (text.dropWhile isSpace) = some (mark, remaining))
    (hne : text.dropWhile isSpace ≠ []) :
    marksAfter done text = marksAfter (mark :: done) remaining := by
  rw [marksAfter]
  split
  · rename_i hnil
    exact absurd hnil hne
  · rename_i c rest hcons
    split
    · rename_i hnone
      rw [← hcons, hscan] at hnone
      exact absurd hnone (by simp)
    · rename_i mark' remaining' hsome
      rw [← hcons, hscan] at hsome
      obtain ⟨rfl, rfl⟩ := Prod.mk.inj (Option.some.inj hsome)
      rfl

theorem marksAfter_of_isSpacing {done : List Mark} {text : List Char} (h : IsSpacing text) :
    marksAfter done text = some done.reverse := by
  have hdrop : text.dropWhile isSpace = [] := by
    rw [← List.append_nil text, h.dropWhile_append, List.dropWhile_nil]
  rw [marksAfter]
  split
  · rfl
  · rename_i hcons
    rw [hdrop] at hcons
    exact absurd hcons (by simp)

/-- Two marks that may follow each other: not two numbers. -/
def MayFollow (mark next : Mark) : Prop := mark.isNumber = true → next.isNumber = false

/-- Marks are read from a text over which they are spread, if no number follows a number. -/
theorem marksAfter_of_spread {marks : List Mark} {text : List Char} (h : Spread marks text)
    (hchain : marks.IsChain MayFollow) (done : List Mark) :
    marksAfter done text = some (done.reverse ++ marks) := by
  induction h generalizing done with
  | nil hspace => rw [marksAfter_of_isSpacing hspace, List.append_nil]
  | @cons mark marks space text rest hspace hmark others ih =>
    obtain ⟨hfirst, hothers⟩ := List.isChain_cons.mp hchain
    have hscan : scanMark (text ++ rest) = some (mark, rest) :=
      scanMark_of_isSpelled hmark fun hnumber ↦
        others.endsNumber fun next hnext ↦ hfirst next hnext hnumber
    have hdrop : (space ++ text ++ rest).dropWhile isSpace = text ++ rest := by
      obtain ⟨c, after, rfl, hc, -⟩ := hmark.exists_cons
      rw [List.append_assoc, hspace.dropWhile_append]
      exact List.dropWhile_cons_of_neg (by simp [hc])
    have hne : text ++ rest ≠ [] := by
      obtain ⟨c, after, rfl, -⟩ := hmark.exists_cons
      exact List.cons_ne_nil _ _
    rw [marksAfter_of_scanMark (hdrop ▸ hscan) (hdrop ▸ hne), ih hothers]
    simp

/-! ### Values -/

theorem isChain_mark_cons {mark : Mark} {marks : List Mark} (hmark : mark.isNumber = false)
    (h : marks.IsChain MayFollow) : (mark :: marks).IsChain MayFollow := by
  refine List.isChain_cons.mpr ⟨fun _ _ hnumber ↦ ?_, h⟩
  rw [hmark] at hnumber
  exact absurd hnumber (by decide)

theorem isChain_append_mark {marks marks' : List Mark} {mark : Mark} (hmark : mark.isNumber = false)
    (h : marks.IsChain MayFollow) (h' : marks'.IsChain MayFollow) :
    (marks ++ mark :: marks').IsChain MayFollow := by
  refine List.isChain_append.mpr ⟨h, isChain_mark_cons hmark h', ?_⟩
  rintro _ _ _ ⟨⟩ _
  exact hmark

mutual

/-- No number follows a number in the marks of a value. -/
theorem Value.isChain_marks : ∀ v : Value, v.marks.IsChain MayFollow
  | .null | .bool _ | .number _ | .string _ => by
    simp [Value.marks]
  | .array items => by
    rw [Value.marks]
    exact isChain_mark_cons rfl (isChain_append_mark rfl (isChain_itemMarks items) .nil)
  | .object members => by
    rw [Value.marks]
    exact isChain_mark_cons rfl (isChain_append_mark rfl (isChain_memberMarks members) .nil)

theorem isChain_itemMarks : ∀ items : List Value, (itemMarks items).IsChain MayFollow
  | [] => by
    simp [itemMarks]
  | [v] => by
    rw [itemMarks]
    exact v.isChain_marks
  | v :: w :: items => by
    rw [itemMarks]
    exact isChain_append_mark rfl v.isChain_marks (isChain_itemMarks (w :: items))

theorem isChain_memberMarks : ∀ members : List (Spelled × Value),
    (memberMarks members).IsChain MayFollow
  | [] => by
    simp [memberMarks]
  | [(key, v)] => by
    rw [memberMarks]
    exact isChain_mark_cons rfl (isChain_mark_cons rfl v.isChain_marks)
  | (key, v) :: m :: members => by
    rw [memberMarks]
    exact isChain_mark_cons rfl (isChain_mark_cons rfl
      (isChain_append_mark rfl v.isChain_marks (isChain_memberMarks (m :: members))))

end

/-- A text that writes a value: the marks of the value are spread over it. -/
def Value.IsWrittenAs (v : Value) (text : String) : Prop := Spread v.marks text.toList

/-- A text that writes a value is read as the value. -/
theorem read?_of_isWrittenAs {v : Value} {text : String} (h : v.IsWrittenAs text) :
    read? text = some v := by
  have hmarks : marks text = some v.marks := marksAfter_of_spread h v.isChain_marks []
  rw [read?, hmarks, Option.bind_some, ofMarks?_marks]

/-! ### Values that can be written -/

/-- A value whose marks can be spelled. -/
def Value.IsWritable (v : Value) : Prop := ∀ mark ∈ v.marks, ∃ text, mark.IsSpelled text

theorem exists_spread {marks : List Mark} (h : ∀ mark ∈ marks, ∃ text, mark.IsSpelled text) :
    ∃ text, Spread marks text := by
  induction marks with
  | nil => exact ⟨[], .nil (by simp [IsSpacing])⟩
  | cons mark marks ih =>
    obtain ⟨⟨text, htext⟩, hmarks⟩ := List.forall_mem_cons.mp h
    obtain ⟨rest, hrest⟩ := ih hmarks
    exact ⟨[] ++ text ++ rest, .cons (by simp [IsSpacing]) htext hrest⟩

theorem Value.IsWritable.exists_isWrittenAs {v : Value} (h : v.IsWritable) :
    ∃ text, v.IsWrittenAs text := by
  obtain ⟨text, htext⟩ := exists_spread h
  exact ⟨String.ofList text, by rwa [Value.IsWrittenAs, String.toList_ofList]⟩

theorem isWritable_null : Value.null.IsWritable := by
  simp [Value.IsWritable, Value.marks, Mark.IsSpelled]

theorem isWritable_string (text : String) : (Value.string (some text)).IsWritable := by
  obtain ⟨body, hbody⟩ := exists_isBody text
  rw [Value.IsWritable, Value.marks, List.forall_mem_singleton]
  exact ⟨_, body, rfl, hbody⟩

theorem mem_itemMarks {mark : Mark} : ∀ {items : List Value}, mark ∈ itemMarks items →
    mark = .comma ∨ ∃ v ∈ items, mark ∈ v.marks
  | [], h => by simp [itemMarks] at h
  | [v], h => .inr ⟨v, List.mem_cons_self, by rwa [itemMarks] at h⟩
  | v :: w :: items, h => by
    rw [itemMarks, List.mem_append, List.mem_cons] at h
    rcases h with h | rfl | h
    · exact .inr ⟨v, List.mem_cons_self, h⟩
    · exact .inl rfl
    · exact (mem_itemMarks h).imp_right fun ⟨u, hu, hmark⟩ ↦ ⟨u, List.mem_cons_of_mem v hu, hmark⟩

theorem mem_memberMarks {mark : Mark} : ∀ {members : List (Spelled × Value)},
    mark ∈ memberMarks members →
    mark = .comma ∨ mark = .colon ∨ ∃ m ∈ members, mark = .string m.1 ∨ mark ∈ m.2.marks
  | [], h => by simp [memberMarks] at h
  | [(key, v)], h => by
    rw [memberMarks, List.mem_cons, List.mem_cons] at h
    rcases h with rfl | rfl | h
    · exact .inr (.inr ⟨(key, v), List.mem_cons_self, .inl rfl⟩)
    · exact .inr (.inl rfl)
    · exact .inr (.inr ⟨(key, v), List.mem_cons_self, .inr h⟩)
  | (key, v) :: m :: members, h => by
    rw [memberMarks, List.mem_cons, List.mem_cons, List.mem_append, List.mem_cons] at h
    rcases h with rfl | rfl | h | rfl | h
    · exact .inr (.inr ⟨(key, v), List.mem_cons_self, .inl rfl⟩)
    · exact .inr (.inl rfl)
    · exact .inr (.inr ⟨(key, v), List.mem_cons_self, .inr h⟩)
    · exact .inl rfl
    · exact (mem_memberMarks h).imp_right fun h ↦ h.imp_right fun ⟨n, hn, hmark⟩ ↦
        ⟨n, List.mem_cons_of_mem _ hn, hmark⟩

theorem isWritable_array {items : List Value} (h : ∀ v ∈ items, v.IsWritable) :
    (Value.array items).IsWritable := by
  intro mark hmark
  rw [Value.marks, List.mem_cons, List.mem_append, List.mem_singleton] at hmark
  rcases hmark with rfl | hmark | rfl
  · exact ⟨_, rfl⟩
  · rcases mem_itemMarks hmark with rfl | ⟨v, hv, hmark⟩
    · exact ⟨_, rfl⟩
    · exact h v hv mark hmark
  · exact ⟨_, rfl⟩

theorem isWritable_object {members : List (Spelled × Value)}
    (h : ∀ m ∈ members, m.1.isSome = true ∧ m.2.IsWritable) :
    (Value.object members).IsWritable := by
  intro mark hmark
  rw [Value.marks, List.mem_cons, List.mem_append, List.mem_singleton] at hmark
  rcases hmark with rfl | hmark | rfl
  · exact ⟨_, rfl⟩
  · rcases mem_memberMarks hmark with rfl | rfl | ⟨m, hm, rfl | hmark⟩
    · exact ⟨_, rfl⟩
    · exact ⟨_, rfl⟩
    · obtain ⟨text, htext⟩ := Option.isSome_iff_exists.mp (h m hm).1
      rw [htext]
      exact isWritable_string text _ (by simp [Value.marks])
    · exact (h m hm).2 mark hmark
  · exact ⟨_, rfl⟩

end Normative.Document
