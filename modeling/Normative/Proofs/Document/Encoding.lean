import Mathlib.Data.List.Forall2
import Mathlib.Data.List.Nodup
import Normative.Document.Decode
import Normative.Proofs.Document.Writing

/-!
# Values that encode data

Data have many encodings, so an encoding is a relation between data and values. A record is encoded
by an object whose members come in any order. A field that has its default may be left out, a
missing option may be written as null, and members under other names than those of the fields may
stand anywhere. A table is encoded by an object with the entries of the table in order, each key
once. A decoder undoes an encoding if it gives back the data from every value that encodes them.

## Main definitions

* `Document.Encoding` : which values encode which data.
* `Document.Encoding.text`, `Document.Encoding.list`, `Document.Encoding.optional`,
  `Document.Encoding.table`, `Document.Encoding.record` : the encodings of simple data.
* `Document.Writes`, `Document.WritesUnless` : members that write a field.
* `Document.Undoes` : a decoder that gives back what has been encoded.

## Main results

* `Document.undoes_list`, `Document.undoes_optional`, `Document.undoes_table` : decoders of
  compound data undo their encodings.
* `Document.fields?_of_isRecord`, `Document.field?_eq_some`, `Document.required?_eq_some` : the
  fields of a record are found again.
-/

namespace Normative

/-- A table is what its entries give when they are inserted one after the other. -/
theorem OrderedMap.ofList_entries {α : Type} (m : OrderedMap α) (h : m.keys.Nodup) :
    ofList m.entries = m := by
  have hfold (entries : List (String × α)) : ∀ before : OrderedMap α,
      (before.keys ++ entries.map Prod.fst).Nodup →
      entries.foldl (fun m e ↦ m.insert e.1 e.2) before = ⟨before.entries ++ entries⟩ := by
    induction entries with
    | nil => simp
    | cons e entries ih =>
      intro before hnodup
      have hnew : ¬ before.contains e.1 = true := by
        rw [← mem_keys_iff]
        exact fun hmem ↦ (List.nodup_append.mp hnodup).2.2 e.1 hmem e.1 (by simp) rfl
      have hinsert : before.insert e.1 e.2 = ⟨before.entries ++ [e]⟩ := by
        rw [insert, if_neg hnew]
      rw [List.foldl_cons, hinsert, ih]
      · simp
      · simpa [keys] using hnodup
  simpa [ofList, empty] using hfold m.entries empty (by simpa [keys, empty] using h)

namespace Document

variable {α : Type}

/-- Which values encode which data. -/
abbrev Encoding (α : Type) := α → Value → Prop

namespace Encoding

/-- A text is encoded by the string that spells it. -/
def text : Encoding String := fun text v ↦ v = .string (some text)

/-- A list is encoded by the array of its members. -/
def list (encodes : Encoding α) : Encoding (List α) := fun list v ↦
  ∃ items, v = .array items ∧ List.Forall₂ encodes list items

/-- An option is encoded by null or by the value of what it holds. -/
def optional (encodes : Encoding α) : Encoding (Option α)
  | none, v => v = .null
  | some a, v => encodes a v

/-- A table is encoded by an object with its entries in order; no key is repeated. -/
def table (encodes : Encoding α) : Encoding (OrderedMap α) := fun m v ↦
  m.keys.Nodup ∧ ∃ members, v = .object members ∧
    List.Forall₂ (fun entry member ↦ member.1 = some entry.1 ∧ encodes entry.2 member.2)
      m.entries members

end Encoding

/-! ### Records -/

/-- An object with members under texts, in which the names of fields are not repeated. -/
def IsRecord (names : List String) (members : Fields) (v : Value) : Prop :=
  v = .object (members.map fun m ↦ (some m.1, m.2)) ∧
    ∀ name ∈ names, (members.map Prod.fst).count name ≤ 1

/-- A record is encoded by an object whose members are as required. -/
def Encoding.record (names : List String) (writes : α → Fields → Prop) : Encoding α := fun a v ↦
  ∃ members, IsRecord names members v ∧ writes a members

/-- Members of which one writes a field. -/
def Writes (members : Fields) (name : String) (encodes : Encoding α) (a : α) : Prop :=
  ∃ v, (name, v) ∈ members ∧ encodes a v

/-- Members of which one writes a field, or none if the field has its default. -/
def WritesUnless (members : Fields) (name : String) (encodes : Encoding α) (default a : α) : Prop :=
  Writes members name encodes a ∨ a = default ∧ ∀ v, (name, v) ∉ members

/-- A decoder that gives back the data from every value that encodes them. -/
def Undoes (value? : Value → Option α) (encodes : Encoding α) : Prop :=
  ∀ a v, encodes a v → value? v = some a

/-! ### Decoders of simple data -/

theorem mapM_eq_some_of_forall₂ {β : Type} {f : β → Option α} {list : List α} {items : List β}
    (h : List.Forall₂ (fun a b ↦ f b = some a) list items) : items.mapM f = some list := by
  induction h with
  | nil => rfl
  | cons hhead _ ih => simp [hhead, ih]

theorem undoes_text : Undoes text? .text := by
  rintro text v rfl
  rfl

theorem undoes_list {value? : Value → Option α} {encodes : Encoding α} (h : Undoes value? encodes) :
    Undoes (list? value?) (.list encodes) := by
  rintro list v ⟨items, rfl, hitems⟩
  exact mapM_eq_some_of_forall₂ (hitems.imp h)

/-- An option is decoded, provided that null does not encode what it may hold. -/
theorem undoes_optional {value? : Value → Option α} {encodes : Encoding α}
    (h : Undoes value? encodes) (hnull : value? .null = none) :
    Undoes (optional? value?) (.optional encodes) := by
  rintro (_ | a) v hv
  · obtain rfl : v = .null := hv
    rfl
  · have hvalue := h a v hv
    have hne : v ≠ .null := by
      rintro rfl
      rw [hnull] at hvalue
      exact absurd hvalue (by simp)
    cases v <;> first | exact absurd rfl hne | simp [optional?, hvalue]

theorem undoes_table {value? : Value → Option α} {encodes : Encoding α}
    (h : Undoes value? encodes) : Undoes (table? value?) (.table encodes) := by
  rintro m v ⟨hkeys, members, rfl, hmembers⟩
  have hdecoded : members.mapM (member? value?) = some m.entries := by
    refine mapM_eq_some_of_forall₂ (hmembers.imp ?_)
    rintro entry member ⟨hkey, hvalue⟩
    simp [member?, hkey, h _ _ hvalue]
  rw [table?, hdecoded, Option.map_some, OrderedMap.ofList_entries m hkeys]

/-! ### Decoders of records -/

/-- The members of a record under the names of its fields. -/
def known (names : List String) (members : Fields) : Fields :=
  members.filter fun m ↦ names.contains m.1

theorem mem_known {names : List String} {members : Fields} {name : String} {v : Value}
    (h : name ∈ names) : (name, v) ∈ known names members ↔ (name, v) ∈ members := by
  simp [known, h]

section Record

variable {names : List String} {members : Fields} {v : Value}

theorem IsRecord.nodup_known (h : IsRecord names members v) :
    ((known names members).map Prod.fst).Nodup := by
  refine List.nodup_iff_count_le_one.mpr fun name ↦ ?_
  have hsub : ((known names members).map Prod.fst).count name ≤
      (members.map Prod.fst).count name :=
    (List.filter_sublist.map Prod.fst).count_le name
  by_cases hname : name ∈ names
  · exact Nat.le_trans hsub (h.2 name hname)
  · have hzero : ((known names members).map Prod.fst).count name = 0 := by
      refine List.count_eq_zero.mpr fun hmem ↦ ?_
      obtain ⟨m, hm, rfl⟩ := List.mem_map.mp hmem
      exact hname (by simpa using (List.mem_filter.mp hm).2)
    omega

/-- The fields of a record are its members under their names. -/
theorem fields?_of_isRecord (h : IsRecord names members v) :
    fields? names v = some (known names members) := by
  have hmembers : (members.map fun m ↦ (some m.1, m.2)).mapM (member? some) = some members := by
    refine mapM_eq_some_of_forall₂ ?_
    rw [List.forall₂_map_right_iff, List.forall₂_same]
    exact fun m _ ↦ rfl
  have hnodup := h.nodup_known
  obtain ⟨rfl, -⟩ := h
  simp only [fields?, hmembers, Option.bind_eq_bind, Option.bind_some]
  exact if_pos hnodup

variable {name : String} {value? : Value → Option α} {encodes : Encoding α} {default a : α}

theorem Writes.lookup_known (hrecord : IsRecord names members v) (hname : name ∈ names)
    (hundoes : Undoes value? encodes) (h : Writes members name encodes a) :
    ∃ w, (known names members).lookup name = some w ∧ value? w = some a := by
  obtain ⟨w, hmem, hw⟩ := h
  exact ⟨w, OrderedMap.lookup_eq_some_of_mem hrecord.nodup_known ((mem_known hname).mpr hmem),
    hundoes a w hw⟩

/-- A field that is required is found. -/
theorem required?_eq_some (hrecord : IsRecord names members v) (hname : name ∈ names)
    (hundoes : Undoes value? encodes) (h : Writes members name encodes a) :
    required? (known names members) name value? = some a := by
  obtain ⟨w, hlookup, hw⟩ := h.lookup_known hrecord hname hundoes
  rw [required?, hlookup, Option.bind_some, hw]

/-- A field that may be missing is found, or has its default. -/
theorem field?_eq_some (hrecord : IsRecord names members v) (hname : name ∈ names)
    (hundoes : Undoes value? encodes) (h : WritesUnless members name encodes default a) :
    field? (known names members) name value? default = some a := by
  rcases h with h | ⟨rfl, hmissing⟩
  · obtain ⟨w, hlookup, hw⟩ := h.lookup_known hrecord hname hundoes
    simp only [field?, hlookup, hw]
  · have hlookup : (known names members).lookup name = none := by
      refine List.lookup_eq_none_iff.mpr fun m hm ↦ ?_
      rw [bne_iff_ne]
      rintro rfl
      exact hmissing m.2 ((mem_known hname).mp hm)
    simp only [field?, hlookup]

end Record

/-! ### Data that have an encoding -/

/-- Data that have an encoding which can be written. -/
def Encoding.Covers (encodes : Encoding α) (a : α) : Prop := ∃ v, encodes a v ∧ v.IsWritable

theorem covers_text (text : String) : Encoding.text.Covers text :=
  ⟨_, rfl, isWritable_string text⟩

/-- Items can be chosen for the members of a list one by one. -/
theorem exists_forall₂ {β : Type} {r : α → β → Prop} {p : β → Prop} {list : List α}
    (h : ∀ a ∈ list, ∃ b, r a b ∧ p b) : ∃ items, List.Forall₂ r list items ∧ ∀ b ∈ items, p b := by
  induction list with
  | nil => exact ⟨[], .nil, by simp⟩
  | cons a list ih =>
    obtain ⟨⟨b, hr, hp⟩, hlist⟩ := List.forall_mem_cons.mp h
    obtain ⟨items, hitems, hall⟩ := ih hlist
    exact ⟨b :: items, .cons hr hitems, List.forall_mem_cons.mpr ⟨hp, hall⟩⟩

theorem covers_list {encodes : Encoding α} {list : List α} (h : ∀ a ∈ list, encodes.Covers a) :
    (Encoding.list encodes).Covers list := by
  obtain ⟨items, hitems, hwritable⟩ := exists_forall₂ h
  exact ⟨.array items, ⟨items, rfl, hitems⟩, isWritable_array hwritable⟩

theorem covers_optional {encodes : Encoding α} {option : Option α}
    (h : ∀ a ∈ option, encodes.Covers a) : (Encoding.optional encodes).Covers option := by
  cases option with
  | none => exact ⟨.null, rfl, isWritable_null⟩
  | some a => exact h a rfl

theorem covers_texts (list : List String) : (Encoding.list .text).Covers list :=
  covers_list fun text _ ↦ covers_text text

theorem covers_optionalText (option : Option String) : (Encoding.optional .text).Covers option :=
  covers_optional fun text _ ↦ covers_text text

theorem covers_table {encodes : Encoding α} {m : OrderedMap α} (hkeys : m.keys.Nodup)
    (h : ∀ a ∈ m.values, encodes.Covers a) : (Encoding.table encodes).Covers m := by
  have hentry : ∀ entry ∈ m.entries, ∃ member : Spelled × Value,
      (member.1 = some entry.1 ∧ encodes entry.2 member.2) ∧
        member.1.isSome = true ∧ member.2.IsWritable := by
    intro entry hentry
    obtain ⟨v, hv, hwritable⟩ := h entry.2 (List.mem_map_of_mem hentry)
    exact ⟨(some entry.1, v), ⟨rfl, hv⟩, rfl, hwritable⟩
  obtain ⟨members, hmembers, hwritable⟩ := exists_forall₂ hentry
  exact ⟨.object members, ⟨hkeys, members, rfl, hmembers⟩, isWritable_object hwritable⟩

/-- A record is encoded by members for all of its fields. -/
theorem covers_record {names : List String} {writes : α → Fields → Prop} {a : α}
    (members : Fields) (hnames : members.map Prod.fst = names) (hnodup : names.Nodup)
    (hwritable : ∀ m ∈ members, m.2.IsWritable) (hwrites : writes a members) :
    (Encoding.record names writes).Covers a := by
  have honce : ∀ name ∈ names, (members.map Prod.fst).count name ≤ 1 := fun name _ ↦
    hnames ▸ List.nodup_iff_count_le_one.mp hnodup name
  refine ⟨_, ⟨members, ⟨rfl, honce⟩, hwrites⟩, isWritable_object ?_⟩
  rw [List.forall_mem_map]
  exact fun m hm ↦ ⟨rfl, hwritable m hm⟩

end Document

end Normative
