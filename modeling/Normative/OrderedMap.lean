import Normative.Text.Fold

/-!
# Maps that keep the order of insertion

The tables of a document are walked in the order in which they are written, so a map is the list of
its entries. Writing to a key that is present replaces its value and leaves it in its place.

## Main definitions

* `OrderedMap` : entries in the order in which their keys were first inserted.
* `OrderedMap.insert`, `OrderedMap.ofList` : the ways to build a map.
* `OrderedMap.exchange?`, `OrderedMap.put` : replacement and insertion that answer the old value.
* `OrderedMap.get?`, `OrderedMap.getFold?` : look-up of a key, and of a key up to letter case.

## Main results

* `OrderedMap.get?_insert` : what look-up gives after an insertion.
* `OrderedMap.keys_insert` : an insertion adds a new key at the end and moves no other.
* `OrderedMap.exchange?_eq`, `OrderedMap.put_eq` : the answer is what look-up gave before.
* `OrderedMap.getFold?_eq_some_iff` : look-up up to letter case gives the value of the first key
  that fits.
-/

namespace Normative

/-- An element at the end of a list is its first occurrence or is no longer counted. -/
theorem eraseDups_concat (keys : List String) (key : String) :
    (keys ++ [key]).eraseDups =
      if key ∈ keys.eraseDups then keys.eraseDups else keys.eraseDups ++ [key] := by
  rw [List.eraseDups_append]
  by_cases h : key ∈ keys
  · simp [List.removeAll, List.mem_eraseDups, h]
  · simp [List.removeAll, List.mem_eraseDups, h, List.eraseDups_cons]

/-- A finite map on texts, with its entries in the order of first insertion. -/
structure OrderedMap (α : Type) where
  entries : List (String × α)
  deriving DecidableEq

namespace OrderedMap

variable {α : Type}

instance : Inhabited (OrderedMap α) := ⟨⟨[]⟩⟩

/-- The map without entries. -/
def empty : OrderedMap α := ⟨[]⟩

/-- The number of entries. -/
def size (m : OrderedMap α) : Nat := m.entries.length

/-- Whether the map has no entry. -/
def isEmpty (m : OrderedMap α) : Bool := m.entries.isEmpty

/-- The keys, in order of first insertion. -/
def keys (m : OrderedMap α) : List String := m.entries.map Prod.fst

/-- The values, in the order of their keys. -/
def values (m : OrderedMap α) : List α := m.entries.map Prod.snd

/-- The value of a key. -/
def get? (m : OrderedMap α) (key : String) : Option α := m.entries.lookup key

/-- The value of the first key that equals `key` up to letter case. -/
def getFold? (m : OrderedMap α) (key : String) : Option α :=
  (m.entries.find? (fun e ↦ Text.sameFold e.1 key)).map Prod.snd

/-- Whether a key is present. -/
def contains (m : OrderedMap α) (key : String) : Bool := (m.get? key).isSome

/-- The entries with a new value under a key, if it is present, at its place. -/
def replaceEntry (key : String) (value : α) : List (String × α) → List (String × α)
  | [] => []
  | e :: rest => if e.1 = key then (key, value) :: rest else e :: replaceEntry key value rest

/-- Replace the value of a key that is present; a map without the key stays as it is. -/
def replace (m : OrderedMap α) (key : String) (value : α) : OrderedMap α :=
  ⟨replaceEntry key value m.entries⟩

/-- Write a value under a key: in its place if the key is present, and at the end otherwise. -/
def insert (m : OrderedMap α) (key : String) (value : α) : OrderedMap α :=
  if m.contains key then m.replace key value else ⟨m.entries ++ [(key, value)]⟩

/-- The value of a key among entries, and the entries with another value in its place. -/
def exchangeAmong? (key : String) (value : α) :
    List (String × α) → Option (α × List (String × α))
  | [] => none
  | e :: rest =>
    if e.1 = key then some (e.2, (key, value) :: rest)
    else (exchangeAmong? key value rest).map fun (old, rest) ↦ (old, e :: rest)

/-- The value of a key that is present, and the map with another value in its place. -/
def exchange? (m : OrderedMap α) (key : String) (value : α) : Option (α × OrderedMap α) :=
  (exchangeAmong? key value m.entries).map fun (old, entries) ↦ (old, ⟨entries⟩)

/-- Write a value under a key, and answer the value that the key had before. -/
def put (m : OrderedMap α) (key : String) (value : α) : Option α × OrderedMap α :=
  match m.exchange? key value with
  | some (old, m) => (some old, m)
  | none => (none, ⟨m.entries ++ [(key, value)]⟩)

/-- Insert pairs one after the other into the empty map. -/
def ofList (pairs : List (String × α)) : OrderedMap α :=
  pairs.foldl (fun m p ↦ m.insert p.1 p.2) empty

theorem lookup_cons_eq_ite (key other : String) (value : α) (entries : List (String × α)) :
    ((key, value) :: entries).lookup other =
      if other = key then some value else entries.lookup other := by
  by_cases h : other = key
  · simp [h]
  · simp [List.lookup_cons, h, beq_eq_false_iff_ne.2 h]

theorem lookup_replaceEntry (key other : String) (value : α) (entries : List (String × α)) :
    (replaceEntry key value entries).lookup other =
      if other = key then (entries.lookup key).map (fun _ ↦ value) else entries.lookup other := by
  induction entries with
  | nil => simp [replaceEntry]
  | cons e rest ih =>
    obtain ⟨k, v⟩ := e
    by_cases hk : k = key
    · subst hk
      by_cases ho : other = k <;> simp [replaceEntry, lookup_cons_eq_ite, ho]
    · by_cases ho : other = key
      · subst ho
        simp [replaceEntry, lookup_cons_eq_ite, hk, Ne.symm hk, ih]
      · simp [replaceEntry, lookup_cons_eq_ite, hk, ho, ih]

theorem map_fst_replaceEntry (key : String) (value : α) (entries : List (String × α)) :
    (replaceEntry key value entries).map Prod.fst = entries.map Prod.fst := by
  induction entries with
  | nil => rfl
  | cons e rest ih =>
    by_cases hk : e.1 = key <;> simp [replaceEntry, hk, ih]

/-- Replacement gives a key that is present the new value, and every other key its old one. -/
theorem get?_replace (m : OrderedMap α) (key other : String) (value : α) :
    (m.replace key value).get? other =
      if other = key then (m.get? key).map (fun _ ↦ value) else m.get? other :=
  lookup_replaceEntry key other value m.entries

/-- Replacement keeps all keys in their places. -/
@[simp] theorem keys_replace (m : OrderedMap α) (key : String) (value : α) :
    (m.replace key value).keys = m.keys :=
  map_fst_replaceEntry key value m.entries

theorem exchangeAmong?_eq (key : String) (value : α) (entries : List (String × α)) :
    exchangeAmong? key value entries =
      (entries.lookup key).map fun old ↦ (old, replaceEntry key value entries) := by
  induction entries with
  | nil => rfl
  | cons e rest ih =>
    obtain ⟨k, v⟩ := e
    by_cases hk : k = key
    · simp [exchangeAmong?, replaceEntry, hk]
    · simp [exchangeAmong?, replaceEntry, lookup_cons_eq_ite, hk, Ne.symm hk, ih,
        Function.comp_def]

/-- An exchange answers the value of its key and replaces it; it fails if the key is missing. -/
theorem exchange?_eq (m : OrderedMap α) (key : String) (value : α) :
    m.exchange? key value = (m.get? key).map fun old ↦ (old, m.replace key value) := by
  rw [exchange?, exchangeAmong?_eq, Option.map_map]
  rfl

/-- A value that is put under a key is inserted, and the answer is the value before. -/
theorem put_eq (m : OrderedMap α) (key : String) (value : α) :
    m.put key value = (m.get? key, m.insert key value) := by
  rw [put, insert, contains, exchange?_eq]
  cases m.get? key <;> rfl

theorem mem_keys_iff {m : OrderedMap α} {key : String} : key ∈ m.keys ↔ m.contains key = true := by
  obtain ⟨entries⟩ := m
  simp only [keys, contains, get?]
  induction entries with
  | nil => simp
  | cons e rest ih =>
    obtain ⟨k, v⟩ := e
    by_cases hk : key = k <;> simp only [List.map_cons, List.mem_cons, lookup_cons_eq_ite, hk, ih,
      if_true, if_false, true_or, false_or, Option.isSome_some]

/-- Insertion gives its key the new value, and every other key its old one. -/
theorem get?_insert (m : OrderedMap α) (key other : String) (value : α) :
    (m.insert key value).get? other = if other = key then some value else m.get? other := by
  unfold insert
  split
  · rename_i h
    obtain ⟨old, hold⟩ := Option.isSome_iff_exists.1 h
    simp [get?_replace, hold]
  · rename_i h
    have hnone : m.entries.lookup key = none := Option.not_isSome_iff_eq_none.1 h
    by_cases ho : other = key
    · subst ho
      simp only [get?, List.lookup_append, lookup_cons_eq_ite, hnone, if_true, Option.none_or]
    · simp [get?, List.lookup_append, lookup_cons_eq_ite, ho]

/-- Insertion adds a new key at the end, and leaves the keys as they are otherwise. -/
theorem keys_insert (m : OrderedMap α) (key : String) (value : α) :
    (m.insert key value).keys = if key ∈ m.keys then m.keys else m.keys ++ [key] := by
  by_cases h : m.contains key = true
  · rw [if_pos (mem_keys_iff.2 h), insert, if_pos h, keys_replace]
  · rw [if_neg (fun hk ↦ h (mem_keys_iff.1 hk)), insert, if_neg h]
    simp [keys]

/-- Insertion under a new key adds an entry at the end. -/
theorem entries_insert_of_notMem {m : OrderedMap α} {key : String} (h : key ∉ m.keys) (value : α) :
    (m.insert key value).entries = m.entries ++ [(key, value)] := by
  rw [insert, if_neg fun hcontains ↦ h (mem_keys_iff.2 hcontains)]

theorem nodup_keys_insert {m : OrderedMap α} (h : m.keys.Nodup) (key : String) (value : α) :
    (m.insert key value).keys.Nodup := by
  rw [keys_insert]
  split
  · exact h
  · rename_i hkey
    refine List.nodup_append.2 ⟨h, by simp, fun k hk k' hk' ↦ ?_⟩
    rw [List.mem_singleton.1 hk']
    rintro rfl
    exact hkey hk

theorem mem_entries_of_get?_eq_some {m : OrderedMap α} {key : String} {value : α}
    (h : m.get? key = some value) : (key, value) ∈ m.entries := by
  obtain ⟨entries⟩ := m
  simp only [get?] at h ⊢
  induction entries with
  | nil => simp at h
  | cons e rest ih =>
    obtain ⟨k, v⟩ := e
    rw [lookup_cons_eq_ite] at h
    split at h
    · rename_i hkey
      rw [hkey, Option.some.inj h]
      exact List.mem_cons_self
    · exact List.mem_cons_of_mem _ (ih h)

theorem lookup_eq_some_of_mem {key : String} {value : α} {entries : List (String × α)}
    (hnodup : (entries.map Prod.fst).Nodup) (h : (key, value) ∈ entries) :
    entries.lookup key = some value := by
  induction entries with
  | nil => exact absurd h List.not_mem_nil
  | cons e rest ih =>
    obtain ⟨hnew, hnodup⟩ := List.nodup_cons.1 hnodup
    rw [lookup_cons_eq_ite]
    rcases List.mem_cons.1 h with rfl | h
    · exact if_pos rfl
    · rw [if_neg, ih hnodup h]
      rintro rfl
      exact hnew (List.mem_map.2 ⟨_, h, rfl⟩)

theorem mem_entries_of_mem_replace {m : OrderedMap α} {key : String} {value : α} {e : String × α}
    (h : e ∈ (m.replace key value).entries) : e ∈ m.entries ∨ e = (key, value) := by
  obtain ⟨entries⟩ := m
  simp only [replace] at h ⊢
  induction entries with
  | nil => exact .inl h
  | cons head rest ih =>
    rw [replaceEntry] at h
    split at h
    · rcases List.mem_cons.1 h with h | h
      · exact .inr h
      · exact .inl (List.mem_cons_of_mem _ h)
    · rcases List.mem_cons.1 h with h | h
      · exact .inl (List.mem_cons.2 (.inl h))
      · exact (ih h).imp_left (List.mem_cons_of_mem _)

/-- Look-up up to letter case gives the value of the first key that fits. -/
theorem getFold?_eq_some_iff {m : OrderedMap α} {key : String} {value : α} :
    m.getFold? key = some value ↔ ∃ found before after,
      m.entries = before ++ (found, value) :: after ∧ Text.sameFold found key = true ∧
        ∀ e ∈ before, Text.sameFold e.1 key = false := by
  rw [getFold?, Option.map_eq_some_iff]
  constructor
  · rintro ⟨⟨found, value⟩, hfind, rfl⟩
    obtain ⟨hfits, before, after, hentries, hbefore⟩ := List.find?_eq_some_iff_append.1 hfind
    exact ⟨found, before, after, hentries, hfits, by simpa using hbefore⟩
  · rintro ⟨found, before, after, hentries, hfits, hbefore⟩
    refine ⟨(found, value), List.find?_eq_some_iff_append.2 ⟨hfits, before, after, hentries, ?_⟩,
      rfl⟩
    simpa using hbefore

end OrderedMap

end Normative
