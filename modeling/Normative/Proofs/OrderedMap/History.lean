import Normative.Proofs.Document.Encoding
import Normative.Proofs.Document.Reading

/-!
# Histories of an ordered map

A map starts empty or is read from the text of an object. Then values are inserted, values of keys
that are present are replaced, and the map is built anew from lists of pairs, in any order and any
number of times. What it holds is told by the writes since it was last built: the pairs from which
it was built, the insertions, and the replacements of keys that were there. The keys come in the
order of their first writes, and each has the value of its last.

Objects may repeat a key, and may spell it in several ways. Their members are such writes too, so
that a map read from a text is the one that the insertions of its pairs give.

## Main definitions

* `OrderedMap.Operation` : the changes of a map.
* `OrderedMap.history` : the map after a list of changes.
* `OrderedMap.writes` : the writes that count after a list of changes.
* `OrderedMap.Reflects` : what a map has to do with the writes.
* `Document.Lists` : the pairs that the text of an object lists.

## Main results

* `OrderedMap.Reflects.perform`, `OrderedMap.Reflects.history` : one change, and any number of
  changes, keep the relation between map and writes.
* `Document.decode?_table?_eq_some_iff` : which texts are read as which maps.
* `OrderedMap.history_refines` : maps at any time of their history.
-/

namespace Normative

namespace OrderedMap

variable {α : Type}

/-! ### Replacement -/

theorem replaceEntry_eq_map {entries : List (String × α)} {key : String}
    (h : (entries.map Prod.fst).Nodup) (value : α) :
    replaceEntry key value entries =
      entries.map fun e ↦ if e.1 = key then (key, value) else e := by
  induction entries with
  | nil => rfl
  | cons e rest ih =>
    obtain ⟨hnew, hrest⟩ := List.nodup_cons.mp h
    rw [replaceEntry, List.map_cons]
    split
    · rename_i hkey
      have hsame : rest.map (fun e ↦ if e.1 = key then (key, value) else e) = rest := by
        refine (List.map_congr_left fun e' he' ↦ if_neg ?_).trans (List.map_id' _)
        rintro rfl
        exact hnew (hkey ▸ List.mem_map_of_mem he')
      rw [hsame]
    · rw [ih hrest]

theorem replace_of_notMem {m : OrderedMap α} {key : String} (h : key ∉ m.keys) (value : α) :
    m.replace key value = m := by
  obtain ⟨entries⟩ := m
  refine congrArg mk ?_
  induction entries with
  | nil => rfl
  | cons e rest ih =>
    obtain ⟨hne, hrest⟩ := not_or.mp (List.mem_cons.not.mp h)
    rw [replaceEntry, if_neg (Ne.symm hne), ih hrest]

/-! ### Changes -/

/-- A change of a map. -/
inductive Operation (α : Type) where
  | insert (key : String) (value : α)
  /-- Replace the value of a key that is present. -/
  | replace (key : String) (value : α)
  /-- Build the map anew. -/
  | collect (pairs : List (String × α))

namespace Operation

/-- The answer to a change, and the map after it. -/
def perform (m : OrderedMap α) : Operation α → Option α × OrderedMap α
  | insert key value => m.put key value
  | replace key value =>
    match m.exchange? key value with
    | some (old, m) => (some old, m)
    | none => (none, m)
  | collect pairs => (none, ofList pairs)

/-- The writes that count after a change. Replacing a missing key is no write. -/
def record (writes : List (String × α)) : Operation α → List (String × α)
  | insert key value => writes ++ [(key, value)]
  | replace key value => if key ∈ writes.map Prod.fst then writes ++ [(key, value)] else writes
  | collect pairs => pairs

/-- A replacement answers the value that its key had before. -/
theorem perform_replace (m : OrderedMap α) (key : String) (value : α) :
    (replace key value).perform m = (m.get? key, m.replace key value) := by
  rw [perform, exchange?_eq]
  cases hget : m.get? key with
  | some old => rfl
  | none =>
    have hkey : key ∉ m.keys := by
      rw [mem_keys_iff, contains, hget]
      exact Bool.false_ne_true
    rw [replace_of_notMem hkey]
    rfl

end Operation

/-- The map after a list of changes. -/
def history (m : OrderedMap α) (ops : List (Operation α)) : OrderedMap α :=
  ops.foldl (fun m op ↦ (op.perform m).2) m

/-- The writes that count after a list of changes. -/
def writes (pairs : List (String × α)) (ops : List (Operation α)) : List (String × α) :=
  ops.foldl Operation.record pairs

/-- The value that was written last for a key. -/
def lastWritten? (writes : List (String × α)) (key : String) : Option α :=
  writes.reverse.lookup key

/-- The keys of a map are in the order of their first writes, and each has the value of its last. -/
structure Reflects (m : OrderedMap α) (writes : List (String × α)) : Prop where
  nodup : m.keys.Nodup
  keys_eq : m.keys = (writes.map Prod.fst).eraseDups
  get?_eq (key : String) : m.get? key = lastWritten? writes key

variable {m : OrderedMap α} {writes : List (String × α)}

theorem lastWritten?_concat (writes : List (String × α)) (key other : String) (value : α) :
    lastWritten? (writes ++ [(key, value)]) other =
      if other = key then some value else lastWritten? writes other := by
  rw [lastWritten?, List.reverse_concat, lookup_cons_eq_ite, lastWritten?]

theorem Reflects.mem_keys_iff (h : m.Reflects writes) {key : String} :
    key ∈ m.keys ↔ key ∈ writes.map Prod.fst := by
  rw [h.keys_eq, List.mem_eraseDups]

theorem reflects_empty : (empty : OrderedMap α).Reflects [] where
  nodup := .nil
  keys_eq := rfl
  get?_eq _ := rfl

theorem Reflects.insert (h : m.Reflects writes) (key : String) (value : α) :
    (m.insert key value).Reflects (writes ++ [(key, value)]) where
  nodup := nodup_keys_insert h.nodup key value
  keys_eq := by rw [keys_insert, h.keys_eq, List.map_append, List.map_singleton, eraseDups_concat]
  get?_eq other := by rw [get?_insert, lastWritten?_concat, h.get?_eq]

/-- Replacing a value changes no other entry and no place. -/
theorem Reflects.entries_replace (h : m.Reflects writes) (key : String) (value : α) :
    (m.replace key value).entries = m.entries.map fun e ↦ if e.1 = key then (key, value) else e :=
  replaceEntry_eq_map h.nodup value

theorem Reflects.replace (h : m.Reflects writes) (key : String) (value : α) :
    (m.replace key value).Reflects ((Operation.replace key value).record writes) := by
  rw [Operation.record]
  split
  -- a replacement that finds its key is an insertion
  · rename_i hkey
    have hcontains := OrderedMap.mem_keys_iff.mp (h.mem_keys_iff.mpr hkey)
    rw [← show m.insert key value = m.replace key value from if_pos hcontains]
    exact h.insert key value
  · rename_i hkey
    rw [replace_of_notMem fun hmem ↦ hkey (h.mem_keys_iff.mp hmem)]
    exact h

theorem Reflects.foldl_insert (h : m.Reflects writes) (pairs : List (String × α)) :
    (pairs.foldl (fun m p ↦ m.insert p.1 p.2) m).Reflects (writes ++ pairs) := by
  induction pairs generalizing m writes with
  | nil => rwa [List.append_nil]
  | cons p pairs ih =>
    rw [List.append_cons]
    exact ih (h.insert p.1 p.2)

theorem reflects_ofList (pairs : List (String × α)) : (ofList pairs).Reflects pairs :=
  reflects_empty.foldl_insert pairs

/-- A change acts on the map as it acts on the writes. -/
theorem Reflects.perform (h : m.Reflects writes) (op : Operation α) :
    (op.perform m).2.Reflects (op.record writes) := by
  cases op with
  | insert key value =>
    rw [Operation.perform, put_eq]
    exact h.insert key value
  | replace key value =>
    rw [Operation.perform_replace]
    exact h.replace key value
  | collect pairs => exact reflects_ofList pairs

/-- Whatever the changes were, a map reflects the writes that count. -/
theorem Reflects.history {pairs : List (String × α)} (h : m.Reflects pairs)
    (ops : List (Operation α)) : (m.history ops).Reflects (OrderedMap.writes pairs ops) := by
  induction ops generalizing m pairs with
  | nil => exact h
  | cons op ops ih => exact ih (h.perform op)

theorem history_insert (m : OrderedMap α) (pairs : List (String × α)) :
    m.history (pairs.map fun p ↦ .insert p.1 p.2) =
      pairs.foldl (fun m p ↦ m.insert p.1 p.2) m := by
  simp only [OrderedMap.history, List.foldl_map, Operation.perform, put_eq]

end OrderedMap

/-! ### Objects -/

namespace Document

variable {α : Type} {value? : Value → Option α}

/-- The pairs that the text of an object lists, one for each member. -/
def Lists (value? : Value → Option α) (text : String) (pairs : List (String × α)) : Prop :=
  ∃ members, (Value.object members).IsWrittenAs text ∧
    List.Forall₂ (fun p member ↦ member.1 = some p.1 ∧ value? member.2 = some p.2) pairs members

theorem member?_eq_some_iff {member : Spelled × Value} {p : String × α} :
    member? value? member = some p ↔ member.1 = some p.1 ∧ value? member.2 = some p.2 := by
  obtain ⟨key, v⟩ := member
  obtain ⟨k, a⟩ := p
  simp [member?, Option.bind_eq_some_iff]

theorem forall₂_of_mapM_eq_some {β : Type} {f : β → Option α} {list : List α} {items : List β}
    (h : items.mapM f = some list) : List.Forall₂ (fun a b ↦ f b = some a) list items := by
  induction items generalizing list with
  | nil =>
    obtain rfl := Option.some.inj h
    exact .nil
  | cons b items ih =>
    rw [List.mapM_cons] at h
    obtain ⟨a, ha, h⟩ := Option.bind_eq_some_iff.mp h
    obtain ⟨others, hothers, h⟩ := Option.bind_eq_some_iff.mp h
    obtain rfl := Option.some.inj h
    exact .cons ha (ih hothers)

/-- A table is read from the texts of objects, by insertion of the pairs in the order in which they
are listed. -/
theorem decode?_table?_eq_some_iff {text : String} {m : OrderedMap α} :
    decode? (table? value?) text = some m ↔
      ∃ pairs, Lists value? text pairs ∧ m = .ofList pairs := by
  constructor
  · intro h
    obtain ⟨v, hv, h⟩ := Option.bind_eq_some_iff.mp h
    cases v with
    | object members =>
      obtain ⟨pairs, hpairs, rfl⟩ := Option.map_eq_some_iff.mp h
      refine ⟨pairs, ⟨members, read?_eq_some_iff.mp hv, ?_⟩, rfl⟩
      exact (forall₂_of_mapM_eq_some hpairs).imp fun _ _ ↦ member?_eq_some_iff.mp
    | _ => exact absurd h (by simp [table?])
  · rintro ⟨pairs, ⟨members, hv, hpairs⟩, rfl⟩
    have hmembers : members.mapM (member? value?) = some pairs :=
      mapM_eq_some_of_forall₂ (hpairs.imp fun _ _ ↦ member?_eq_some_iff.mpr)
    rw [decode?, read?_eq_some_iff.mpr hv, Option.bind_some, table?, hmembers, Option.map_some]

end Document

/-! ### Histories -/

namespace OrderedMap

open Document (Value Lists decode? table? int64?)

variable {α : Type}

/-- The map with which a history starts: the empty one, or the one that is read from a text. -/
def start? (value? : Value → Option α) : Option String → Option (OrderedMap α)
  | none => some empty
  | some text => decode? (table? value?) text

/-- The writes with which a history starts. -/
def StartsWith (value? : Value → Option α) : Option String → List (String × α) → Prop
  | none, pairs => pairs = []
  | some text, pairs => Lists value? text pairs

theorem start?_eq_some_iff {value? : Value → Option α} {source : Option String}
    {m : OrderedMap α} :
    start? value? source = some m ↔ ∃ pairs, StartsWith value? source pairs ∧ m = ofList pairs := by
  cases source with
  | none => simp [start?, StartsWith, ofList, eq_comm]
  | some text => exact Document.decode?_table?_eq_some_iff

/-- A map is read from the text of an object as if its pairs were inserted one after the other.
From then on, and from the empty map, whatever the changes: no key occurs twice, the keys come in
the order of their first writes, each key has the value of its last write, a change answers the
value that its key had before, and a replacement changes one value at its place. -/
theorem history_refines (value? : Value → Option α) (source : Option String) :
    (∀ m, start? value? source = some m ↔ ∃ pairs, StartsWith value? source pairs ∧
      m = empty.history (pairs.map fun p ↦ .insert p.1 p.2)) ∧
    ∀ m pairs, start? value? source = some m → StartsWith value? source pairs → ∀ ops,
      (m.history ops).keys.Nodup ∧
      (m.history ops).keys = ((writes pairs ops).map Prod.fst).eraseDups ∧
      (∀ key, (m.history ops).get? key = lastWritten? (writes pairs ops) key) ∧
      ∀ key value,
        ((Operation.insert key value).perform (m.history ops)).1 =
          lastWritten? (writes pairs ops) key ∧
        ((Operation.replace key value).perform (m.history ops)).1 =
          lastWritten? (writes pairs ops) key ∧
        (m.history (ops ++ [.replace key value])).entries =
          (m.history ops).entries.map fun e ↦ if e.1 = key then (key, value) else e := by
  refine ⟨fun m ↦ ?_, fun m pairs hm hpairs ops ↦ ?_⟩
  · simp only [history_insert]
    exact start?_eq_some_iff
  -- the text lists no other pairs than these, since it is read as one map only
  · obtain rfl : m = ofList pairs := Option.some.inj (hm.symm.trans
      (start?_eq_some_iff.mpr ⟨pairs, hpairs, rfl⟩))
    have h := (reflects_ofList pairs).history ops
    refine ⟨h.nodup, h.keys_eq, h.get?_eq, fun key value ↦ ⟨?_, ?_, ?_⟩⟩
    · rw [Operation.perform, put_eq, h.get?_eq]
    · rw [Operation.perform_replace, h.get?_eq]
    · rw [history, List.foldl_concat, ← history, Operation.perform_replace]
      exact h.entries_replace key value

/-- An object that repeats a key, in another spelling. -/
def repeatedKeyText : String := "\x7b\"b\":1,\"a\":2,\"\\u0062\":3\x7d"

theorem lists_repeatedKeyText : Lists int64? repeatedKeyText [("b", 1), ("a", 2), ("b", 3)] :=
  ⟨[(some "b", .number ⟨false, ['1'], none, none⟩), (some "a", .number ⟨false, ['2'], none, none⟩),
      (some "b", .number ⟨false, ['3'], none, none⟩)],
    Document.spread_of_marks (by decide +kernel),
    .cons ⟨rfl, by decide⟩ (.cons ⟨rfl, by decide⟩ (.cons ⟨rfl, by decide⟩ .nil))⟩

theorem history_refines_repeatedKeyText :
    ∃ m, start? int64? (some repeatedKeyText) = some m ∧
      StartsWith int64? (some repeatedKeyText) [("b", 1), ("a", 2), ("b", 3)] ∧
      (m.history [.replace "c" 4, .insert "d" 6, .replace "b" 5]).keys = ["b", "a", "d"] ∧
      (m.history [.replace "c" 4, .insert "d" 6, .replace "b" 5]).get? "b" = some 5 := by
  have hstart : start? int64? (some repeatedKeyText) = some (ofList _) :=
    start?_eq_some_iff.mpr ⟨_, lists_repeatedKeyText, rfl⟩
  obtain ⟨-, hkeys, hget, -⟩ := (history_refines int64? (some repeatedKeyText)).2 _ _ hstart
    lists_repeatedKeyText [.replace "c" 4, .insert "d" 6, .replace "b" 5]
  exact ⟨_, hstart, lists_repeatedKeyText, hkeys.trans (by decide), (hget "b").trans (by decide)⟩

end OrderedMap

end Normative
