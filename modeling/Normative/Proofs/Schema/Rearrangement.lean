import Normative.Proofs.Grammar.Relocation
import Normative.Proofs.Schema.RoundTrip
import Normative.Proofs.Token.Line

/-!
# The order of items of different kinds

The items of a schema need not be written in any order, except that norms have to come in the order
of their numbers. If the lexemes of a text are an institution and a number of complete items, then
these items may be rearranged: as long as the norms keep their order among each other, and so do
the violations, the facts and the agendas, the text writes the same schema, or a norm is refused for
the same reason.

Nothing separates an item from the one after it. That a phrase at the end of an item takes nothing
from the next one is due to how items begin, and a derivation of an item can be moved in front of
any of them.

## Main definitions

* `Schema.firstRefusal?` : the reason to refuse the first norm of a list that cannot be added.
* `Schema.Rearranges` : an order of items that keeps the order of each kind.

## Main results

* `Schema.addItems_of_derivations` : what comes of items depends on the order of the norms only.
* `Schema.parse_rearranged` : a rearrangement of a text writes the same schema, or has the same
  refusal.
-/

namespace Normative

namespace Grammar

variable {input rest : List Lexeme}

theorem Rule.portable_item (institutionName : String) :
    Rule.Portable Rule.item (ItemTree.part institutionName) :=
  Rule.portable_norm.orElse <| (Rule.portable_violation.mark_andThen .violation).orElse <|
    (Rule.portable_fact.mark_andThen .fact).orElse (Rule.portable_agenda institutionName)

/-- No item begins with the word for seeking. -/
theorem Boundary.lacks_seek (h : Boundary rest) : Rule.Lacks (Rule.isToken? .seek) rest :=
  h.lacks (Rule.apart_of_isToken rfl)

/-- The kind of item that lexemes begin with. -/
def blockKind? (block : List Lexeme) : Option ItemKind := block.head?.bind (itemKind? ·.token)

/-- The kind of an item that has been read. -/
def Item.kind : Item → ItemKind
  | .norm _ _ => .norm
  | .violation _ => .violation
  | .fact _ => .fact
  | .agenda _ => .agenda

end Grammar

/-- The kind of an item. -/
def Part.kind : Part → Grammar.ItemKind
  | .inl _ => .norm
  | .inr (.inl _) => .violation
  | .inr (.inr (.inl _)) => .fact
  | .inr (.inr (.inr _)) => .agenda

theorem Grammar.ItemTree.kind_item (institutionName : String) (d : ItemTree) :
    (d.item institutionName).kind = (d.part institutionName).kind := by
  obtain d | d | d | d := d
  all_goals rfl

namespace Schema

open Grammar

variable {schema : Schema} {institutionName : String} {input : List Lexeme}

/-! ### What comes of a list of items -/

/-- The reason to refuse the first norm of a list that cannot be added after other norms. -/
def firstRefusal? (before : List Norm) : List Norm → Option NormRefusal
  | [] => none
  | next :: norms =>
    (refusal? { empty with norms := before } next).or (firstRefusal? (before ++ [next]) norms)

/-- Items are added until a norm is refused, and only the norms before it decide that. -/
theorem addItems_of_derivations (schema : Schema) {ds : List ItemTree}
    (hds : Rule.item.many input ds []) :
    (firstRefusal? schema.norms (ds.filterMap ItemTree.norm?) = none →
      addItems institutionName schema input = .ok (schema.withItems institutionName ds)) ∧
    ∀ refusal, firstRefusal? schema.norms (ds.filterMap ItemTree.norm?) = some refusal →
      ∃ number, addItems institutionName schema input = .error (.refused number refusal) := by
  induction ds generalizing schema input with
  | nil =>
    obtain rfl : [] = input := hds
    refine ⟨fun _ ↦ ?_, fun refusal h ↦ ?_⟩
    · rw [addItems, withItems_nil]
      rfl
    · simp [firstRefusal?] at h
  | cons d ds ih =>
    obtain ⟨rest, hd, hds⟩ := hds
    have hread := (reads_item institutionName).complete hd (Rule.boundary_of_items hds rfl)
    obtain d | d := d
    · have hnorms : ItemTree.norm? (.inl d) = some d.norm := rfl
      have hrefusal : refusal? { empty with norms := schema.norms } d.norm =
          schema.refusal? d.norm := rfl
      rw [List.filterMap_cons_some hnorms, firstRefusal?, hrefusal]
      cases hrefused : schema.refusal? d.norm with
      | some reason =>
        have hadd : schema.addItem (ItemTree.item institutionName (.inl d)) =
            .error (.refused d.1.lexeme reason) :=
          mapError_eq_error.mpr ⟨reason, by rw [addNorm_eq, hrefused], rfl⟩
        refine ⟨by simp, fun refusal h ↦ ⟨d.1.lexeme, ?_⟩⟩
        obtain rfl : reason = refusal := Option.some.inj h
        exact addItems_of_refused hread hadd
      | none =>
        have hadd : schema.addItem (ItemTree.item institutionName (.inl d)) =
            .ok (schema.withItems institutionName [.inl d]) :=
          mapError_eq_ok.mpr (by rw [addNorm_eq, hrefused, withItems_inl])
        have hadded : (schema.withItems institutionName [.inl d]).norms =
            schema.norms ++ [d.norm] := rfl
        rw [addItems_of_item hread hadd, withItems_cons _ ds, Option.none_or, ← hadded]
        exact ih _ hds
    · have hnorms : ItemTree.norm? (.inr d) = none := rfl
      have hsame : (schema.withItems institutionName [.inr d]).norms = schema.norms :=
        List.append_nil _
      rw [List.filterMap_cons_none hnorms, addItems_of_item hread (addItem_inr d),
        withItems_cons _ ds, ← hsame]
      exact ih _ hds

/-! ### Blocks of lexemes -/

/-- Lexemes that are one complete item. -/
def IsItem (block : List Lexeme) : Prop := ∃ d, Rule.item block d []

/-- Lexemes that introduce an institution. -/
def IsHeader (block : List Lexeme) : Prop := ∃ d, Rule.institution block d []

/-- An order of blocks that keeps the order of those that begin with the same kind of item. -/
structure Rearranges (order blocks : List (List Lexeme)) : Prop where
  perm : order.Perm blocks
  keeps : ∀ kind, order.filter (blockKind? · = some kind) = blocks.filter (blockKind? · = some kind)

theorem blockKind?_of_item {block rest : List Lexeme} {d : ItemTree} (hd : Rule.item block d rest) :
    blockKind? block = some (d.part institutionName).kind := by
  obtain d | d | d | d := d
  · obtain ⟨_, ⟨rfl, hid⟩, -⟩ := hd
    exact congrArg itemKind? (number?_eq_some.mp hid)
  · obtain ⟨_, hmark, -⟩ := hd
    obtain ⟨rfl, htoken⟩ := Rule.mark_iff.mp hmark
    exact congrArg itemKind? htoken
  · obtain ⟨_, hmark, -⟩ := hd
    obtain ⟨rfl, htoken⟩ := Rule.mark_iff.mp hmark
    exact congrArg itemKind? htoken
  · obtain ⟨_, ⟨rfl, hrole⟩, -⟩ := hd
    obtain ⟨text, htoken, -⟩ := role?_eq_some.mp hrole
    exact congrArg itemKind? htoken

/-- Blocks that are items are read as those items, one after the other, wherever they stand. -/
theorem exists_items_of_alike {part : List Lexeme → Part} {blocks : List (List Lexeme)}
    (hblocks : ∀ b ∈ blocks, ∃ d, Rule.item b d [] ∧ d.part institutionName = part b)
    (hinput : Alike input blocks.flatten) :
    ∃ ds, Rule.item.many input ds [] ∧
      ds.map (ItemTree.part institutionName) = blocks.map part := by
  induction blocks generalizing input with
  | nil => exact ⟨[], (alike_nil.mp hinput).symm, rfl⟩
  | cons b blocks ih =>
    rw [List.flatten_cons] at hinput
    obtain ⟨b', input', rfl, hb, hinput⟩ := alike_append.mp hinput
    obtain ⟨ds, hds, hparts⟩ := ih (fun b' hb' ↦ hblocks b' (List.mem_cons_of_mem b hb')) hinput
    obtain ⟨d, hd, hpart⟩ := hblocks b List.mem_cons_self
    obtain ⟨d', rest, hd', hrest, hpart'⟩ := Rule.portable_item institutionName input' hd hb
      (Rule.boundary_of_items hds rfl).lacks_seek
    obtain rfl := alike_nil.mp hrest
    refine ⟨d' :: ds, ⟨input', hd', hds⟩, ?_⟩
    rw [List.map_cons, List.map_cons, hparts, hpart', hpart]

/-! ### Rearranged items -/

/-- Members on which a function is not defined can be left out before it is applied. -/
theorem filterMap_filter_of_defined {α β : Type} {f : α → Option β} {p : α → Bool}
    (h : ∀ a, (f a).isSome → p a = true) (list : List α) :
    (list.filter p).filterMap f = list.filterMap f := by
  rw [List.filterMap_filter]
  refine congrArg (List.filterMap · list) (funext fun a ↦ ?_)
  split
  · rfl
  · rename_i hp
    cases hf : f a with
    | none => rfl
    | some b => exact absurd (h a (by simp [hf])) hp

/-- A schema does not depend on the order of items of different kinds. -/
theorem ofParts_congr (institution : Institution) {parts parts' : List Part}
    (h : ∀ kind, parts.filter (·.kind = kind) = parts'.filter (·.kind = kind)) :
    ofParts institution parts = ofParts institution parts' := by
  have hmap {β : Type} (kind : ItemKind) {f : Part → Option β}
      (hf : ∀ part, (f part).isSome → decide (part.kind = kind) = true) :
      parts.filterMap f = parts'.filterMap f := by
    rw [← filterMap_filter_of_defined hf parts, h kind, filterMap_filter_of_defined hf parts']
  rw [ofParts, ofParts, mk.injEq]
  refine ⟨rfl, hmap .norm ?_, hmap .violation ?_, hmap .fact ?_, hmap .agenda ?_⟩
  all_goals
    rintro (n | v | f | a) hdefined
    all_goals first
      | rfl
      | exact absurd hdefined Bool.false_ne_true

/-- The items that blocks denote come in an order that keeps the order of each kind, if the blocks
do. -/
theorem filter_kind_map {part : List Lexeme → Part} {blocks : List (List Lexeme)}
    (hblocks : ∀ b ∈ blocks, ∃ d, Rule.item b d [] ∧ d.part institutionName = part b)
    (kind : ItemKind) :
    (blocks.map part).filter (·.kind = kind) =
      (blocks.filter (blockKind? · = some kind)).map part := by
  rw [List.filter_map]
  refine congrArg (List.map part) (List.filter_congr fun b hb ↦ ?_)
  obtain ⟨d, hd, hpart⟩ := hblocks b hb
  have hkind : blockKind? b = some (part b).kind := by rw [← hpart, blockKind?_of_item hd]
  simp [hkind]

/-- An institution and items that stand anywhere write the schema of these items, unless a norm is
refused. -/
theorem ofLexemes_of_blocks {header : List Lexeme} {d : InstitutionTree}
    (hheader : Rule.institution header d []) {part : List Lexeme → Part}
    {blocks : List (List Lexeme)}
    (hblocks : ∀ b ∈ blocks, ∃ e, Rule.item b e [] ∧
      ItemTree.part (InstitutionTree.institution d).name e = part b)
    (hinput : Alike input (header ++ blocks.flatten))
    (hschema : ofParts (InstitutionTree.institution d) (blocks.map part) = schema) :
    (firstRefusal? [] schema.norms = none → ofLexemes input = .ok schema) ∧
      ∀ refusal, firstRefusal? [] schema.norms = some refusal →
        ∃ number, ofLexemes input = .error (.refused number refusal) := by
  obtain ⟨header', input', rfl, hheader', hinput'⟩ := alike_append.mp hinput
  obtain ⟨ds, hds, hparts⟩ := exists_items_of_alike hblocks hinput'
  have hboundary := Rule.boundary_of_items hds rfl
  obtain ⟨d', rest, hd', hrest, hinstitution⟩ :=
    Rule.portable_institution input' hheader hheader' hboundary.lacks_seek
  obtain rfl := alike_nil.mp hrest
  have hitems : ofLexemes (header' ++ input') =
      addItems (InstitutionTree.institution d').name
        { empty with institution := some (InstitutionTree.institution d') } input' := by
    rw [ofLexemes, reads_institution.complete hd' hboundary]
    rfl
  have hdenoted : SchemaTree.schema (d', ds) = schema := by
    rw [SchemaTree.schema_eq_ofParts, hinstitution, hparts, hschema]
  rw [hitems, ← hdenoted]
  exact addItems_of_derivations { empty with institution := some _ } hds

/-- If the lexemes of a text are an institution and complete items, then every text in which the
items are rearranged, with those of each kind in their order, writes the same schema, or in every
such text a norm is refused for the same reason. -/
theorem parse_rearranged {header : List Lexeme} {blocks : List (List Lexeme)}
    (hheader : IsHeader header) (hblocks : ∀ b ∈ blocks, IsItem b) :
    (∃ schema, ∀ order text, Rearranges order blocks →
      Alike (lexemes text) (header ++ order.flatten) → parse text = .ok schema) ∨
    ∃ refusal, ∀ order text, Rearranges order blocks →
      Alike (lexemes text) (header ++ order.flatten) →
      ∃ number, parse text = .error ⟨number.position, .refused number refusal⟩ := by
  obtain ⟨d, hd⟩ := hheader
  -- Every block denotes an item, and so does every block of a rearrangement.
  have hpart : ∀ b, ∃ part, b ∈ blocks → ∃ e, Rule.item b e [] ∧
      ItemTree.part (InstitutionTree.institution d).name e = part := by
    intro b
    by_cases hb : b ∈ blocks
    · obtain ⟨e, he⟩ := hblocks b hb
      exact ⟨_, fun _ ↦ ⟨e, he, rfl⟩⟩
    · exact ⟨.inr (.inr (.inl ⟨"", ""⟩)), fun h ↦ absurd h hb⟩
  obtain ⟨part, hpart⟩ := Classical.axiomOfChoice hpart
  have hsame {order : List (List Lexeme)} (horder : Rearranges order blocks) :
      ofParts (InstitutionTree.institution d) (order.map part) =
        ofParts (InstitutionTree.institution d) (blocks.map part) := by
    refine ofParts_congr _ fun kind ↦ ?_
    rw [filter_kind_map (fun b hb ↦ hpart b (horder.perm.mem_iff.mp hb)) kind,
      filter_kind_map hpart kind, horder.keeps kind]
  have hresult {order : List (List Lexeme)} {text : String} (horder : Rearranges order blocks)
      (htext : Alike (lexemes text) (header ++ order.flatten)) :=
    ofLexemes_of_blocks hd (fun b hb ↦ hpart b (horder.perm.mem_iff.mp hb)) htext (hsame horder)
  cases hrefusal : firstRefusal? []
      (ofParts (InstitutionTree.institution d) (blocks.map part)).norms with
  | none =>
    exact .inl ⟨_, fun order text horder htext ↦
      parse_eq_ok_iff.mpr ((hresult horder htext).1 hrefusal)⟩
  | some refusal =>
    refine .inr ⟨refusal, fun order text horder htext ↦ ?_⟩
    obtain ⟨number, herror⟩ := (hresult horder htext).2 refusal hrefusal
    exact ⟨number, mapError_eq_error.mpr ⟨_, herror, rfl⟩⟩

/-! ### Items on lines of their own -/

/-- Texts on lines of their own. -/
def lines (texts : List String) : String := texts.foldr (fun line rest ↦ line ++ "\n" ++ rest) ""

/-- Lines read the same as the texts that are written on them. -/
theorem alike_lexemes_lines (texts : List String) :
    Alike (lexemes (lines texts)) (texts.map lexemes).flatten := by
  induction texts with
  | nil => exact alike_nil.mpr (by decide)
  | cons line texts ih =>
    have hbelow : Lexeme.reading ∘ Lexeme.below (endPosition line).line = Lexeme.reading := rfl
    have hlines : lines (line :: texts) = line ++ "\n" ++ lines texts := rfl
    rw [hlines, lexemes_newline, Alike, List.map_append, List.map_map, hbelow, ih, List.map_cons,
      List.flatten_cons, List.map_append]

/-- Lexemes that are read as an item to the end are that item. -/
theorem isItem_of_read {block : List Lexeme} {kind : ItemKind}
    (h : (Grammar.item institutionName block).toOption.map (fun r ↦ (r.1.kind, r.2)) =
      some (kind, [])) :
    IsItem block ∧ blockKind? block = some kind := by
  cases hread : Grammar.item institutionName block with
  | error fault => simp [hread, Except.toOption] at h
  | ok r =>
    obtain ⟨item, rest⟩ := r
    obtain ⟨rfl, rfl⟩ : item.kind = kind ∧ rest = [] := by simpa [hread, Except.toOption] using h
    obtain ⟨d, hd, rfl⟩ := (reads_item institutionName).sound hread
    exact ⟨⟨d, hd⟩, by rw [blockKind?_of_item hd, ItemTree.kind_item institutionName]⟩

/-- Two norms and one item of each other kind. The action of the first norm ends in a role, and an
agenda, which begins with a role, follows. -/
def leaseItems : List String :=
  ["1 el-dueño debe \"ceder\" la-casa", "el-dueño busca cumplimiento lo-siguiente \"renta\"",
    "2 el-inquilino puede \"usar\"", "hecho \"firma\" evidencia \"acta\"",
    "violacion 1 entonces el-juez \"manda\""]

/-- The same items, with the agenda at the end and the norms apart. -/
def leaseItemsRearranged : List String :=
  ["hecho \"firma\" evidencia \"acta\"", "1 el-dueño debe \"ceder\" la-casa",
    "violacion 1 entonces el-juez \"manda\"", "2 el-inquilino puede \"usar\"",
    "el-dueño busca cumplimiento lo-siguiente \"renta\""]

theorem leaseItems_read :
    leaseItems.map (fun item ↦ (Grammar.item "Casa" (lexemes item)).toOption.map
      (fun r ↦ (r.1.kind, r.2))) =
    [some (.norm, []), some (.agenda, []), some (.norm, []), some (.fact, []),
      some (.violation, [])] := by
  decide +kernel

theorem isHeader_lease : IsHeader (lexemes "Institution Casa") := by
  have hread :
      (Grammar.institution (lexemes "Institution Casa")).toOption.map Prod.snd = some [] := by
    decide +kernel
  cases hblock : Grammar.institution (lexemes "Institution Casa") with
  | error fault => simp [hblock, Except.toOption] at hread
  | ok r =>
    obtain ⟨institution, rest⟩ := r
    obtain rfl : rest = [] := by simpa [hblock, Except.toOption] using hread
    obtain ⟨d, hd, -⟩ := reads_institution.sound hblock
    exact ⟨d, hd⟩

theorem isItem_lease : ∀ b ∈ leaseItems.map lexemes, IsItem b := by
  have hread := leaseItems_read
  simp only [leaseItems, List.map_cons, List.map_nil, List.cons.injEq, and_true] at hread
  obtain ⟨h₁, h₂, h₃, h₄, h₅⟩ := hread
  simp [leaseItems, isItem_of_read h₁, isItem_of_read h₂, isItem_of_read h₃, isItem_of_read h₄,
    isItem_of_read h₅]

theorem rearranges_lease :
    Rearranges (leaseItemsRearranged.map lexemes) (leaseItems.map lexemes) where
  perm := .map lexemes (by decide)
  keeps := by
    have hread := leaseItems_read
    simp only [leaseItems, List.map_cons, List.map_nil, List.cons.injEq, and_true] at hread
    obtain ⟨h₁, h₂, h₃, h₄, h₅⟩ := hread
    rintro (_ | _ | _ | _) <;>
      simp [leaseItems, leaseItemsRearranged, isItem_of_read h₁, isItem_of_read h₂,
        isItem_of_read h₃, isItem_of_read h₄, isItem_of_read h₅]

theorem parse_rearranged_lease :
    IsHeader (lexemes "Institution Casa") ∧ (∀ b ∈ leaseItems.map lexemes, IsItem b) ∧
    Rearranges (leaseItemsRearranged.map lexemes) (leaseItems.map lexemes) ∧
    ((∃ schema, parse (lines ("Institution Casa" :: leaseItems)) = .ok schema ∧
        parse (lines ("Institution Casa" :: leaseItemsRearranged)) = .ok schema) ∨
      ∃ refusal number number', parse (lines ("Institution Casa" :: leaseItems)) =
          .error ⟨number.position, .refused number refusal⟩ ∧
        parse (lines ("Institution Casa" :: leaseItemsRearranged)) =
          .error ⟨number'.position, .refused number' refusal⟩) := by
  have htext := alike_lexemes_lines ("Institution Casa" :: leaseItems)
  have htext' := alike_lexemes_lines ("Institution Casa" :: leaseItemsRearranged)
  refine ⟨isHeader_lease, isItem_lease, rearranges_lease, ?_⟩
  obtain ⟨schema, h⟩ | ⟨refusal, h⟩ := parse_rearranged isHeader_lease isItem_lease
  · exact .inl ⟨schema, h _ _ ⟨.refl _, fun _ ↦ rfl⟩ htext, h _ _ rearranges_lease htext'⟩
  · obtain ⟨number, herror⟩ := h _ _ ⟨.refl _, fun _ ↦ rfl⟩ htext
    obtain ⟨number', herror'⟩ := h _ _ rearranges_lease htext'
    exact .inr ⟨refusal, number, number', herror, herror'⟩

end Schema

end Normative
