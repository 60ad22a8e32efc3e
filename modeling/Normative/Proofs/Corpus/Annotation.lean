import Mathlib.Data.List.Forall2
import Normative.Corpus.Citation

/-!
# The citations of a norm

A norm is annotated with the norms of a corpus that can be named and to which it is related. One
way of being related is that the party which the other norm binds stands for the role of the norm.
The table of roles that this needs is inferred once for all norms of the corpus and handed down.
That gives the same roles as a table that is inferred afresh for each of them, also if there was
nothing to infer, since then nothing is found a second time.

## Main definitions

* `Corpus.StandsFor` : the role that a generic role stands for under a contract type.
* `Corpus.Related` : the ways in which a norm is related to a norm of a corpus.
* `Corpus.Cites` : a norm of a corpus that is to be cited, with its citation.

## Main results

* `Corpus.mapRole_eq_iff` : explicit mappings come first, then the inferred table, then the role.
* `Corpus.mapRoleWith_infer?` : the table that is handed down gives the same roles.
* `Corpus.annotations?_lists_cited` : the annotations of a norm.
-/

namespace Normative.Corpus

open Text (occursIn sameFold)

variable {corpus : Corpus} {contractType role mapped : String} {norm : Normative.Norm}

/-! ### Roles -/

/-- A table, if there is one, has a role first among those that a generic role stands for. -/
def Prefers (table? : Option RoleTable) (role mapped : String) : Prop :=
  ∃ table target others, table? = some table ∧ table.get? role = some target ∧
    target.values = mapped :: others

/-- The role that a generic role stands for under a contract type: the one that the explicit mapping
prefers, or else the one that the inferred table prefers, or else the role itself. -/
inductive StandsFor (corpus : Corpus) (contractType role : String) : String → Prop
  | explicit {mapped : String} (h : Prefers (corpus.roleMappings.get? contractType) role mapped) :
      StandsFor corpus contractType role mapped
  | inferred {mapped : String}
      (hexplicit : ∀ other, ¬ Prefers (corpus.roleMappings.get? contractType) role other)
      (h : Prefers (corpus.infer? contractType) role mapped) :
      StandsFor corpus contractType role mapped
  | itself
      (hexplicit : ∀ other, ¬ Prefers (corpus.roleMappings.get? contractType) role other)
      (hinferred : ∀ other, ¬ Prefers (corpus.infer? contractType) role other) :
      StandsFor corpus contractType role role

theorem prefers_iff {table? : Option RoleTable} :
    Prefers table? role mapped ↔ table?.bind (·.resolve? role) = some mapped := by
  simp only [Prefers, RoleTable.resolve?, RoleTarget.first?, Option.bind_eq_some_iff,
    List.head?_eq_some_iff, exists_and_left]

theorem not_prefers_iff {table? : Option RoleTable} :
    (∀ other, ¬ Prefers table? role other) ↔ table?.bind (·.resolve? role) = none := by
  simp only [prefers_iff, Option.eq_none_iff_forall_ne_some, ne_eq]

theorem explicitRole?_eq (corpus : Corpus) (contractType role : String) :
    corpus.explicitRole? contractType role =
      (corpus.roleMappings.get? contractType).bind (RoleTable.resolve? · role) :=
  Option.bind_assoc _ _ _

theorem mapRole_of_explicit (h : corpus.explicitRole? contractType role = some mapped) :
    corpus.mapRole contractType role = mapped := by
  rw [mapRole, mapRoleWith, h]

theorem mapRole_of_not_explicit (h : corpus.explicitRole? contractType role = none) :
    corpus.mapRole contractType role =
      ((corpus.infer? contractType).bind (·.resolve? role)).getD role := by
  rw [mapRole, mapRoleWith, h, Option.none_or]

theorem mapRole_eq_of_standsFor (h : StandsFor corpus contractType role mapped) :
    corpus.mapRole contractType role = mapped := by
  cases h with
  | explicit h => exact mapRole_of_explicit ((explicitRole?_eq _ _ _).trans (prefers_iff.mp h))
  | inferred hexplicit h =>
    have hnone := (explicitRole?_eq _ _ _).trans (not_prefers_iff.mp hexplicit)
    rw [mapRole_of_not_explicit hnone, prefers_iff.mp h, Option.getD_some]
  | itself hexplicit hinferred =>
    have hnone := (explicitRole?_eq _ _ _).trans (not_prefers_iff.mp hexplicit)
    rw [mapRole_of_not_explicit hnone, not_prefers_iff.mp hinferred, Option.getD_none]

theorem standsFor_mapRole (corpus : Corpus) (contractType role : String) :
    StandsFor corpus contractType role (corpus.mapRole contractType role) := by
  cases hexplicit : corpus.explicitRole? contractType role with
  | some mapped =>
    rw [mapRole_of_explicit hexplicit]
    exact .explicit (prefers_iff.mpr ((explicitRole?_eq _ _ _).symm.trans hexplicit))
  | none =>
    have hnone := not_prefers_iff.mpr ((explicitRole?_eq _ _ _).symm.trans hexplicit)
    rw [mapRole_of_not_explicit hexplicit]
    cases hinferred : (corpus.infer? contractType).bind (·.resolve? role) with
    | some mapped => exact .inferred hnone (prefers_iff.mpr hinferred)
    | none => exact .itself hnone (not_prefers_iff.mpr hinferred)

theorem mapRole_eq_iff :
    corpus.mapRole contractType role = mapped ↔ StandsFor corpus contractType role mapped :=
  ⟨fun h ↦ h ▸ standsFor_mapRole corpus contractType role, mapRole_eq_of_standsFor⟩

/-- The table that was inferred before gives the same roles as one that is inferred afresh. -/
theorem mapRoleWith_infer? (corpus : Corpus) (contractType : String) :
    corpus.mapRoleWith (corpus.infer? contractType) contractType =
      corpus.mapRole contractType := by
  funext role
  rw [mapRole, mapRoleWith, mapRoleWith, Option.or_self, Option.none_or]

/-! ### Related norms -/

/-- The ways in which a norm is related to a norm of a corpus with an action: both actions mention a
verb, scope and object mention a noun, or the bound party is or stands for the role of the norm. -/
inductive Related (corpus : Corpus) (contractType : String) (norm : Normative.Norm)
    (s : Structure) (action : String) : Prop
  | verb {word : String} (hword : word ∈ keyVerbs) (hnorm : occursIn word norm.action = true)
      (haction : occursIn word action = true)
  | noun {word scope object : String} (hword : word ∈ keyNouns) (hscope : norm.scope = some scope)
      (hobject : s.object = some object) (hnorm : occursIn word scope = true)
      (hstructure : occursIn word object = true)
  | party {passive : String} (hpassive : s.passive = some passive)
      (hrole : sameFold passive norm.role = true)
  | mappedParty {passive : String} (hpassive : s.passive = some passive)
      (hrole : sameFold (corpus.mapRole contractType passive) norm.role = true)

theorem shareWord_iff {words : List String} {a b : String} :
    shareWord words a b = true ↔ ∃ w ∈ words, occursIn w a = true ∧ occursIn w b = true := by
  simp only [shareWord, List.any_eq_true, Bool.and_eq_true]

theorem sharesObject_iff {s : Structure} :
    sharesObject norm s = true ↔ ∃ scope object, norm.scope = some scope ∧
      s.object = some object ∧ shareWord keyNouns scope object = true := by
  rw [sharesObject]
  split <;> simp_all

theorem bindsRole_iff {mapRole : String → String} {s : Structure} :
    bindsRole mapRole norm s = true ↔ ∃ passive, s.passive = some passive ∧
      (sameFold passive norm.role = true ∨ sameFold (mapRole passive) norm.role = true) := by
  simp only [bindsRole, Option.any_eq_true, Bool.or_eq_true]

theorem related_iff {s : Structure} {action : String} :
    (shareWord keyVerbs norm.action action || sharesObject norm s ||
      bindsRole (corpus.mapRole contractType) norm s) = true ↔
      Related corpus contractType norm s action := by
  rw [Bool.or_eq_true, Bool.or_eq_true, shareWord_iff, sharesObject_iff, bindsRole_iff]
  constructor
  · rintro ((⟨word, hword, hnorm, haction⟩ | ⟨scope, object, hscope, hobject, hshare⟩) |
      ⟨passive, hpassive, hrole | hrole⟩)
    · exact .verb hword hnorm haction
    · obtain ⟨word, hword, hnorm, hstructure⟩ := shareWord_iff.mp hshare
      exact .noun hword hscope hobject hnorm hstructure
    · exact .party hpassive hrole
    · exact .mappedParty hpassive hrole
  · intro h
    cases h with
    | verb hword hnorm haction => exact .inl (.inl ⟨_, hword, hnorm, haction⟩)
    | noun hword hscope hobject hnorm hstructure =>
      exact .inl (.inr ⟨_, _, hscope, hobject, shareWord_iff.mpr ⟨_, hword, hnorm, hstructure⟩⟩)
    | party hpassive hrole => exact .inr ⟨_, hpassive, .inl hrole⟩
    | mappedParty hpassive hrole => exact .inr ⟨_, hpassive, .inr hrole⟩

/-- A norm of a corpus that is to be cited, with its citation: its source has a name and a kind, it
has an identifier and an action, and the norm is related to it. -/
structure Cites (corpus : Corpus) (contractType : String) (norm : Normative.Norm) (e : Entry)
    (c : Citation) : Prop where
  source : e.source.name = some c.source
  kind : ∃ kind, e.source.kind = some kind
  id : e.norm.id = some c.id
  related : ∃ s, e.norm.structure? = some s ∧ s.action = some c.action ∧
    Related corpus contractType norm s c.action

theorem citation?_eq_some_iff {e : Entry} {c : Citation} :
    citation? (corpus.mapRole contractType) norm e = some c ↔
      Cites corpus contractType norm e c := by
  simp only [citation?, Option.bind_eq_bind, Option.bind_eq_some_iff]
  constructor
  · rintro ⟨source, hsource, kind, hkind, id, hid, s, hs, action, haction, h⟩
    split at h
    · rename_i hrelated
      obtain rfl := Option.some.inj h
      exact ⟨hsource, ⟨kind, hkind⟩, hid, s, hs, haction, related_iff.mp hrelated⟩
    · exact absurd h (by simp)
  · rintro ⟨hsource, ⟨kind, hkind⟩, hid, s, hs, haction, hrelated⟩
    exact ⟨_, hsource, kind, hkind, _, hid, s, hs, _, haction, if_pos (related_iff.mpr hrelated)⟩

/-- A norm of a corpus that is to be cited. -/
def IsCited (corpus : Corpus) (contractType : String) (norm : Normative.Norm) (e : Entry) : Prop :=
  ∃ c, Cites corpus contractType norm e c

theorem isSome_citation?_iff {e : Entry} :
    (citation? (corpus.mapRole contractType) norm e).isSome = true ↔
      IsCited corpus contractType norm e := by
  simp only [Option.isSome_iff_exists, citation?_eq_some_iff, IsCited]

instance (corpus : Corpus) (contractType : String) (norm : Normative.Norm) (e : Entry) :
    Decidable (IsCited corpus contractType norm e) :=
  decidable_of_iff _ isSome_citation?_iff

/-! ### Lines -/

/-- What `filterMap` keeps, and from which elements. -/
theorem forall₂_filterMap {α β : Type} (f : α → Option β) (list : List α) :
    List.Forall₂ (fun a b ↦ f a = some b) (list.filter fun a ↦ (f a).isSome)
      (list.filterMap f) := by
  induction list with
  | nil => exact .nil
  | cons a list ih =>
    cases h : f a with
    | none => simpa [h] using ih
    | some b => simpa [h] using ih

theorem line_eq : Citation.line = fun c ↦
    "// Related to " ++ c.source ++ ": " ++ c.id ++ " - " ++ c.action ++ "\n" := by
  have hlead (a b x y z u v w : String) :
      a ++ (b ++ x ++ y ++ z ++ u ++ v) ++ w = a ++ b ++ x ++ y ++ z ++ u ++ v ++ w := by
    simp only [String.append_assoc]
  exact funext fun c ↦ hlead "// " "Related to " c.source ": " c.id " - " c.action "\n"

theorem citations_eq (corpus : Corpus) (norm : Normative.Norm) (contractType : String) :
    corpus.citations norm contractType =
      corpus.entries.filterMap (citation? (corpus.mapRole contractType) norm) := by
  rw [citations, mapRoleWith_infer?]

theorem forall₂_cites_citations (corpus : Corpus) (norm : Normative.Norm) (contractType : String) :
    List.Forall₂ (Cites corpus contractType norm)
      (corpus.entries.filter fun e ↦ IsCited corpus contractType norm e)
      (corpus.citations norm contractType) := by
  have hkept : (corpus.entries.filter fun e ↦ IsCited corpus contractType norm e) =
      corpus.entries.filter fun e ↦ (citation? (corpus.mapRole contractType) norm e).isSome := by
    refine List.filter_congr fun e _ ↦ ?_
    rw [Bool.eq_iff_iff, decide_eq_true_iff, isSome_citation?_iff]
  rw [hkept, citations_eq]
  exact (forall₂_filterMap (citation? (corpus.mapRole contractType) norm) corpus.entries).imp
    fun _ _ ↦ citation?_eq_some_iff.mp

theorem annotations?_eq_ite (corpus : Corpus) (norm : Normative.Norm) (contractType : String) :
    corpus.annotations? norm contractType =
      if corpus.citations norm contractType = [] then none
      else some (String.join ((corpus.citations norm contractType).map Citation.line)) := by
  have hempty : (String.join ((corpus.citations norm contractType).map Citation.line)).isEmpty =
      true ↔ corpus.citations norm contractType = [] := by
    rw [String.isEmpty_iff]
    cases corpus.citations norm contractType with
    | nil => simp
    | cons c citations => simp [Citation.line]
  rw [annotations?]
  exact if_congr hempty rfl rfl

theorem annotations?_eq_none_iff :
    corpus.annotations? norm contractType = none ↔
      ∀ e ∈ corpus.entries, ¬ IsCited corpus contractType norm e := by
  have hnone : corpus.annotations? norm contractType = none ↔
      corpus.citations norm contractType = [] := by
    rw [annotations?_eq_ite]
    split <;> simp_all
  have hlength := (corpus.forall₂_cites_citations norm contractType).length_eq
  rw [hnone, ← List.length_eq_zero_iff, ← hlength, List.length_eq_zero_iff,
    List.filter_eq_nil_iff]
  simp only [decide_eq_true_iff]

/-- The annotations of a norm are lines, one for every norm of the corpus that is to be cited, in
the order of the document, and there are no annotations if no norm is to be cited. A party stands
for the role that a fresh look-up gives: the one that an explicit mapping prefers, or else the one
that the inferred table prefers, or else itself. -/
theorem annotations?_lists_cited (corpus : Corpus) (norm : Normative.Norm)
    (contractType : String) :
    (∀ role mapped, corpus.mapRole contractType role = mapped ↔
      StandsFor corpus contractType role mapped) ∧
    (corpus.annotations? norm contractType = none ↔
      ∀ e ∈ corpus.entries, ¬ IsCited corpus contractType norm e) ∧
    ∃ citations, List.Forall₂ (Cites corpus contractType norm)
        (corpus.entries.filter fun e ↦ IsCited corpus contractType norm e) citations ∧
      corpus.annotations? norm contractType =
        if citations = [] then none
        else some (String.join (citations.map fun c ↦
          "// Related to " ++ c.source ++ ": " ++ c.id ++ " - " ++ c.action ++ "\n")) := by
  refine ⟨fun role mapped ↦ mapRole_eq_iff, annotations?_eq_none_iff, _,
    corpus.forall₂_cites_citations norm contractType, ?_⟩
  rw [annotations?_eq_ite, line_eq]

/-- A corpus that maps the supplier to no role explicitly, and that makes the supplier stand for the
seller by what the first norm mentions. -/
def supply : Corpus where
  sources := ⟨[("codigo", ⟨some "Codigo", some "ley", ⟨[
    ("a", ⟨some "art. 1", some ⟨some "dar al vendedor", some "socio", none, none, none, []⟩,
      ["Venta"], none⟩),
    ("b", ⟨some "art. 2", some ⟨some "avisar", some "proveedor", none, none, none, []⟩,
      [], none⟩)]⟩⟩)]⟩
  roleMappings := ⟨[("venta", ⟨[("proveedor", .many [])]⟩)]⟩
  roles := .empty

example : supply.annotations? ⟨1, "Vendedor", .obligation, "ceder", none, [], .authored⟩ "venta" =
    some "// Related to Codigo: art. 2 - avisar\n" := by decide +kernel

end Normative.Corpus
