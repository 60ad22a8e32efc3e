import Mathlib.Data.List.Induction
import Mathlib.Data.List.Nodup
import Normative.Schema

/-!
# The roles of a schema

The roles of a schema are the first mentions of their subjects. They are found by a walk through the
mentioned roles that adds a role to a list unless one with the same subject is there. Such walks are
treated for any key in place of the subject: the elements of the list have different keys, which are
the keys of all that was met, and each is the first one with its key.

## Main definitions

* `addFirst`, `firsts` : a list of elements with different keys, and the walk that makes it.
* `Schema.UsesRole` : the roles of norms, of violations and of the two parties of agendas.

## Main results

* `mem_firsts_iff` : the elements of the list are the first ones with their keys.
* `Schema.mem_roles_iff` : the roles of a schema.
-/

namespace Normative

/-! ### The first elements with their keys -/

section Firsts

variable {α β : Type} [DecidableEq β] {key : α → β} {kept list : List α} {x y : α} {k : β}

/-- A list with one more element, unless one with the same key is there. -/
def addFirst (key : α → β) (kept : List α) (x : α) : List α :=
  if kept.any (fun e ↦ key e == key x) then kept else kept ++ [x]

/-- The first elements of a list with their keys. -/
def firsts (key : α → β) (list : List α) : List α := list.foldl (addFirst key) []

theorem addFirst_eq_ite (key : α → β) (kept : List α) (x : α) :
    addFirst key kept x = if key x ∈ kept.map key then kept else kept ++ [x] := by
  rw [addFirst]
  refine if_congr ?_ rfl rfl
  simp

theorem firsts_concat (key : α → β) (list : List α) (x : α) :
    firsts key (list ++ [x]) = addFirst key (firsts key list) x := by
  rw [firsts, List.foldl_append, List.foldl_cons, List.foldl_nil]
  rfl

theorem mem_map_addFirst :
    k ∈ (addFirst key kept x).map key ↔ k ∈ kept.map key ∨ k = key x := by
  rw [addFirst_eq_ite]
  split
  · rename_i hx
    rw [or_iff_left_of_imp]
    rintro rfl
    exact hx
  · rw [List.map_append, List.mem_append, List.map_singleton, List.mem_singleton]

theorem nodup_map_addFirst (h : (kept.map key).Nodup) (x : α) :
    ((addFirst key kept x).map key).Nodup := by
  rw [addFirst_eq_ite]
  split
  · exact h
  · rename_i hx
    rw [List.map_append]
    exact h.append (List.nodup_singleton _) (List.disjoint_singleton.mpr hx)

theorem mem_addFirst : x ∈ addFirst key kept y ↔ x ∈ kept ∨ key y ∉ kept.map key ∧ x = y := by
  rw [addFirst_eq_ite]
  split
  · rename_i hy
    rw [or_iff_left fun h ↦ h.1 hy]
  · rename_i hy
    rw [List.mem_append, List.mem_singleton, and_iff_right hy]

/-- The walk meets no other keys than it lists. -/
theorem mem_map_firsts : k ∈ (firsts key list).map key ↔ k ∈ list.map key := by
  induction list using List.reverseRecOn with
  | nil => rfl
  | append_singleton list x ih =>
    rw [firsts_concat, mem_map_addFirst, ih, List.map_append, List.mem_append, List.map_singleton,
      List.mem_singleton]

theorem nodup_map_firsts (key : α → β) (list : List α) : ((firsts key list).map key).Nodup := by
  induction list using List.reverseRecOn with
  | nil => exact List.nodup_nil
  | append_singleton list x ih =>
    rw [firsts_concat]
    exact nodup_map_addFirst ih x

theorem mem_firsts_iff : x ∈ firsts key list ↔ list.find? (fun e ↦ key e = key x) = some x := by
  induction list using List.reverseRecOn with
  | nil => simp [firsts]
  | append_singleton list y ih =>
    rw [firsts_concat, mem_addFirst, ih, mem_map_firsts, List.find?_append]
    cases hfind : list.find? (fun e ↦ key e = key x) with
    | some found =>
      -- An earlier element has the key, so the last one is not listed for it.
      have hkey : key x ∈ list.map key := by
        have hfound := List.find?_some hfind
        exact List.mem_map.mpr ⟨found, List.mem_of_find?_eq_some hfind, by simpa using hfound⟩
      rw [Option.some_or, or_iff_left_of_imp]
      rintro ⟨hy, rfl⟩
      exact absurd hkey hy
    | none =>
      have hkey : key x ∉ list.map key := by
        rw [List.mem_map]
        rintro ⟨e, he, hex⟩
        exact List.find?_eq_none.mp hfind e he (decide_eq_true hex)
      rw [Option.none_or, List.find?_singleton]
      constructor
      · rintro (h | ⟨-, rfl⟩)
        · exact absurd h (by simp)
        · simp
      · intro h
        split at h
        · obtain rfl := Option.some.inj h
          exact .inr ⟨hkey, rfl⟩
        · exact absurd h (by simp)

end Firsts

/-! ### Roles -/

namespace Schema

variable {schema : Schema} {role : String}

/-- A role is that of a norm or of a violation, or it is one of the two roles of an agenda. -/
def UsesRole (schema : Schema) (role : String) : Prop :=
  (∃ n ∈ schema.norms, n.role = role) ∨ (∃ v ∈ schema.violations, v.role = role) ∨
    ∃ a ∈ schema.agendas, a.requestingRole = role ∨ a.beneficiaryRole = role

theorem mem_mentionedRoles_iff : role ∈ schema.mentionedRoles ↔ schema.UsesRole role := by
  simp only [mentionedRoles, UsesRole, List.mem_append, List.mem_map, List.mem_flatMap,
    List.mem_cons, List.not_mem_nil, or_false, or_assoc, eq_comm]

theorem roles_eq_firsts (schema : Schema) :
    schema.roles = firsts Identifier.subject (schema.mentionedRoles.filter (· ≠ "")) := by
  rw [roles, firsts, List.foldl_filter]
  refine congrArg (List.foldl · [] schema.mentionedRoles) (funext₂ fun roles role ↦ ?_)
  by_cases hrole : role = ""
  · simp [addRole, hrole]
  · simp [addRole, addFirst, hrole]

theorem nodup_subject_roles (schema : Schema) : (schema.roles.map Identifier.subject).Nodup := by
  rw [roles_eq_firsts]
  exact nodup_map_firsts _ _

/-- The roles of a schema are the first mentions of their subjects. -/
theorem mem_roles_iff :
    role ∈ schema.roles ↔
      schema.mentionedRoles.find? (fun other ↦
        other ≠ "" ∧ Identifier.subject other = Identifier.subject role) = some role := by
  rw [roles_eq_firsts, mem_firsts_iff, List.find?_filter]
  simp

theorem mem_mentionedRoles_of_mem_roles (h : role ∈ schema.roles) : role ∈ schema.mentionedRoles :=
  List.mem_of_find?_eq_some (mem_roles_iff.mp h)

end Schema

end Normative
