import Normative.Proofs.Configuration.Suggestion
import Normative.Proofs.Schema.Roles

/-!
# Coverage of the roles by a review

A review goes through the roles of a schema, one for every subject, and compares their folds with
the list of the institution. The subject of a role is its upper case, and roles with different folds
may have the same subject, as `groß` and `gross`. Then only the role that is mentioned first is
reviewed, and the other one is hidden by it.

A role that is used is covered if some spelling of it, letter case apart, is the first mention of
its subject. There is no more than one issue for a role, and a role that is not on the list has one
exactly if it is covered.

## Main definitions

* `Configuration.issueCount` : the number of issues for a role.
* `Schema.Covers` : the roles that a review meets in some spelling.

## Main results

* `Configuration.issueCount_eq` : the number of issues for a role, from the roles that are met.
* `Configuration.issueCount_iff_covers` : when a role that is not on the list has its issue.
-/

namespace Normative

open Text (memFold sameFold fold)

/-! ### The number of issues for a role -/

theorem addDistinct_eq_addFirst : addDistinct = addFirst fold := by
  funext roles role
  rw [addDistinct, addFirst]
  refine if_congr ?_ rfl rfl
  simp [sameFold]

namespace Configuration

variable {configuration : Configuration} {schema : Schema} {institution : Institution}
  {list : List String} {role value : String} {kind : IssueKind}

/-- Whether an issue is one for a role, letter case apart. -/
def concerns (role : String) (issue : Issue) : Bool :=
  issue.kind == .role && sameFold issue.value role

/-- The number of issues that a review has for a role, letter case apart. -/
def issueCount (configuration : Configuration) (schema : Schema) (role : String) : Nat :=
  (configuration.review schema).countP (concerns role)

theorem countP_issue?_of_ne (hkind : kind ≠ .role) :
    (issue? kind value list).toList.countP (concerns role) = 0 := by
  rw [List.countP_eq_zero, issue?]
  split
  · simp
  · simp [concerns, hkind]

/-- The roles with the fold of a role that is not on the list have issues, and those of a role on
the list have none. -/
theorem getD_concerns_issue? (role value : String) (list : List String) :
    ((issue? .role value list).map (concerns role)).getD false =
      (!memFold role list && sameFold value role) := by
  cases hsame : sameFold value role with
  | true =>
    rw [issue?, Text.memFold_congr (Text.sameFold_iff.mp hsame)]
    split
    · rename_i hmem
      rw [hmem]
      rfl
    · rename_i hmem
      rw [Bool.not_eq_true] at hmem
      simp [concerns, hsame, hmem]
  | false =>
    rw [issue?]
    split
    · simp
    · simp [concerns, hsame]

theorem issueCount_eq (hinstitution : schema.institution = some institution)
    (hlist : configuration.rolesFor? institution.name = some list) :
    configuration.issueCount schema role =
      if memFold role list = true then 0
      else ((firsts fold schema.roles).map fold).count (fold role) := by
  have hroles : (configuration.reviewRoles institution.name schema.roles).countP (concerns role) =
      (firsts fold schema.roles).countP fun value ↦ !memFold role list && sameFold value role := by
    simp only [reviewRoles, hlist, addDistinct_eq_addFirst, List.countP_filterMap,
      getD_concerns_issue?]
    rfl
  have hdomain (domain : String) :
      (if domain.isEmpty then []
        else (issue? .legalDomain domain configuration.domains).toList).countP (concerns role) =
          0 := by
    split
    · rfl
    · exact countP_issue?_of_ne (by decide)
  rw [issueCount, review, hinstitution]
  dsimp only
  rw [List.countP_append, List.countP_append, List.countP_append, countP_issue?_of_ne (by decide),
    countP_issue?_of_ne (by decide), hdomain, hroles, Nat.zero_add]
  split
  · rename_i hmem
    simp [hmem]
  · rename_i hmem
    rw [Bool.not_eq_true] at hmem
    rw [List.count_eq_countP, List.countP_map]
    simp only [hmem, Bool.not_false, Bool.true_and]
    rfl

end Configuration

/-! ### Roles that are met -/

namespace Schema

variable {schema : Schema} {role : String}

/-- A role is covered if some spelling of it, letter case apart, is the first mention of its
subject. -/
def Covers (schema : Schema) (role : String) : Prop :=
  ∃ spelling, sameFold spelling role = true ∧
    schema.mentionedRoles.find? (fun other ↦
      other ≠ "" ∧ Identifier.subject other = Identifier.subject spelling) = some spelling

theorem fold_mem_map_roles_iff : fold role ∈ schema.roles.map fold ↔ schema.Covers role := by
  rw [List.mem_map, Covers]
  refine exists_congr fun spelling ↦ ?_
  rw [mem_roles_iff, and_comm, Text.sameFold_iff]

/-- A role is covered if the roles with its subject have its fold. -/
theorem covers_of_sameFold (hrole : schema.UsesRole role) (hne : role ≠ "")
    (h : ∀ other, schema.UsesRole other → other ≠ "" →
      Identifier.subject other = Identifier.subject role → sameFold other role = true) :
    schema.Covers role := by
  have hsome : (schema.mentionedRoles.find? (fun other ↦
      other ≠ "" ∧ Identifier.subject other = Identifier.subject role)).isSome = true := by
    rw [List.find?_isSome]
    exact ⟨role, mem_mentionedRoles_iff.mpr hrole, decide_eq_true ⟨hne, rfl⟩⟩
  obtain ⟨first, hfirst⟩ := Option.isSome_iff_exists.mp hsome
  have hboth := List.find?_some hfirst
  obtain ⟨hfirstNe, hsubject⟩ := of_decide_eq_true hboth
  have hused := mem_mentionedRoles_iff.mp (List.mem_of_find?_eq_some hfirst)
  refine ⟨first, h first hused hfirstNe hsubject, ?_⟩
  rw [hsubject]
  exact hfirst

end Schema

namespace Configuration

variable {configuration : Configuration} {schema : Schema} {institution : Institution}
  {list : List String}

/-- A review has no issue for a role on the list of the institution and at most one for any other
role. It has this one exactly if the role is covered, and so all roles that are not on the list have
their issues if no two roles with different folds have the same subject. -/
theorem issueCount_iff_covers (hinstitution : schema.institution = some institution)
    (hlist : (Reviewer.mk configuration (some institution.name)).Lists list .role) :
    (∀ role, schema.UsesRole role → role ≠ "" →
      (memFold role list = true → configuration.issueCount schema role = 0) ∧
        (memFold role list = false → configuration.issueCount schema role ≤ 1 ∧
          (configuration.issueCount schema role = 1 ↔ schema.Covers role))) ∧
      ((∀ role other, schema.UsesRole role → schema.UsesRole other → role ≠ "" → other ≠ "" →
        Identifier.subject other = Identifier.subject role → sameFold other role = true) →
          ∀ role, schema.UsesRole role → role ≠ "" → memFold role list = false →
            configuration.issueCount schema role = 1) := by
  have hrolesFor : configuration.rolesFor? institution.name = some list :=
    Reviewer.list?_eq_some_iff.mpr hlist
  have hcount (role : String) (hmem : memFold role list = false) :
      configuration.issueCount schema role ≤ 1 ∧
        (configuration.issueCount schema role = 1 ↔ schema.Covers role) := by
    have hnodup := nodup_map_firsts fold schema.roles
    have hmet : fold role ∈ (firsts fold schema.roles).map fold ↔ schema.Covers role :=
      mem_map_firsts.trans Schema.fold_mem_map_roles_iff
    rw [issueCount_eq hinstitution hrolesFor, if_neg (Bool.eq_false_iff.mp hmem), ← hmet]
    refine ⟨List.nodup_iff_count_le_one.mp hnodup _, fun hone ↦ ?_, List.count_eq_one_of_mem hnodup⟩
    exact List.count_pos_iff.mp (hone ▸ Nat.one_pos)
  refine ⟨fun role hrole hne ↦ ⟨fun hmem ↦ ?_, hcount role⟩, fun h role hrole hne hmem ↦ ?_⟩
  · rw [issueCount_eq hinstitution hrolesFor, if_pos hmem]
  · refine (hcount role hmem).2.mpr (Schema.covers_of_sameFold hrole hne ?_)
    exact fun other hother hotherNe ↦ h role other hrole hother hne hotherNe

/-- Two agendas on a sale. -/
def largeSale : Schema where
  institution := some ⟨"Venta", "contrato", .single, ""⟩
  norms := []
  violations := []
  facts := []
  agendas :=
    [⟨"Groß", .fulfilled, "Venta", "vendedor", .essential⟩,
      ⟨"gross", .breached, "Venta", "groß", .essential⟩]

/-- A configuration that lists roles for sales only. -/
def ofSaleRoles (list : List String) : Configuration :=
  { Configuration.empty with roles := ⟨[("venta", list)]⟩ }

theorem lists_ofSaleRoles (list : List String) :
    (Reviewer.mk (ofSaleRoles list) (some "Venta")).Lists list .role :=
  ⟨"Venta", rfl, "venta", [], [], rfl, by decide +kernel, by simp⟩

/-- A role on the list, a role that is covered by another spelling, and a role that is hidden by
it. -/
theorem issueCount_iff_covers_largeSale :
    (Reviewer.mk (ofSaleRoles ["vendedor"]) (some "Venta")).Lists ["vendedor"] .role ∧
      largeSale.UsesRole "vendedor" ∧ largeSale.UsesRole "groß" ∧ largeSale.UsesRole "gross" ∧
      (ofSaleRoles ["vendedor"]).issueCount largeSale "vendedor" = 0 ∧
      (ofSaleRoles ["vendedor"]).issueCount largeSale "groß" = 1 ∧ largeSale.Covers "groß" ∧
      (ofSaleRoles ["vendedor"]).issueCount largeSale "gross" = 0 ∧ ¬ largeSale.Covers "gross" := by
  have hlist := lists_ofSaleRoles ["vendedor"]
  have hroles := (@issueCount_iff_covers (ofSaleRoles ["vendedor"]) largeSale _ _ rfl hlist).1
  have hseller : largeSale.UsesRole "vendedor" := by simp [Schema.UsesRole, largeSale]
  have hcovered : largeSale.UsesRole "groß" := by simp [Schema.UsesRole, largeSale]
  have hhidden : largeSale.UsesRole "gross" := by simp [Schema.UsesRole, largeSale]
  have hone : (ofSaleRoles ["vendedor"]).issueCount largeSale "groß" = 1 := by decide +kernel
  have hzero : (ofSaleRoles ["vendedor"]).issueCount largeSale "gross" = 0 := by decide +kernel
  have hcovers := ((hroles "groß" hcovered (by decide)).2 (by decide +kernel)).2.mp hone
  have hhides := ((hroles "gross" hhidden (by decide)).2 (by decide +kernel)).2.not.mp (by omega)
  exact ⟨hlist, hseller, hcovered, hhidden,
    (hroles "vendedor" hseller (by decide)).1 (by decide +kernel), hone, hcovers, hzero, hhides⟩

/-- A role that is not on the list is used, and there is no issue for it, since it has the subject
of a role on the list that is mentioned before it. -/
theorem largeSale_hides_role :
    largeSale.UsesRole "gross" ∧ memFold "gross" ["groß"] = false ∧
      (ofSaleRoles ["groß"]).issueCount largeSale "gross" = 0 ∧
      (ofSaleRoles ["groß"]).issueCount largeSale "vendedor" = 1 := by
  have hused : largeSale.UsesRole "gross" := by simp [Schema.UsesRole, largeSale]
  exact ⟨hused, by decide +kernel⟩

end Configuration

end Normative
