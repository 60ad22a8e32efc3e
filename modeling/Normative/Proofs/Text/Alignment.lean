import Mathlib.Order.Bounds.Defs

/-!
# Edits and alignments

Two lists are compared by the least number of insertions, deletions and substitutions that lead from
one to the other, one after the other and at any places. Such a sequence of edits may touch one
place several times. An alignment goes through both lists once, from left to right, and pairs off
their members. Every alignment can be carried out by as many edits, and since alignments can be
composed, every sequence of edits is matched by an alignment that does not cost more. The recursion
on the first members gives the least cost of an alignment.

## Main definitions

* `Text.Edit`, `Text.Edits` : one edit, and a number of edits one after the other.
* `Text.Aligned` : an alignment of two lists, with its cost.
* `Text.levenshtein` : the distance of two lists by recursion on their first members.

## Main results

* `Text.Aligned.trans` : alignments can be composed.
* `Text.isLeast_edits` : the recursion gives the least number of edits.
* `Text.levenshtein_concat` : the same recursion on the last members.
* `Text.levenshtein_comm`, `Text.levenshtein_eq_zero_iff`, `Text.levenshtein_triangle` : the laws of
  a metric.
-/

namespace Normative.Text

variable {α : Type} {a b c : List α} {m n : Nat}

/-- One insertion, deletion or substitution. -/
inductive Edit : List α → List α → Prop
  | insertion (before after : List α) (x : α) : Edit (before ++ after) (before ++ x :: after)
  | deletion (before after : List α) (x : α) : Edit (before ++ x :: after) (before ++ after)
  | substitution (before after : List α) (x y : α) :
      Edit (before ++ x :: after) (before ++ y :: after)

/-- A number of edits, one after the other. -/
inductive Edits : Nat → List α → List α → Prop
  | none (a : List α) : Edits 0 a a
  | more {a b c : List α} {n : Nat} (first : Edit a b) (others : Edits n b c) : Edits (n + 1) a c

/-- An alignment of two lists: their members are kept, replaced, inserted or left out, from left to
right. Only those that are kept cost nothing. -/
inductive Aligned : Nat → List α → List α → Prop
  | nil : Aligned 0 [] []
  | keep {n : Nat} {a b : List α} (x : α) (h : Aligned n a b) : Aligned n (x :: a) (x :: b)
  | replace {n : Nat} {a b : List α} (x y : α) (h : Aligned n a b) :
      Aligned (n + 1) (x :: a) (y :: b)
  | insert {n : Nat} {a b : List α} (y : α) (h : Aligned n a b) : Aligned (n + 1) a (y :: b)
  | drop {n : Nat} {a b : List α} (x : α) (h : Aligned n a b) : Aligned (n + 1) (x :: a) b

/-! ### Alignments -/

namespace Aligned

theorem refl (a : List α) : Aligned 0 a a := by
  induction a with
  | nil => exact nil
  | cons x a ih => exact ih.keep x

theorem symm (h : Aligned n a b) : Aligned n b a := by
  induction h with
  | nil => exact nil
  | keep x _ ih => exact ih.keep x
  | replace x y _ ih => exact ih.replace y x
  | insert y _ ih => exact ih.drop y
  | drop x _ ih => exact ih.insert x

theorem append {a' b' : List α} (h : Aligned m a b) (h' : Aligned n a' b') :
    Aligned (m + n) (a ++ a') (b ++ b') := by
  induction h with
  | nil =>
    rw [Nat.zero_add]
    exact h'
  | keep x _ ih => exact ih.keep x
  | replace x y _ ih =>
    rw [Nat.add_right_comm]
    exact ih.replace x y
  | insert y _ ih =>
    rw [Nat.add_right_comm]
    exact ih.insert y
  | drop x _ ih =>
    rw [Nat.add_right_comm]
    exact ih.drop x

theorem reverse (h : Aligned n a b) : Aligned n a.reverse b.reverse := by
  induction h with
  | nil => exact nil
  | keep x _ ih => simpa using ih.append (refl [x])
  | replace x y _ ih => simpa using ih.append (nil.replace x y)
  | insert y _ ih => simpa using ih.append (nil.insert y)
  | drop x _ ih => simpa using ih.append (nil.drop x)

theorem eq_of_cost_zero (h : Aligned n a b) (hn : n = 0) : a = b := by
  induction h with
  | nil => rfl
  | keep x _ ih => rw [ih hn]
  | replace | insert | drop => exact absurd hn (Nat.succ_ne_zero _)

end Aligned

/-- Two lists that can be aligned at a cost of at most `n`. -/
def Within (n : Nat) (a b : List α) : Prop := ∃ k ≤ n, Aligned k a b

namespace Within

theorem mono (h : Within m a b) (hle : m ≤ n) : Within n a b := by
  obtain ⟨k, hk, h⟩ := h
  exact ⟨k, Nat.le_trans hk hle, h⟩

theorem keep (x : α) (h : Within n a b) : Within n (x :: a) (x :: b) := by
  obtain ⟨k, hk, h⟩ := h
  exact ⟨k, hk, h.keep x⟩

theorem replace (x y : α) (h : Within n a b) : Within (n + 1) (x :: a) (y :: b) := by
  obtain ⟨k, hk, h⟩ := h
  exact ⟨k + 1, Nat.succ_le_succ hk, h.replace x y⟩

theorem insert (y : α) (h : Within n a b) : Within (n + 1) a (y :: b) := by
  obtain ⟨k, hk, h⟩ := h
  exact ⟨k + 1, Nat.succ_le_succ hk, h.insert y⟩

theorem drop (x : α) (h : Within n a b) : Within (n + 1) (x :: a) b := by
  obtain ⟨k, hk, h⟩ := h
  exact ⟨k + 1, Nat.succ_le_succ hk, h.drop x⟩

/-- What an alignment does with a first member decides, since whatever it inserts before that member
can be inserted in any case. -/
theorem of_cons {x : α} (h : Aligned n (x :: b) c)
    (hkeep : ∀ k c, Aligned k b c → Within (m + k) a (x :: c))
    (hreplace : ∀ k c y, Aligned k b c → Within (m + k + 1) a (y :: c))
    (hdrop : ∀ k c, Aligned k b c → Within (m + k + 1) a c) : Within (m + n) a c := by
  generalize hfirst : x :: b = list at h
  induction h with
  | nil => exact absurd hfirst (List.cons_ne_nil x b)
  | keep _ h =>
    obtain ⟨rfl, rfl⟩ := List.cons.inj hfirst
    exact hkeep _ _ h
  | replace _ y h =>
    obtain ⟨rfl, rfl⟩ := List.cons.inj hfirst
    exact hreplace _ _ y h
  | insert y _ ih => exact (ih hfirst).insert y
  | drop _ h =>
    obtain ⟨rfl, rfl⟩ := List.cons.inj hfirst
    exact hdrop _ _ h

end Within

/-- Alignments can be composed. The composition costs less if what one inserts or replaces is left
out or replaced by the other. -/
theorem Aligned.trans (h : Aligned m a b) (h' : Aligned n b c) : Within (m + n) a c := by
  induction h generalizing c n with
  | nil => exact ⟨n, by omega, h'⟩
  | keep x _ ih =>
    exact .of_cons h' (fun _ _ h ↦ (ih h).keep x) (fun _ _ y h ↦ (ih h).replace x y)
      (fun _ _ h ↦ (ih h).drop x)
  | replace x y _ ih =>
    refine .of_cons h' (fun k _ h ↦ ?_) (fun k _ z h ↦ ?_) (fun k _ h ↦ ?_)
    · exact ((ih h).replace x y).mono (by omega)
    · exact ((ih h).replace x z).mono (by omega)
    · exact ((ih h).drop x).mono (by omega)
  | insert y _ ih =>
    refine .of_cons h' (fun k _ h ↦ ?_) (fun k _ z h ↦ ?_) (fun k _ h ↦ ?_)
    · exact ((ih h).insert y).mono (by omega)
    · exact ((ih h).insert z).mono (by omega)
    · exact (ih h).mono (by omega)
  | drop x _ ih => exact ((ih h').drop x).mono (by omega)

/-! ### Edits -/

theorem Edit.cons {x : α} (h : Edit a b) : Edit (x :: a) (x :: b) := by
  cases h with
  | insertion before after y => exact .insertion (x :: before) after y
  | deletion before after y => exact .deletion (x :: before) after y
  | substitution before after y z => exact .substitution (x :: before) after y z

theorem Edit.aligned (h : Edit a b) : Aligned 1 a b := by
  cases h with
  | insertion before after x =>
    simpa using (Aligned.refl before).append ((Aligned.refl after).insert x)
  | deletion before after x =>
    simpa using (Aligned.refl before).append ((Aligned.refl after).drop x)
  | substitution before after x y =>
    simpa using (Aligned.refl before).append ((Aligned.refl after).replace x y)

theorem Edits.cons {x : α} (h : Edits n a b) : Edits n (x :: a) (x :: b) := by
  induction h with
  | none => exact .none _
  | more first _ ih => exact .more first.cons ih

/-- An alignment can be carried out by as many edits as it costs. -/
theorem Aligned.edits (h : Aligned n a b) : Edits n a b := by
  induction h with
  | nil => exact .none []
  | keep x _ ih => exact ih.cons
  | @replace _ a _ x y _ ih => exact .more (.substitution [] a x y) ih.cons
  | @insert _ a _ y _ ih => exact .more (.insertion [] a y) ih.cons
  | @drop _ a _ x _ ih => exact .more (.deletion [] a x) ih

/-- A sequence of edits is matched by an alignment. -/
theorem Edits.within (h : Edits n a b) : Within n a b := by
  induction h with
  | none a => exact ⟨0, Nat.le_refl 0, .refl a⟩
  | more first _ ih =>
    obtain ⟨k, hk, h⟩ := ih
    exact (first.aligned.trans h).mono (by omega)

/-! ### The distance -/

section Levenshtein

variable [DecidableEq α]

/-- The cost of putting a member in the place of another. -/
def replacementCost (x y : α) : Nat := if x = y then 0 else 1

/-- The distance of two lists, by recursion on their first members: the first member of one list is
left out, that of the other is inserted, or one is put in the place of the other. -/
def levenshtein : List α → List α → Nat
  | [], target => target.length
  | source, [] => source.length
  | x :: source, y :: target =>
    min (min (levenshtein source (y :: target) + 1) (levenshtein (x :: source) target + 1))
      (levenshtein source target + replacementCost x y)
termination_by source target => source.length + target.length

@[simp] theorem levenshtein_nil_left (b : List α) : levenshtein [] b = b.length := by
  rw [levenshtein]

@[simp] theorem levenshtein_nil_right (a : List α) : levenshtein a [] = a.length := by
  cases a <;> rw [levenshtein]
  simp

theorem levenshtein_cons (x y : α) (a b : List α) :
    levenshtein (x :: a) (y :: b) =
      min (min (levenshtein a (y :: b) + 1) (levenshtein (x :: a) b + 1))
        (levenshtein a b + replacementCost x y) := by
  rw [levenshtein]

/-- Both ways to pair off two members, at the cost of a replacement. -/
theorem Aligned.pair (x y : α) (h : Aligned n a b) :
    Aligned (n + replacementCost x y) (x :: a) (y :: b) := by
  rw [replacementCost]
  split
  · rename_i heq
    rw [heq]
    exact h.keep y
  · exact h.replace x y

/-- The distance is the cost of an alignment. -/
theorem aligned_levenshtein (a b : List α) : Aligned (levenshtein a b) a b := by
  induction a generalizing b with
  | nil =>
    induction b with
    | nil => simpa using Aligned.nil
    | cons y b ih => simpa using ih.insert y
  | cons x a iha =>
    induction b with
    | nil => simpa using (iha []).drop x
    | cons y b ihb =>
      rw [levenshtein_cons]
      rcases Nat.le_total (min (levenshtein a (y :: b) + 1) (levenshtein (x :: a) b + 1))
        (levenshtein a b + replacementCost x y) with h | h
      · rw [Nat.min_eq_left h]
        rcases Nat.le_total (levenshtein a (y :: b) + 1) (levenshtein (x :: a) b + 1) with h | h
        · rw [Nat.min_eq_left h]
          exact (iha (y :: b)).drop x
        · rw [Nat.min_eq_right h]
          exact ihb.insert y
      · rw [Nat.min_eq_right h]
        exact (iha b).pair x y

theorem levenshtein_insert_le (y : α) (a b : List α) :
    levenshtein a (y :: b) ≤ levenshtein a b + 1 := by
  cases a with
  | nil => simp
  | cons x a =>
    rw [levenshtein_cons]
    omega

theorem levenshtein_drop_le (x : α) (a b : List α) :
    levenshtein (x :: a) b ≤ levenshtein a b + 1 := by
  cases b with
  | nil => simp
  | cons y b =>
    rw [levenshtein_cons]
    omega

/-- No alignment costs less than the distance. -/
theorem Aligned.levenshtein_le (h : Aligned n a b) : levenshtein a b ≤ n := by
  induction h with
  | nil => simp
  | keep x _ ih =>
    rw [levenshtein_cons, replacementCost, if_pos rfl]
    omega
  | @replace n a b x y _ ih =>
    have hcost : replacementCost x y ≤ 1 := by
      rw [replacementCost]
      split <;> omega
    rw [levenshtein_cons]
    omega
  | @insert n a b y _ ih => exact Nat.le_trans (levenshtein_insert_le y a b) (Nat.succ_le_succ ih)
  | @drop n a b x _ ih => exact Nat.le_trans (levenshtein_drop_le x a b) (Nat.succ_le_succ ih)

theorem Within.levenshtein_le (h : Within n a b) : levenshtein a b ≤ n := by
  obtain ⟨k, hk, h⟩ := h
  exact Nat.le_trans h.levenshtein_le hk

/-- The distance of two lists is the least number of edits that lead from one to the other. -/
theorem isLeast_edits (a b : List α) : IsLeast {n | Edits n a b} (levenshtein a b) :=
  ⟨(aligned_levenshtein a b).edits, fun _ h ↦ h.within.levenshtein_le⟩

/-! ### Laws of the distance -/

theorem levenshtein_comm (a b : List α) : levenshtein a b = levenshtein b a :=
  Nat.le_antisymm (aligned_levenshtein b a).symm.levenshtein_le
    (aligned_levenshtein a b).symm.levenshtein_le

theorem levenshtein_eq_zero_iff {a b : List α} : levenshtein a b = 0 ↔ a = b := by
  constructor
  · exact (aligned_levenshtein a b).eq_of_cost_zero
  · rintro rfl
    exact Nat.le_zero.mp (Aligned.refl a).levenshtein_le

theorem levenshtein_triangle (a b c : List α) :
    levenshtein a c ≤ levenshtein a b + levenshtein b c :=
  ((aligned_levenshtein a b).trans (aligned_levenshtein b c)).levenshtein_le

theorem levenshtein_reverse (a b : List α) :
    levenshtein a.reverse b.reverse = levenshtein a b := by
  refine Nat.le_antisymm (aligned_levenshtein a b).reverse.levenshtein_le ?_
  simpa using (aligned_levenshtein a.reverse b.reverse).reverse.levenshtein_le

/-- The recursion on the last members. -/
theorem levenshtein_concat (a b : List α) (x y : α) :
    levenshtein (a ++ [x]) (b ++ [y]) =
      min (min (levenshtein a (b ++ [y]) + 1) (levenshtein (a ++ [x]) b + 1))
        (levenshtein a b + replacementCost x y) := by
  have h := levenshtein_cons x y a.reverse b.reverse
  simpa only [← List.reverse_concat, levenshtein_reverse] using h

end Levenshtein

end Normative.Text
