import Mathlib.Data.List.Perm.Subperm
import Normative.Proofs.Program.Naming

/-!
# Names that are free

A name that is taken is changed until it is not: candidates are tried one after the other, and after
the first few of them each has a number of its own. Only finitely many names are taken, so among
enough candidates there is a free one, and the search finds it before it has to stop. The bound on
the search is therefore never felt: the name that is returned is the one that a search without a
bound ends at.

A written program takes a name if a declaration of a text with that name occurs in it. Candidates
have no spaces, so each place of the program can take one of them at most.

## Main definitions

* `Search` : a search without a bound that comes to an end.
* `Extension.declaredNames` : the names that can be declared somewhere in a written program.
* `Extension.isTextTaken` : the names of texts that are taken.

## Main results

* `exists_candidate_notMem` : enough different candidates are not all on a list.
* `candidate_inj` : numbered candidates differ.
* `search_firstFree` : the search with a bound finds what the search without one ends at.
* `Extension.search_stem`, `Extension.search_textName` : the searches for names come to an end.
* `Extension.stem_notMem` : the stem of a norm of the corpus differs from all stems before it.
-/

namespace Normative

/-- Of more candidates than a list has entries, one is not on the list. -/
theorem exists_candidate_notMem {candidate : Nat → String} {start : Nat}
    (hcandidate : ∀ i j, start ≤ i → start ≤ j → candidate i = candidate j → i = j)
    {used : List String} {count : Nat} (hcount : used.length < count) :
    ∃ i, start ≤ i ∧ i < start + count ∧ candidate i ∉ used := by
  by_contra hall
  have hsubset : (List.range' start count).map candidate ⊆ used := by
    intro name hname
    obtain ⟨i, hi, rfl⟩ := List.mem_map.mp hname
    obtain ⟨hle, hlt⟩ := List.mem_range'_1.mp hi
    by_contra hfree
    exact hall ⟨i, hle, hlt, hfree⟩
  have hnodup : ((List.range' start count).map candidate).Nodup :=
    List.Nodup.map_on (fun i hi j hj ↦
      hcandidate i j (List.mem_range'_1.mp hi).1 (List.mem_range'_1.mp hj).1) List.nodup_range'
  have hle := (hnodup.subperm hsubset).length_le
  rw [List.length_map, List.length_range'] at hle
  omega

/-- A search for a free name, from a place of a sequence on, comes to an end with a name: the names
before it are taken, and it is not. -/
inductive Search (taken : String → Bool) (candidate : Nat → String) : Nat → String → Prop
  | found {n : Nat} (hfree : taken (candidate n) = false) : Search taken candidate n (candidate n)
  | next {n : Nat} {name : String} (htaken : taken (candidate n) = true)
      (hrest : Search taken candidate (n + 1) name) : Search taken candidate n name

section Search

variable {taken : String → Bool} {candidate : Nat → String} {n : Nat} {name : String}

theorem Search.taken_eq_false (h : Search taken candidate n name) : taken name = false := by
  induction h with
  | found hfree => exact hfree
  | next _ _ ih => exact ih

theorem Search.exists_eq (h : Search taken candidate n name) : ∃ i, name = candidate i := by
  induction h with
  | found _ => exact ⟨_, rfl⟩
  | next _ _ ih => exact ih

/-- If there is a free name within the reach of the search, it ends there, with or without a
bound. -/
theorem search_firstFree {fuel : Nat}
    (h : ∃ i, n ≤ i ∧ i < n + fuel ∧ taken (candidate i) = false) :
    Search taken candidate n (firstFree taken candidate fuel n) := by
  induction fuel generalizing n with
  | zero =>
    obtain ⟨i, hle, hlt, -⟩ := h
    omega
  | succ fuel ih =>
    rw [firstFree]
    split
    · rename_i htaken
      obtain ⟨i, hle, hlt, hfree⟩ := h
      have hne : i ≠ n := by
        rintro rfl
        simp [htaken] at hfree
      exact .next htaken (ih ⟨i, by omega, by omega, hfree⟩)
    · rename_i hfree
      exact .found (by simpa using hfree)

end Search

/-- A name and the same name with different numbers after it are different. -/
theorem candidate_inj {candidate : Nat → String} {name : String} (hone : candidate 1 = name)
    (hmore : ∀ n, candidate (n + 2) = name ++ "_" ++ toString (n + 2)) {i j : Nat} (hi : 1 ≤ i)
    (hj : 1 ≤ j) (h : candidate i = candidate j) : i = j := by
  have hlonger (n : Nat) : name.length < (candidate (n + 2)).length := by
    have hword : "_".length = 1 := rfl
    rw [hmore, String.length_append, String.length_append]
    omega
  have hnumber (n : Nat) : Identifier.number? (candidate (n + 2)) = some (n + 2) := by
    rw [hmore, Identifier.number?_append_toString (Identifier.getLast?_underscore name) rfl]
  match i, j with
  | 1, 1 => rfl
  | 1, j + 2 =>
    have hlt := hlonger j
    rw [← h, hone] at hlt
    exact absurd hlt (Nat.lt_irrefl _)
  | i + 2, 1 =>
    have hlt := hlonger i
    rw [h, hone] at hlt
    exact absurd hlt (Nat.lt_irrefl _)
  | i + 2, j + 2 =>
    have hsame := hnumber i
    rw [h, hnumber j] at hsame
    exact (Option.some.inj hsame).symm

namespace Extension

open Identifier
open Text (Over)

/-! ### Stems -/

/-- The search for a stem comes to an end. -/
theorem search_stem (extension : Extension) (sourceKey normKey : String) :
    Search extension.stems.contains (stemCandidate sourceKey normKey) 0
      (extension.stem sourceKey normKey) := by
  have hfree : ∃ i, 1 ≤ i ∧ i < 1 + (extension.stems.length + 1) ∧
      stemCandidate sourceKey normKey i ∉ extension.stems :=
    exists_candidate_notMem (fun _ _ ↦ candidate_inj rfl fun _ ↦ rfl) (Nat.lt_succ_self _)
  obtain ⟨i, hle, hlt, hi⟩ := hfree
  exact search_firstFree ⟨i, by omega, by omega, by simpa using hi⟩

/-- The stem of a norm is new. -/
theorem stem_notMem (extension : Extension) (sourceKey normKey : String) :
    extension.stem sourceKey normKey ∉ extension.stems := by
  simpa using (extension.search_stem sourceKey normKey).taken_eq_false

/-! ### Names of texts -/

/-- The word with which the declaration of a text begins, with the space after it. -/
def declarationWord : List Char := "string ".toList

/-- The names that are declared at the places of a written program: what stands between the word for
a declaration and the next space. -/
def declaredNames : List Char → List (List Char)
  | [] => []
  | c :: rest =>
    (if declarationWord.isPrefixOf (c :: rest) then
      [((c :: rest).drop declarationWord.length).takeWhile (· ≠ ' ')] else []) ++
      declaredNames rest

/-- Every place of a program declares one name at most. -/
theorem length_declaredNames_le (base : List Char) : (declaredNames base).length ≤ base.length := by
  induction base with
  | nil => exact Nat.le_refl 0
  | cons c rest ih =>
    rw [declaredNames, List.length_append, List.length_cons]
    split <;> simp <;> omega

/-- A name without spaces whose declaration occurs in a program is found at the place where it
occurs. -/
theorem mem_declaredNames {name base : List Char} (hname : ' ' ∉ name)
    (h : declarationWord ++ name ++ " =".toList <:+: base) : name ∈ declaredNames base := by
  induction base with
  | nil => simp at h
  | cons c rest ih =>
    rw [declaredNames, List.mem_append]
    rcases List.infix_cons_iff.mp h with ⟨after, hprefix⟩ | hrest
    · left
      have hword : declarationWord <+: c :: rest := by
        rw [← hprefix, List.append_assoc, List.append_assoc]
        exact List.prefix_append _ _
      rw [if_pos (List.isPrefixOf_iff_prefix.mpr hword), List.mem_singleton, ← hprefix,
        List.append_assoc, List.append_assoc, List.drop_left,
        List.takeWhile_append_of_pos fun d hd ↦ by simpa using ne_of_mem_of_not_mem hd hname]
      simp
    · exact .inr (ih hrest)

/-- Whether the name of a text is taken, by the program that is extended or by the extension. -/
def isTextTaken (base : String) (textNames : List String) (name : String) : Bool :=
  declaresText base name || textNames.contains name

theorem isTextTaken_eq_false_iff {base : String} {textNames : List String} {name : String} :
    isTextTaken base textNames name = false ↔
      ¬ ("string " ++ name ++ " =").toList <:+: base.toList ∧ name ∉ textNames := by
  rw [isTextTaken, Bool.or_eq_false_iff, declaresText, Text.occursIn, ← Text.occurs_iff]
  simp

theorem over_textCandidate (action : String) (n : Nat) :
    Over IsNameChar (textCandidate (variableName action) n) := by
  have hlead : Over IsNameChar ("legal_" ++ variableName action) :=
    (over_isNameChar _ (by decide)).append (over_variableName action)
  match n with
  | 0 => exact over_variableName action
  | 1 => exact hlead
  | n + 2 => exact (hlead.append (over_isNameChar _ (by decide))).append (over_toString (n + 2))

/-- The search for the name of a text comes to an end. -/
theorem search_textName (setting : Setting) (extension : Extension) (action : String) :
    Search (isTextTaken setting.base extension.textNames)
      (textCandidate (Identifier.variableName action)) 0 (extension.textName setting action) := by
  let used := (declaredNames setting.base.toList).map String.ofList ++ extension.textNames
  have hused : used.length ≤ setting.base.length + extension.textNames.length := by
    rw [List.length_append, List.length_map, ← String.length_toList]
    exact Nat.add_le_add_right (length_declaredNames_le _) _
  obtain ⟨i, hle, hlt, hi⟩ : ∃ i, 1 ≤ i ∧ i < 1 + (used.length + 1) ∧
      textCandidate (Identifier.variableName action) i ∉ used :=
    exists_candidate_notMem (fun _ _ ↦ candidate_inj rfl fun _ ↦ rfl) (Nat.lt_succ_self _)
  refine search_firstFree ⟨i, by omega, by omega, isTextTaken_eq_false_iff.mpr ⟨fun h ↦ hi ?_, ?_⟩⟩
  · have hspace : ' ' ∉ (textCandidate (variableName action) i).toList :=
      fun hmem ↦ absurd (over_textCandidate action i ' ' hmem) (by simp [IsNameChar])
    rw [String.toList_append, String.toList_append] at h
    refine List.mem_append_left _ (List.mem_map.mpr ⟨_, mem_declaredNames hspace h, ?_⟩)
    exact String.ofList_toList
  · exact fun h ↦ hi (List.mem_append_right _ h)

end Extension

end Normative
