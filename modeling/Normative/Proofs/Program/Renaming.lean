import Mathlib.Data.List.Induction
import Normative.Proofs.Program.Declaration
import Normative.Proofs.Program.Freshness

/-!
# The names that an extension defines

Every norm of a corpus that applies defines a name for its text, and a stem for its asset and its
clause if its parties are known. The names are searched for, norm by norm and through all sources,
among candidates that depend on texts and keys of any kind. The searches have no bound of their own,
but all of them come to an end. The names of texts are different from one another and from those
that the extended program declares, and the stems are different from one another.

What is defined is stated as a relation beside the growing extension. In it a search has no bound,
so that a name is defined only if the search for it ends.

## Main definitions

* `Extension.Defines` : the names that a sequence of norms defines.

## Main results

* `Extension.Defines.nodup_textNames`, `Extension.Defines.not_infix_base`,
  `Extension.Defines.nodup_stems` : names that are defined are new.
* `Extension.defines_run` : an extension defines these names.
* `Extension.defined_names_fresh` : all of this for every program and every sequence of norms.
-/

namespace Normative

open Program Statement

/-! ### Declarations of a written program -/

namespace Program

/-- The declaration of a text occurs in the program as it is written. -/
theorem infix_render_of_mem_names {program : Program} {name : String}
    (h : name ∈ names .text program) :
    ("string " ++ name ++ " =").toList <:+: program.render.toList := by
  obtain ⟨statement, hmem, hname⟩ := List.mem_filterMap.mp h
  refine List.IsInfix.trans ?_ (infix_render hmem)
  cases statement with
  | text name' value =>
    obtain rfl : name' = name := by simpa [name?] using hname
    refine List.IsPrefix.isInfix ⟨(" " ++ quoted value ++ ";\n").toList, ?_⟩
    simp [Statement.render, declaration]
  | _ => simp [name?] at hname

end Program

namespace Extension

/-! ### Names that are defined -/

/-- The names that norms define, one norm after the other: the names of their texts, and the stems
of those whose parties are known. Each is the name at which a search ends that avoids the names
before it, and the names of texts avoid the declarations in the written program too. -/
inductive Defines (setting : Setting) : List Applicable → List String → List String → Prop
  | nil : Defines setting [] [] []
  | text {norms : List Applicable} {textNames stems : List String} {norm : Applicable}
      {text : String} (before : Defines setting norms textNames stems)
      (hparties : parties? setting norm = none)
      (htext : Search (isTextTaken setting.base textNames)
        (textCandidate (Identifier.variableName norm.action)) 0 text) :
      Defines setting (norms ++ [norm]) (textNames ++ [text]) stems
  | textAndStem {norms : List Applicable} {textNames stems : List String} {norm : Applicable}
      {text stem : String} (before : Defines setting norms textNames stems)
      (hparties : (parties? setting norm).isSome = true)
      (htext : Search (isTextTaken setting.base textNames)
        (textCandidate (Identifier.variableName norm.action)) 0 text)
      (hstem : Search stems.contains
        (stemCandidate norm.entry.sourceKey norm.entry.normKey) 0 stem) :
      Defines setting (norms ++ [norm]) (textNames ++ [text]) (stems ++ [stem])

section Fresh

variable {setting : Setting} {norms : List Applicable} {textNames stems : List String}
  {text : String} {candidate : Nat → String}

/-- A name at which a search ends extends names that are different and not in the program. -/
theorem nodup_concat (hnodup : textNames.Nodup)
    (htext : Search (isTextTaken setting.base textNames) candidate 0 text) :
    (textNames ++ [text]).Nodup :=
  List.nodup_append_comm.mp
    (List.nodup_cons.mpr ⟨(isTextTaken_eq_false_iff.mp htext.taken_eq_false).2, hnodup⟩)

theorem not_infix_concat
    (hbase : ∀ name ∈ textNames, ¬ ("string " ++ name ++ " =").toList <:+: setting.base.toList)
    (htext : Search (isTextTaken setting.base textNames) candidate 0 text) :
    ∀ name ∈ textNames ++ [text],
      ¬ ("string " ++ name ++ " =").toList <:+: setting.base.toList := by
  intro name hname
  rcases List.mem_append.mp hname with hname | hname
  · exact hbase name hname
  · rw [List.mem_singleton.mp hname]
    exact (isTextTaken_eq_false_iff.mp htext.taken_eq_false).1

theorem Defines.nodup_textNames (h : Defines setting norms textNames stems) :
    textNames.Nodup := by
  induction h with
  | nil => exact List.nodup_nil
  | text _ _ htext ih => exact nodup_concat ih htext
  | textAndStem _ _ htext _ ih => exact nodup_concat ih htext

/-- The program does not declare a name that is defined, nor does the beginning of such a
declaration occur anywhere else in it. -/
theorem Defines.not_infix_base (h : Defines setting norms textNames stems) :
    ∀ name ∈ textNames, ¬ ("string " ++ name ++ " =").toList <:+: setting.base.toList := by
  induction h with
  | nil => simp
  | text _ _ htext ih => exact not_infix_concat ih htext
  | textAndStem _ _ htext _ ih => exact not_infix_concat ih htext

theorem Defines.nodup_stems (h : Defines setting norms textNames stems) : stems.Nodup := by
  induction h with
  | nil => exact List.nodup_nil
  | text _ _ _ ih => exact ih
  | textAndStem _ _ _ hstem ih =>
    have hnew := hstem.taken_eq_false
    exact List.nodup_append_comm.mp (List.nodup_cons.mpr ⟨by simpa using hnew, ih⟩)

end Fresh

/-! ### The names of an extension -/

variable {setting : Setting} {extension extension' : Extension}

/-- A norm adds to the names of an extension what the searches end at. -/
theorem Defines.addNorm {norms : List Applicable}
    (h : Defines setting norms extension.textNames extension.stems) (norm : Applicable) :
    Defines setting (norms ++ [norm]) (addNorm setting extension norm).textNames
      (addNorm setting extension norm).stems := by
  have htext := search_textName setting extension norm.action
  rw [Extension.addNorm]
  split
  · rename_i hparties
    exact .text h hparties htext
  · rename_i hparties
    exact .textAndStem h (by rw [hparties]; rfl) htext (extension.search_stem _ _)

/-- The extension to which a sequence of norms has been added defines the names of the sequence. -/
theorem defines_run (setting : Setting) (norms : List Applicable) :
    Defines setting norms (norms.foldl (addNorm setting) empty).textNames
      (norms.foldl (addNorm setting) empty).stems := by
  induction norms using List.reverseRecOn with
  | nil => exact .nil
  | append_singleton norms norm ih =>
    rw [List.foldl_append]
    exact ih.addNorm norm

/-- The parts of an extension that name texts, assets and clauses. -/
def naming (extension : Extension) : List String × List String × Program :=
  (extension.textNames, extension.stems, extension.texts)

/-- What a norm adds to the names depends on the names only. -/
theorem naming_addNorm_congr (h : extension.naming = extension'.naming) (norm : Applicable) :
    (addNorm setting extension norm).naming = (addNorm setting extension' norm).naming := by
  obtain ⟨htextNames, hrest⟩ := Prod.mk.inj h
  obtain ⟨hstems, htexts⟩ := Prod.mk.inj hrest
  have htext : extension.textName setting norm.action =
      extension'.textName setting norm.action := by
    rw [textName, textName, htextNames]
  have hstem (sourceKey normKey : String) :
      extension.stem sourceKey normKey = extension'.stem sourceKey normKey := by
    rw [stem, stem, hstems]
  rw [addNorm, addNorm]
  cases parties? setting norm with
  | none => simp only [naming, htextNames, hstems, htexts, htext]
  | some parties => simp only [naming, htextNames, hstems, htexts, htext, hstem]

/-- The texts of an extension are declared under the names that it has used. -/
theorem names_text_run (setting : Setting) (norms : List Applicable) :
    names .text (norms.foldl (addNorm setting) empty).texts =
      (norms.foldl (addNorm setting) empty).textNames := by
  induction norms using List.reverseRecOn with
  | nil => rfl
  | append_singleton norms norm ih =>
    rw [List.foldl_append, List.foldl_cons, List.foldl_nil, addNorm]
    split <;> simp [ih, name?]

/-! ### The names of a corpus -/

/-- The names of an extension that a corpus gives are those of the norms of all its sources; the
headers do not matter. -/
theorem naming_ofCorpus (setting : Setting) (corpus : Corpus) :
    (ofCorpus setting corpus).naming =
      ((corpusNorms setting.institution corpus).foldl (addNorm setting) empty).naming := by
  refine ofCorpus_norms_induction (P := fun norms extension ↦
    extension.naming = (norms.foldl (addNorm setting) empty).naming) corpus rfl
    (fun _ _ _ h ↦ h) fun norms extension norm h ↦ ?_
  rw [List.foldl_append]
  exact naming_addNorm_congr h norm

/-- For every written program, every institution and every sequence of norms, all searches for names
come to an end. The names of the texts are different, and the program declares none of them; the
stems are different. If the sequence is that of a corpus, these are the names that the extension by
the corpus has, through all of its sources. -/
theorem defined_names_fresh (setting : Setting) (norms : List Applicable) :
    ∃ textNames stems, Defines setting norms textNames stems ∧ textNames.Nodup ∧ stems.Nodup ∧
      (∀ name ∈ textNames, ¬ ("string " ++ name ++ " =").toList <:+: setting.base.toList) ∧
      (∀ program : Program, program.render = setting.base →
        ∀ name ∈ textNames, name ∉ names .text program) ∧
      names .text (norms.foldl (addNorm setting) empty).texts = textNames ∧
      (norms.foldl (addNorm setting) empty).stems = stems ∧
      ∀ corpus, corpusNorms setting.institution corpus = norms →
        names .text (ofCorpus setting corpus).texts = textNames ∧
          (ofCorpus setting corpus).stems = stems := by
  have hdefines := defines_run setting norms
  refine ⟨_, _, hdefines, hdefines.nodup_textNames, hdefines.nodup_stems, hdefines.not_infix_base,
    ?_, names_text_run setting norms, rfl, ?_⟩
  · intro program hprogram name hname hdeclared
    refine hdefines.not_infix_base name hname ?_
    rw [← hprogram]
    exact infix_render_of_mem_names hdeclared
  · rintro corpus rfl
    obtain ⟨-, hrest⟩ := Prod.mk.inj (naming_ofCorpus setting corpus)
    obtain ⟨hstems, htexts⟩ := Prod.mk.inj hrest
    exact ⟨by rw [htexts, names_text_run], hstems⟩

/-- A program that declares two texts. -/
def twoTexts : Program := [.text "pagar" "acuerda pagar", .text "legal_pagar" "pagar"]

/-- A corpus whose keys are the same as names, also those that are qualified by the key of a source,
and whose actions begin with the same word. -/
def clashingSources : Corpus where
  sources :=
    let norm (action : String) : Corpus.Norm :=
      ⟨some "art", some ⟨some action, some "deudor", some "acreedor", none, none, ["Prestamo"]⟩, [],
        none⟩
    ⟨[("cod", ⟨none, none, ⟨[("a.1", norm "pagar el capital"), ("a 1", norm "Pagar intereses"),
        ("a-1", norm "devolver")]⟩⟩),
      ("ley", ⟨none, none, ⟨[("cod.a.1", norm "pagar")]⟩⟩)]⟩
  roleMappings := .empty
  roles := .empty

/-- The extension of the two texts by the corpus. -/
def clashingSetting : Setting := ⟨twoTexts.render, "Prestamo", "deudor", "acreedor", .byKeyword⟩

theorem defined_names_fresh_clashingSources :
    ∃ textNames stems,
      Defines clashingSetting (corpusNorms "Prestamo" clashingSources) textNames stems ∧
      names .text (ofCorpus clashingSetting clashingSources).texts = textNames ∧
      textNames = ["legal_pagar_2", "legal_pagar_3", "devolver", "legal_pagar_4"] ∧
      stems = ["a_1", "cod_a_1", "cod_a_1_2", "ley_cod_a_1"] ∧
      ∀ name ∈ textNames, name ∉ names .text twoTexts := by
  obtain ⟨textNames, stems, hdefines, -, -, -, hbase, -, -, hcorpus⟩ :=
    defined_names_fresh clashingSetting (corpusNorms "Prestamo" clashingSources)
  obtain ⟨htextNames, hstems⟩ := hcorpus clashingSources rfl
  have htexts : names .text (ofCorpus clashingSetting clashingSources).texts =
      ["legal_pagar_2", "legal_pagar_3", "devolver", "legal_pagar_4"] := by decide +kernel
  have hkeys : (ofCorpus clashingSetting clashingSources).stems =
      ["a_1", "cod_a_1", "cod_a_1_2", "ley_cod_a_1"] := by decide +kernel
  exact ⟨textNames, stems, hdefines, htextNames, htextNames.symm.trans htexts,
    hstems.symm.trans hkeys, hbase twoTexts rfl⟩

end Extension

end Normative
