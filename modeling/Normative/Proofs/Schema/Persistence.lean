import Normative.Proofs.Grammar.Acceptance
import Normative.Proofs.Grammar.Promptness
import Normative.Proofs.Token.Line

/-!
# Faults persist

A fault of the grammar that is found at a lexeme of a text is still the first fault of the text when
more is written on the lines after it. It keeps its place and its wording.

The lexemes of a text are the first lexemes of the longer text, at the same places, since no chunk
goes across the end of a line. The items before the fault are read and added as before: each of them
leaves at least the lexeme that was not expected, so that where it ends is settled.

## Main results

* `Schema.ofLexemes_append_of_error` : a fault that names a lexeme is not affected by later lexemes.
* `Schema.parse_error_persists` : the same for texts.
-/

namespace Normative.Schema

open Grammar (NamesLexeme IsSettled prompt_item prompt_institution bind_eq_ok)

variable {schema : Schema} {institutionName : String} {input : List Lexeme} {fault : ParseFault}

theorem addItems_of_fault (hne : input ≠ [])
    (hitem : Grammar.item institutionName input = .error fault) :
    addItems institutionName schema input = .error fault := by
  rw [addItems_eq_bind hne, hitem]
  rfl

/-- Adding an item fails only where a norm is refused. -/
theorem not_namesLexeme_of_addItem {item : Grammar.Item} (h : schema.addItem item = .error fault) :
    ¬ NamesLexeme fault := by
  cases item with
  | norm number norm =>
    obtain ⟨refusal, -, rfl⟩ := mapError_eq_error.mp h
    exact id
  | violation violation => simp [addItem] at h
  | fact fact => simp [addItem] at h
  | agenda agenda => simp [addItem] at h

/-- Items that are read before a fault are read in the same way if more comes after it. -/
theorem addItems_append_of_error (more : List Lexeme) (hfault : NamesLexeme fault)
    (h : addItems institutionName schema input = .error fault) :
    addItems institutionName schema (input ++ more) = .error fault := by
  fun_induction addItems institutionName schema input with
  | case1 => simp at h
  | case2 schema input hempty fault' hitem =>
    obtain rfl := Except.error.inj h
    have happend := (prompt_item institutionName).append input more (by rw [hitem]; exact hfault)
    rw [hitem] at happend
    exact addItems_of_fault (by simp at hempty; simp [hempty]) happend
  | case3 schema input hempty item rest hitem fault' hadd =>
    obtain rfl := Except.error.inj h
    exact absurd hfault (not_namesLexeme_of_addItem hadd)
  | case4 schema input hempty item rest hitem schema' hadd ih =>
    -- The fault lies in what is left, so something is left.
    have hrest : rest ≠ [] := by
      rintro rfl
      simp [addItems] at h
    have happend := (prompt_item institutionName).append input more (by rw [hitem]; exact hrest)
    rw [hitem] at happend
    rw [addItems_of_item happend hadd]
    exact ih h

theorem ofLexemes_append_of_error (more : List Lexeme) (hfault : NamesLexeme fault)
    (h : ofLexemes input = .error fault) : ofLexemes (input ++ more) = .error fault := by
  have happend := prompt_institution.append input more
  rw [ofLexemes] at h ⊢
  cases hinstitution : Grammar.institution input with
  | error fault' =>
    rw [hinstitution] at h happend
    obtain rfl : fault' = fault := Except.error.inj h
    rw [happend hfault]
    rfl
  | ok r =>
    obtain ⟨institution, rest⟩ := r
    rw [hinstitution] at h happend
    have hitems : addItems institution.name { empty with institution := some institution } rest =
        .error fault := h
    have hrest : rest ≠ [] := by
      rintro rfl
      simp [addItems] at hitems
    rw [happend hrest]
    exact addItems_append_of_error more hfault hitems

/-- A fault at a lexeme of a text is found at the same place and in the same words if more is
written on the lines after the text. -/
theorem parse_error_persists {text : String} (more : String) {position : Position}
    {expected : Expectation} {found : Lexeme}
    (h : parse text = .error ⟨position, .unexpected expected (some found)⟩) :
    parse (text ++ "\n" ++ more) = .error ⟨position, .unexpected expected (some found)⟩ := by
  obtain ⟨fault, hlexemes, herror⟩ := mapError_eq_error.mp h
  obtain ⟨hposition, rfl⟩ := ParseError.mk.inj herror
  have hfault : NamesLexeme (.unexpected expected (some found)) := Option.some_ne_none found
  have happend := ofLexemes_append_of_error
    ((lexemes more).map (Lexeme.below (endPosition text).line)) hfault hlexemes
  rw [← lexemes_newline] at happend
  exact mapError_eq_error.mpr ⟨_, happend, congrArg (ParseError.mk · _) hposition⟩

/-- The error of a text that writes no schema. -/
def error? (text : String) : Option ParseError :=
  match parse text with
  | .error e => some e
  | .ok _ => none

theorem parse_eq_error_iff {text : String} {e : ParseError} :
    parse text = .error e ↔ error? text = some e := by
  unfold error?
  cases parse text <;> simp

/-- Which error a text has can be decided. -/
instance {text : String} {e : ParseError} : Decidable (parse text = .error e) :=
  decidable_of_iff _ parse_eq_error_iff.symm

/-- A norm without a role, after which a quoted text is not closed. -/
def brokenOff : String := "Institution Permuta 1 debe \"a medias"

theorem parse_brokenOff :
    parse brokenOff =
      .error ⟨⟨1, 23⟩, .unexpected .role (some ⟨.deontic .obligation, ⟨1, 23⟩, "debe"⟩)⟩ := by
  decide +kernel

theorem parse_error_persists_brokenOff :
    parse brokenOff =
        .error ⟨⟨1, 23⟩, .unexpected .role (some ⟨.deontic .obligation, ⟨1, 23⟩, "debe"⟩)⟩ ∧
      parse (brokenOff ++ "\n" ++ "y entero\" el-juez busca 2") =
        .error ⟨⟨1, 23⟩, .unexpected .role (some ⟨.deontic .obligation, ⟨1, 23⟩, "debe"⟩)⟩ :=
  ⟨parse_brokenOff, parse_error_persists _ parse_brokenOff⟩

end Normative.Schema
