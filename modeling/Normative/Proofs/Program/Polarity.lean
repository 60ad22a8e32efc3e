import Normative.Proofs.Program.Reference

/-!
# Omissions and the words that name them

The classifier by keywords takes an action for an omission if one of three words occurs in it. One
of them is `no` with the space behind it, so that longer words which begin with these letters do not
count. Nothing is asked of the character in front of it. A longer word that ends in `no` before a
space therefore makes an omission of any action in which it stands, and the asset of the norm is a
service to refrain from what the norm asks for.

What belongs to a word is a parameter here. The statements hold for every class of characters that
are taken for letters and digits.

## Main definitions

* `Text.BeginsWord`, `Text.ContinuesWord` : occurrences at the beginning of a word and inside one.
* `Keyword.IsOmission` : an action that names an omission by a word of its own.
* `Norm.IsService` : a norm whose scope does not mention property.

## Main results

* `Keyword.polarity_eq_negative_iff` : what makes an action negative.
* `Draft.normAsset_declared` : the asset of a norm is the only one of its name, that of the
  institution apart.
* `Schema.polarity_iff_isOmission` : the actions and the assets that have the right polarity.
-/

namespace Normative

open Program Statement

/-! ### Occurrences in words -/

namespace Text

/-- An occurrence of a text that begins a word: nothing stands in front of it, or a character that
belongs to no word. -/
def BeginsWord (inWord : Char → Bool) (part whole : List Char) : Prop :=
  part <+: whole ∨ ∃ c, inWord c = false ∧ (c :: part) <:+: whole

/-- An occurrence of a text inside a word that has begun before. -/
def ContinuesWord (inWord : Char → Bool) (part whole : List Char) : Prop :=
  ∃ c, inWord c = true ∧ (c :: part) <:+: whole

theorem infix_iff_beginsWord_or {part whole : List Char} (inWord : Char → Bool) :
    part <:+: whole ↔ BeginsWord inWord part whole ∨ ContinuesWord inWord part whole := by
  have hlonger {c : Char} (h : (c :: part) <:+: whole) : part <:+: whole :=
    (List.suffix_cons c part).isInfix.trans h
  constructor
  · rintro ⟨before, after, rfl⟩
    rcases List.eq_nil_or_concat' before with rfl | ⟨front, c, rfl⟩
    · exact .inl (.inl (List.prefix_append part after))
    · have hoccurs : (c :: part) <:+: front ++ [c] ++ part ++ after := ⟨front, after, by simp⟩
      cases hc : inWord c with
      | false => exact .inl (.inr ⟨c, hc, hoccurs⟩)
      | true => exact .inr ⟨c, hc, hoccurs⟩
  · rintro ((h | ⟨c, -, h⟩) | ⟨c, -, h⟩)
    · exact h.isInfix
    · exact hlonger h
    · exact hlonger h

end Text

open Text (BeginsWord ContinuesWord)

/-! ### Actions -/

namespace Keyword

/-- An action that names an omission: it has one of two verbs of refraining in it, or the word `no`
followed by a space. -/
def IsOmission (inWord : Char → Bool) (action : String) : Prop :=
  "abstenerse".toList <:+: action.toList ∨ "evitar".toList <:+: action.toList ∨
    BeginsWord inWord "no ".toList action.toList

variable (inWord : Char → Bool) (action : String)

theorem mentions_iff (words : List String) (text : String) :
    mentions words text = true ↔ ∃ word ∈ words, word.toList <:+: text.toList := by
  simp [mentions, Text.occursIn, Text.occurs_iff]

/-- An action is negative if it names an omission, or if a longer word ends in `no`. -/
theorem polarity_eq_negative_iff :
    polarity action = .negative ↔
      IsOmission inWord action ∨ ContinuesWord inWord "no ".toList action.toList := by
  have hmentions : polarity action = .negative ↔ mentions omissionWords action = true := by
    rw [polarity]
    split <;> simp_all
  rw [hmentions, mentions_iff, IsOmission]
  have hno : "no ".toList <:+: action.toList ↔ BeginsWord inWord "no ".toList action.toList ∨
      ContinuesWord inWord "no ".toList action.toList := Text.infix_iff_beginsWord_or inWord
  simp only [omissionWords, List.exists_mem_cons_iff, List.not_mem_nil, false_and, exists_false,
    or_false, hno]
  constructor
  · rintro ((h | h) | h | h)
    · exact .inl (.inr (.inr h))
    · exact .inr h
    · exact .inl (.inl h)
    · exact .inl (.inr (.inl h))
  · rintro ((h | h | h) | h)
    · exact .inr (.inl h)
    · exact .inr (.inr h)
    · exact .inl (.inl h)
    · exact .inl (.inr h)

end Keyword

/-! ### Norms and their assets -/

/-- A norm whose scope, if it has one, mentions neither kind of property. -/
def Norm.IsService (norm : Norm) : Prop :=
  ∀ scope, norm.scope = some scope →
    ¬ "inmueble".toList <:+: scope.toList ∧ ¬ "propiedad".toList <:+: scope.toList

theorem Classifier.normKind_byKeyword (norm : Norm) :
    byKeyword.normKind norm = .service ↔ norm.IsService := by
  have hkind : byKeyword.normKind norm = Keyword.kindOf ["inmueble"] ["propiedad"] norm.scope := rfl
  rw [hkind, Norm.IsService]
  cases norm.scope with
  | none => simp [Keyword.kindOf]
  | some scope =>
    have hmentions (word : String) : Keyword.mentions [word] scope = true ↔
        word.toList <:+: scope.toList := by simp [Keyword.mentions_iff]
    simp only [Keyword.kindOf, Option.some.injEq, forall_eq', ← hmentions]
    split
    · simp_all
    · split <;> simp_all

theorem AssetType.text_eq_refrain_iff (type : AssetType) :
    type.text = "Service, -" ↔ type.kind = .service ∧ type.polarity = .negative := by
  obtain ⟨kind, polarity⟩ := type
  cases kind <;> cases polarity <;> decide

namespace Draft

/-- The declaration of the asset of a norm at a position. -/
def normStatement (draft : Draft) (n : Norm × Nat) : Statement :=
  .asset (Identifier.normAsset n.1.action n.2) (draft.classifier.normType n.1)
    (Identifier.subject n.1.role) (Identifier.actionText n.1.action n.2)
    (draft.counterparty n.1.role)

variable {draft : Draft} {n : Norm × Nat}

theorem normStatement_mem_norms (hn : n ∈ draft.schema.numberedNorms) :
    draft.normStatement n ∈ draft.norms := by
  refine List.mem_append_left _ (List.mem_cons_of_mem _ (List.mem_flatMap.mpr ⟨n, hn, ?_⟩))
  exact List.mem_cons_self

/-- The asset of a norm is declared, and no other asset has its name, that of the institution
apart. -/
theorem normAsset_declared (hn : n ∈ draft.schema.numberedNorms) :
    draft.normStatement n ∈ draft.program ∧
      ∀ s ∈ draft.program, s.name? .asset = some (Identifier.normAsset n.1.action n.2) →
        s = draft.normStatement n ∨
          Identifier.normAsset n.1.action n.2 = draft.institution.name := by
  have hnorms := normStatement_mem_norms hn
  have hnodup : (names .asset (draft.norms ++ draft.violations)).Nodup := by
    have hnone : Tells (Place.ofName? .asset) (Place.ofStems []) (names .asset []) := .nil
    simpa using draft.nodup_parts (.inl rfl) hnone
  refine ⟨by simp [Draft.program, hnorms], fun s hs hname ↦ ?_⟩
  -- Only the institution, the norms and the violations have assets.
  have hdeclared {part : Program} (hmem : s ∈ part) :
      Identifier.normAsset n.1.action n.2 ∈ names .asset part :=
    List.mem_filterMap.mpr ⟨s, hmem, hname⟩
  have hnone {part : Program} (hpart : names .asset part = []) (hmem : s ∈ part) : False :=
    List.not_mem_nil (hpart ▸ hdeclared hmem)
  simp only [Draft.program, List.mem_append] at hs
  rcases hs with ((((((h | h) | h) | h) | h) | h) | h)
  · exact (hnone (draft.names_texts (by decide)) h).elim
  · exact (hnone draft.names_subjects h).elim
  · exact .inr (by simpa [names_baseAsset] using hdeclared h)
  · exact .inl (eq_of_name?_eq hnodup (List.mem_append_left _ h) (List.mem_append_left _ hnorms)
      hname rfl)
  · exact .inl (eq_of_name?_eq hnodup (List.mem_append_right _ h) (List.mem_append_left _ hnorms)
      hname rfl)
  · exact (hnone draft.names_facts h).elim
  · exact (hnone draft.names_agendas h).elim

end Draft

namespace Schema

variable {schema : Schema} {institution : Institution}

/-- An action is negative exactly if it names an omission or a longer word in it ends in `no` before
a space, whatever characters are taken for those of words. So the polarity is right exactly for the
actions in which there is no such word, and for those that name an omission all the same. In the
program of a schema every norm has an asset, the only one of its name unless the institution has
that name too, and it is a service to refrain exactly if the norm is about a service and its action
is negative. -/
theorem polarity_iff_isOmission (hinstitution : schema.institution = some institution)
    (inWord : Char → Bool) :
    (∀ action, Keyword.polarity action = .negative ↔
      Keyword.IsOmission inWord action ∨ ContinuesWord inWord "no ".toList action.toList) ∧
    (∀ action, (Keyword.polarity action = .negative ↔ Keyword.IsOmission inWord action) ↔
      (ContinuesWord inWord "no ".toList action.toList → Keyword.IsOmission inWord action)) ∧
    ∃ program, schema.program? .byKeyword = some program ∧
      ∀ n ∈ schema.numberedNorms, ∃ type receiver,
        Statement.asset (Identifier.normAsset n.1.action n.2) type (Identifier.subject n.1.role)
          (Identifier.actionText n.1.action n.2) receiver ∈ program ∧
        (∀ s ∈ program, s.name? .asset = some (Identifier.normAsset n.1.action n.2) →
          s = .asset (Identifier.normAsset n.1.action n.2) type (Identifier.subject n.1.role)
            (Identifier.actionText n.1.action n.2) receiver ∨
          Identifier.normAsset n.1.action n.2 = institution.name) ∧
        (type.text = "Service, -" ↔ n.1.IsService ∧
          (Keyword.IsOmission inWord n.1.action ∨
            ContinuesWord inWord "no ".toList n.1.action.toList)) := by
  refine ⟨Keyword.polarity_eq_negative_iff inWord, fun action ↦ ?_, _,
    program?_eq_some hinstitution .byKeyword, fun n hn ↦ ?_⟩
  · rw [Keyword.polarity_eq_negative_iff inWord]
    exact or_iff_left_iff_imp
  · have hn : n ∈ (schema.draft institution .byKeyword).schema.numberedNorms := hn
    obtain ⟨hmem, hunique⟩ := Draft.normAsset_declared hn
    refine ⟨_, _, hmem, hunique, ?_⟩
    have hkind := Classifier.normKind_byKeyword n.1
    have hpolarity := Keyword.polarity_eq_negative_iff inWord n.1.action
    rw [AssetType.text_eq_refrain_iff]
    exact and_congr hkind hpolarity

/-- A company to which land is contributed. In the first norm a longer word ends in `no` before a
space, and the second one names an omission. -/
def landCompany : Schema where
  institution := some ⟨"Aporte", "contrato", .multiple, "derecho-civil"⟩
  norms :=
    [⟨1, "socio", .obligation, "ceder el terreno libre", none, [], .authored⟩,
      ⟨2, "junta", .obligation, "oír y no votar", some "el aporte", [], .authored⟩]
  violations := []
  facts := []
  agendas := []

theorem polarity_iff_isOmission_landCompany :
    Keyword.IsOmission Char.isAlphanum "oír y no votar" ∧
    ∃ program, landCompany.program? .byKeyword = some program ∧
      ∃ type receiver, Statement.asset "OrAsset2" type "JUNTA" "o_r_y_no_votar_2" receiver ∈
        program ∧ type.text = "Service, -" := by
  have homission : Keyword.IsOmission Char.isAlphanum "oír y no votar" :=
    .inr (.inr (.inr ⟨' ', rfl, Text.occurs_iff.mp (by decide)⟩))
  have hinstitution : landCompany.institution =
      some ⟨"Aporte", "contrato", .multiple, "derecho-civil"⟩ := rfl
  obtain ⟨-, -, program, hprogram, hassets⟩ :=
    polarity_iff_isOmission hinstitution Char.isAlphanum
  have hn : (⟨2, "junta", .obligation, "oír y no votar", some "el aporte", [], .authored⟩, 2) ∈
      landCompany.numberedNorms := by decide
  obtain ⟨type, receiver, hmem, -, htype⟩ := hassets _ hn
  have hservice : Norm.IsService ⟨2, "junta", .obligation, "oír y no votar", some "el aporte", [],
      .authored⟩ := (Classifier.normKind_byKeyword _).mp (by decide)
  have hnames : Identifier.normAsset "oír y no votar" 2 = "OrAsset2" ∧
      Identifier.subject "junta" = "JUNTA" ∧
      Identifier.actionText "oír y no votar" 2 = "o_r_y_no_votar_2" := by decide +kernel
  rw [hnames.1, hnames.2.1, hnames.2.2] at hmem
  exact ⟨homission, program, hprogram, type, receiver, hmem, htype.mpr ⟨hservice, .inl homission⟩⟩

/-- The first norm of the company does not name an omission, whatever the characters of words are,
as long as the letter `e` is one of them. Its asset is a service to refrain all the same. -/
theorem landCompany_refrains_from_cession :
    Keyword.polarity "ceder el terreno libre" = .negative ∧
    (∀ inWord : Char → Bool, inWord 'e' = true →
      ¬ Keyword.IsOmission inWord "ceder el terreno libre") ∧
    ∃ program, landCompany.program? .byKeyword = some program ∧
      Statement.asset "CederAsset1" ⟨.service, .negative⟩ "SOCIO" "ceder_el_terreno_libre_1" "JUNTA"
        ∈ program := by
  have hplace : (landCompany.program? .byKeyword).bind (·[13]?) =
      some (.asset "CederAsset1" ⟨.service, .negative⟩ "SOCIO" "ceder_el_terreno_libre_1"
        "JUNTA") := by decide +kernel
  obtain ⟨program, hprogram, hasset⟩ := Option.bind_eq_some_iff.mp hplace
  refine ⟨by decide, fun inWord he ↦ ?_, program, hprogram, List.mem_of_getElem? hasset⟩
  have hverbs : ∀ word ∈ ["abstenerse", "evitar"],
      ¬ word.toList <:+: "ceder el terreno libre".toList := by
    simp only [List.forall_mem_cons, ← Text.occurs_iff]
    decide
  -- The letter in front of the only `no` before a space is an `e`.
  have hbefore : "ceder el terreno libre".toList.all (fun c ↦ c == 'e' ||
      !Text.occurs (c :: "no ".toList) "ceder el terreno libre".toList) = true := by decide
  rintro (h | h | h | ⟨c, hc, h⟩)
  · exact hverbs _ (by simp) h
  · exact hverbs _ (by simp) h
  · exact absurd h (by decide)
  · have hmem : c ∈ "ceder el terreno libre".toList := h.subset List.mem_cons_self
    have hc' := List.all_eq_true.mp hbefore c hmem
    rw [Text.occurs_iff.mpr h, Bool.not_true, Bool.or_false, beq_iff_eq] at hc'
    rw [hc', he] at hc
    exact Bool.noConfusion hc

end Schema

end Normative
