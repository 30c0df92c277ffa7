import Scorecard.Kpi.Specification
import Scorecard.Proofs.Expression.Diagnosis

/-!
What specifications come to. The type that is detected in a text is told by its first letters, and the formula that
is compiled from it by its first token; where the text compiles the two agree, since a keyword is spelled in letters
that blanks and upper-casing leave alone and no keyword is the beginning of another. A specification is resolved by
the first of its expression, its formula and its type that is there, and by that one only.
-/
namespace Scorecard

namespace Expression

/-! ### The first word of a text -/

/-- An identifier at the start of the symbols is a word at the start of the text, behind blanks. -/
theorem exists_word_of_symbols {cs : List Char} {name : String} {ss : List Symbol}
    (h : symbols cs = .identifier name :: ss) :
    ∃ blanks word rest, cs = blanks ++ (word ++ rest) ∧ (∀ c ∈ blanks, Text.isBlank c = true) ∧ word ≠ [] ∧
      (∀ c ∈ word, isIdentifierPart c = true) ∧ Text.upper (String.ofList word) = name := by
  induction cs with
  | nil =>
      rw [symbols_nil] at h
      cases h
  | cons c cs ih =>
      cases hblank : Text.isBlank c with
      | true =>
          rw [symbols_cons_of_isBlank hblank] at h
          obtain ⟨blanks, word, rest, rfl, hblanks, hword⟩ := ih h
          exact ⟨c :: blanks, word, rest, rfl, List.forall_mem_cons.mpr ⟨hblank, hblanks⟩, hword⟩
      | false =>
          rw [symbols_cons hblank] at h
          have hsymbol := (List.cons.inj h).1
          unfold symbolOf at hsymbol
          split at hsymbol
          · next hstart =>
              have htail : ∀ d ∈ (splitPiece c cs).1, isIdentifierPart d = true := by
                rw [splitPiece, if_pos hstart]
                exact fun d hd => List.mem_takeWhile_imp hd
              refine ⟨[], c :: (splitPiece c cs).1, (splitPiece c cs).2, ?_, List.forall_mem_nil _, List.cons_ne_nil _ _,
                List.forall_mem_cons.mpr ⟨isIdentifierPart_of_start hstart, htail⟩, Symbol.identifier.inj hsymbol⟩
              rw [List.nil_append, List.cons_append, splitPiece_append]
          · split_ifs at hsymbol

end Expression

namespace Text

/-- Trimming cuts nothing off a text without blanks, whatever stands behind it. -/
theorem exists_trimChars_append {front word : List Char} (hfront : ∀ c ∈ front, isBlank c = true) (hne : word ≠ [])
    (hword : ∀ c ∈ word, isBlank c = false) (rest : List Char) :
    ∃ tail, trimChars (front ++ (word ++ rest)) = word ++ tail := by
  have hback : ∀ c ∈ rest.rtakeWhile isBlank, isBlank c = true := fun c hc => List.mem_rtakeWhile_imp hc
  have htrimmed : Trimmed (word ++ rest.rdropWhile isBlank) := by
    constructor
    · intro c hc
      rw [List.head?_append_of_ne_nil _ hne] at hc
      exact hword c (List.mem_of_mem_head? hc)
    · intro c hc
      cases hlast : rest.rdropWhile isBlank with
      | nil =>
          rw [hlast, List.append_nil] at hc
          exact hword c (List.mem_of_getLast? hc)
      | cons d ds =>
          rw [List.getLast?_append_of_ne_nil _ (by rw [hlast]; exact List.cons_ne_nil d ds)] at hc
          obtain ⟨hne', rfl⟩ := List.mem_getLast?_eq_getLast hc
          exact eq_false_of_ne_true (List.rdropWhile_last_not isBlank rest hne')
  refine ⟨rest.rdropWhile isBlank, ?_⟩
  rw [← trimChars_of_trimmed htrimmed, ← trimChars_padded hfront hback (word ++ rest.rdropWhile isBlank)]
  simp only [List.append_assoc, List.rdropWhile_append_rtakeWhile]

end Text

namespace Formula.Kind

/-- No keyword is the beginning of another. -/
theorem eq_of_keyword_prefix {kind kind' : Kind} {cs : List Char} (h : kind.keyword.toList <+: cs)
    (h' : kind'.keyword.toList <+: cs) : kind = kind' := by
  have hall : ∀ kind kind' : Kind, kind.keyword.toList <+: kind'.keyword.toList → kind = kind' := by
    intro kind kind'
    cases kind <;> cases kind' <;> decide
  rcases List.prefix_or_prefix_of_prefix h h' with hprefix | hprefix
  · exact hall kind kind' hprefix
  · exact (hall kind' kind hprefix).symm

theorem keyword_injective : Function.Injective keyword := by
  intro kind kind' h
  have hprefix : kind.keyword.toList <+: kind'.keyword.toList := by rw [h]
  exact eq_of_keyword_prefix hprefix List.prefix_rfl

end Formula.Kind

namespace Kpi.Specification

open Expression (Compiled IsBlank compile)

variable {known : Metric.Registry} {text : String} {c : Compiled}

/-! ### The type that is detected -/

/-- The type that is detected is a keyword that the text begins with, and there is no choice of keywords. -/
theorem detectType_of_prefix {kind : Formula.Kind}
    (h : kind.keyword.toList <+: (Text.upper (Text.trim text)).toList) : detectType text = kind.keyword := by
  unfold detectType
  generalize (Text.upper (Text.trim text)).toList = cs at h ⊢
  cases hfind : Formula.Kind.all.find? fun kind => kind.keyword.toList.isPrefixOf cs with
  | none =>
      have hmem : kind ∈ Formula.Kind.all := by cases kind <;> decide
      have hnone := List.find?_eq_none.mp hfind kind hmem
      exact absurd (List.isPrefixOf_iff_prefix.mpr h) hnone
  | some found =>
      have hsome := List.find?_some hfind
      have hfound := List.isPrefixOf_iff_prefix.mp hsome
      rw [Formula.Kind.eq_of_keyword_prefix hfound h] at hfind
      simp only [hfind]

/-- The two readers of a text agree: what it compiles to is of the kind that its first letters tell. -/
theorem detectType_of_compile (h : compile known text = .ok c) : detectType text = c.formula.kind.keyword := by
  apply detectType_of_prefix
  have hderives := Expression.compile_eq_ok_iff_derives.mp h
  rw [Expression.map_symbol_tokens] at hderives
  generalize hsymbols : Expression.symbols text.toList = ss at hderives
  cases hderives with
  | @call f inner hinner harguments hknown =>
      obtain ⟨blanks, word, rest, htext, hblanks, hne, hword, hname⟩ := Expression.exists_word_of_symbols hsymbols
      obtain ⟨tail, htrim⟩ := Text.exists_trimChars_append hblanks hne
        (fun c hc => Expression.isBlank_of_isIdentifierPart (hword c hc)) rest
      rw [← hname, Text.trim, htext, htrim, Text.upper, Text.upper, String.toList_ofList, String.toList_ofList,
        String.toList_ofList, String.toList_ofList, List.flatMap_append]
      exact List.prefix_append _ _

theorem keyword_ne_custom (kind : Formula.Kind) : kind.keyword ≠ "CUSTOM" := by
  cases kind <;> decide

/-! ### Specifications made of a text -/

/-- What holds of the specifications that are made of a text: there are any if the text compiles, they carry the
keyword of its formula unless told otherwise, and whatever they carry they come to its formula. -/
structure Describes (known : Metric.Registry) (text : String) : Prop where
  created (formulaType : Option String) :
    (∃ s, create known text formulaType = .ok s) ↔ ∃ c, compile known text = .ok c
  refused (formulaType : Option String) (faults : List Expression.Fault) :
    create known text formulaType = .error (.faulty faults) ↔ compile known text = .error faults
  detected {s : Specification} {c : Compiled} (hs : create known text none = .ok s) (hc : compile known text = .ok c) :
    s.formulaType = some c.formula.kind.keyword ∧ s.formulaType ≠ some "CUSTOM" ∧
      ∀ kind : Formula.Kind, s.formulaType = some kind.keyword → kind = c.formula.kind
  built {s : Specification} {c : Compiled} {formulaType : Option String} (hs : create known text formulaType = .ok s)
    (hc : compile known text = .ok c) : formulaOf known text = .ok c.formula ∧ s.build known = .ok c.formula

theorem not_isBlank_of_compile (h : compile known text = .ok c) : ¬IsBlank text := by
  intro hblank
  rw [Expression.compile_of_tokens_eq_nil (Expression.tokens_eq_nil_iff.mpr hblank)] at h
  cases h

theorem create_of_compile (h : compile known text = .ok c) (formulaType : Option String) :
    create known text formulaType = .ok (ofExpression text (some (formulaType.getD (detectType text)))) := by
  rw [create, h]

theorem create_of_faults {faults : List Expression.Fault} (h : compile known text = .error faults)
    (formulaType : Option String) : create known text formulaType = .error (.faulty faults) := by
  rw [create, h]

/-! ### What a specification goes by -/

/-- A text that is not there, or that is there and blank. -/
def Missing (text : Option String) : Prop := ∀ t ∈ text, IsBlank t

variable {s : Specification}

theorem basis_of_expression (h : s.expression = some text) (htext : ¬IsBlank text) : s.basis = .expression text := by
  have hblank : ¬Text.isBlankText text = true := fun hall => htext (List.all_eq_true.mp hall)
  simp only [basis, h, if_neg hblank]

theorem basis_of_missing (h : Missing s.expression) : s.basis = s.fallback := by
  unfold basis
  cases hexpression : s.expression with
  | none => rfl
  | some text =>
      have hblank : Text.isBlankText text = true := List.all_eq_true.mpr (h text hexpression)
      simp only [hblank, if_true]

theorem fallback_of_formula {f : Formula} (h : s.formula = some f) : s.fallback = .formula f := by
  simp only [fallback, h]

theorem fallback_of_type {formulaType : String} (hformula : s.formula = none) (h : s.formulaType = some formulaType)
    (htype : ¬IsBlank formulaType) : s.fallback = .expression (defaultExpression (Text.trim formulaType)) := by
  have hne : Text.trim formulaType ≠ "" := fun hempty =>
    htype (Expression.isEmpty_trim_iff.mp (String.isEmpty_iff.mpr hempty))
  simp only [fallback, hformula, h, Option.map_some, if_neg hne]

theorem fallback_of_missing (hformula : s.formula = none) (h : Missing s.formulaType) : s.fallback = .nothing := by
  cases htype : s.formulaType with
  | none => simp only [fallback, hformula, htype, Option.map_none]
  | some formulaType =>
      have hempty := String.isEmpty_iff.mp (Expression.isEmpty_trim_iff.mpr (h formulaType htype))
      simp only [fallback, hformula, htype, Option.map_some, if_pos hempty]

theorem formulaOf_of_compile (h : compile known text = .ok c) : formulaOf known text = .ok c.formula := by
  rw [formulaOf, h]

theorem formulaOf_ne_incomplete (known : Metric.Registry) (text : String) :
    formulaOf known text ≠ .error .incomplete := by
  unfold formulaOf
  split <;> exact fun h => by cases h

/-- What a specification comes to: the first of its expression, its formula and its type that is there decides, and
what stands behind it is of no account. -/
structure Resolves (known : Metric.Registry) (s : Specification) : Prop where
  byExpression {text : String} (h : s.expression = some text) (htext : ¬IsBlank text) :
    s.build known = formulaOf known text
  byFormula {f : Formula} (hexpression : Missing s.expression) (h : s.formula = some f) : s.build known = .ok f
  byType {formulaType : String} (hexpression : Missing s.expression) (hformula : s.formula = none)
    (h : s.formulaType = some formulaType) (htype : ¬IsBlank formulaType) :
    s.build known = formulaOf known (defaultExpression (Text.trim formulaType))
  incomplete : s.build known = .error .incomplete ↔
    Missing s.expression ∧ s.formula = none ∧ Missing s.formulaType

theorem resolves (known : Metric.Registry) (s : Specification) : Resolves known s := by
  have hexpression {text : String} (h : s.expression = some text) (htext : ¬IsBlank text) :
      s.build known = formulaOf known text := by
    rw [build, basis_of_expression h htext]
  have hformula {f : Formula} (hmissing : Missing s.expression) (h : s.formula = some f) : s.build known = .ok f := by
    rw [build, basis_of_missing hmissing, fallback_of_formula h]
  have htype {formulaType : String} (hmissing : Missing s.expression) (hnone : s.formula = none)
      (h : s.formulaType = some formulaType) (htype : ¬IsBlank formulaType) :
      s.build known = formulaOf known (defaultExpression (Text.trim formulaType)) := by
    rw [build, basis_of_missing hmissing, fallback_of_type hnone h htype]
  refine ⟨hexpression, hformula, htype, ?_, ?_⟩
  · -- Each of the three would have come to something else.
    intro hincomplete
    have hmissing : Missing s.expression := by
      intro text htext
      by_contra hblank
      exact formulaOf_ne_incomplete known text ((hexpression htext hblank).symm.trans hincomplete)
    have hnone : s.formula = none := by
      by_contra hsome
      obtain ⟨f, hf⟩ := Option.ne_none_iff_exists'.mp hsome
      cases (hformula hmissing hf).symm.trans hincomplete
    refine ⟨hmissing, hnone, fun formulaType h => ?_⟩
    by_contra hblank
    exact formulaOf_ne_incomplete known _ ((htype hmissing hnone h hblank).symm.trans hincomplete)
  · rintro ⟨hmissing, hnone, hblank⟩
    rw [build, basis_of_missing hmissing, fallback_of_missing hnone hblank]

theorem describes (known : Metric.Registry) (text : String) : Describes known text := by
  constructor
  · intro formulaType
    constructor
    · rintro ⟨s, hs⟩
      cases hcompile : compile known text with
      | ok c => exact ⟨c, rfl⟩
      | error faults => cases (create_of_faults hcompile formulaType).symm.trans hs
    · rintro ⟨c, hc⟩
      exact ⟨_, create_of_compile hc formulaType⟩
  · intro formulaType faults
    constructor
    · intro hs
      cases hcompile : compile known text with
      | ok c => cases (create_of_compile hcompile formulaType).symm.trans hs
      | error faults' =>
          cases (create_of_faults hcompile formulaType).symm.trans hs
          rfl
    · intro h
      exact create_of_faults h formulaType
  · intro s c hs hc
    have hdetected := create_of_compile hc none
    rw [Option.getD_none, detectType_of_compile hc] at hdetected
    cases hdetected.symm.trans hs
    refine ⟨rfl, fun hcustom => keyword_ne_custom _ (Option.some.inj hcustom), fun kind hkind => ?_⟩
    exact (Formula.Kind.keyword_injective (Option.some.inj hkind)).symm
  · intro s c formulaType hs hc
    cases (create_of_compile hc formulaType).symm.trans hs
    have hformula := formulaOf_of_compile hc
    exact ⟨hformula, ((resolves known _).byExpression rfl (not_isBlank_of_compile hc)).trans hformula⟩

/-- A specification made of a text describes the formula that the text compiles to, and every specification comes to
what its expression, its formula or its type says, in this order. -/
theorem created_and_resolved (known : Metric.Registry) :
    (∀ text, Describes known text) ∧ ∀ s, Resolves known s :=
  ⟨describes known, resolves known⟩

end Kpi.Specification

end Scorecard
