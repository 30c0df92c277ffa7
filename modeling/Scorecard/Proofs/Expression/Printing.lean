import Scorecard.Formula.Printer
import Scorecard.Proofs.Decimal.RoundTrip
import Scorecard.Proofs.Expression.Acceptance

/-!
The texts of formulas, read again. The text of a formula whose metrics are identifiers and whose
constants are finite lexes to its keyword and one part for each of its arguments, and these derive the
formula. Everything that compiles is such a formula, so a compiled formula's text compiles to it again.
-/
namespace Scorecard

namespace Formula

/-- The numbers in a formula. -/
def constants : Formula → List Float
  | .average _ | .least _ | .greatest _ => []
  | .weightedSum weights => weights.entries.map (·.2)
  | .threshold _ bound _ => [bound]

/-- The parts of a formula's text. -/
def parts : Formula → List (List Expression.Symbol)
  | .average names | .least names | .greatest names => names.map fun name => [.identifier name]
  | .weightedSum weights =>
    weights.entries.map fun (name, weight) => [.identifier name, .colon, .number (Decimal.plain.write weight)]
  | .threshold name bound _ => [[.identifier name], [.number (Decimal.plain.write bound)]]

/-- The expression language spells the formula: it is of a kind that the language has, its metrics are
identifiers in upper case, and its constants are finite. -/
structure Spelled (f : Formula) : Prop where
  expression : f.hasExpression = true
  names : ∀ name, f.metrics.contains name = true → Expression.isIdentifier name = true
  constants : ∀ x ∈ f.constants, x.isFinite = true

end Formula

namespace Expression

open Formula (Spelled)

/-! ### Symbols of arguments -/

/-- What follows an argument of a call: a comma or the closing parenthesis. -/
def EndsArgument (rest : List Char) : Prop := ∃ c rest', rest = c :: rest' ∧ (c = ',' ∨ c = ')')

/-- The characters lex to the symbols, whatever follows the argument. -/
def Prints (cs : List Char) (ss : List Symbol) : Prop :=
  ∀ rest, EndsArgument rest → symbols (cs ++ rest) = ss ++ symbols rest

theorem EndsArgument.comma (rest : List Char) : EndsArgument (',' :: rest) := ⟨',', rest, rfl, .inl rfl⟩

theorem EndsArgument.closeParen (rest : List Char) : EndsArgument (')' :: rest) := ⟨')', rest, rfl, .inr rfl⟩

theorem EndsArgument.endsIdentifier {rest : List Char} (h : EndsArgument rest) : EndsPiece isIdentifierPart rest := by
  obtain ⟨c, rest, rfl, rfl | rfl⟩ := h
  all_goals
    rintro d ⟨⟩
    decide

theorem EndsArgument.endsNumber {rest : List Char} (h : EndsArgument rest) (last : Char) :
    EndsPiece (continuesNumber last) rest := by
  obtain ⟨c, rest, rfl, rfl | rfl⟩ := h
  · rintro d ⟨⟩
    exact (continuesNumber_delimiter last).1
  · rintro d ⟨⟩
    exact (continuesNumber_delimiter last).2

theorem prints_identifier {name : String} (h : isIdentifier name = true) : Prints name.toList [.identifier name] :=
  fun _ hrest => symbols_identifier h hrest.endsIdentifier

/-- A finite number is one symbol, its sign included. -/
theorem prints_number {x : Float} (h : x.isFinite = true) :
    Prints (Decimal.plain.write x).toList [.number (Decimal.plain.write x)] := by
  intro rest hrest
  obtain ⟨cs, d, htext, hplain, -⟩ := Decimal.exists_plain_write h
  obtain ⟨c, cs, rfl, hc, hcs⟩ := hplain.exists_cons
  have hparts : ∀ e ∈ cs, isPlainPart e = true := by
    intro e he
    rw [isPlainPart, Bool.or_eq_true, decide_eq_true_eq]
    exact hcs e he
  have hstart : isNumberStart c = true := by simp [isNumberStart, hc]
  have htext' : Decimal.plain.write x = String.ofList (Decimal.signChars x ++ c :: cs) := by
    rw [← htext, String.ofList_toList]
  rw [htext, htext', Decimal.signChars]
  cases Decimal.isNegative x with
  | false => exact symbols_number hstart hparts hrest.endsNumber
  | true =>
      refine symbols_number (c := '-') (by decide) (fun e he => ?_) hrest.endsNumber
      rcases List.mem_cons.mp he with rfl | he
      · rw [isPlainPart, hc, Bool.true_or]
      · exact hparts e he

theorem prints_weight {name : String} {x : Float} (hname : isIdentifier name = true) (hx : x.isFinite = true) :
    Prints (Formula.weightText name x).toList [.identifier name, .colon, .number (Decimal.plain.write x)] := by
  intro rest hrest
  have htext : (Formula.weightText name x).toList = name.toList ++ ':' :: ' ' :: (Decimal.plain.write x).toList := by
    simp [Formula.weightText, toString]
  have hcolon : EndsPiece isIdentifierPart (':' :: ' ' :: ((Decimal.plain.write x).toList ++ rest)) := by
    rintro d ⟨⟩
    decide
  rw [htext, List.append_assoc, List.cons_append, List.cons_append, symbols_identifier hname hcolon, symbols_colon,
    symbols_space, prints_number hx rest hrest]
  rfl

/-- Arguments with a comma and a blank between them are their symbols with a comma between them. -/
theorem symbols_intercalate {texts : List (List Char)} {ps : List (List Symbol)} (h : List.Forall₂ Prints texts ps) :
    symbols ([',', ' '].intercalate texts ++ [')']) = [Symbol.comma].intercalate ps ++ [.closeParen] := by
  induction h with
  | nil => simp
  | @cons cs ss texts ps hhead htail ih =>
      cases htail with
      | nil => simpa using hhead [')'] (.closeParen [])
      | @cons cs' ss' texts ps hhead' htail =>
          rw [List.intercalate_cons_cons, List.append_assoc, List.append_assoc]
          show symbols (cs ++ ',' :: ' ' :: ([',', ' '].intercalate (cs' :: texts) ++ [')'])) = _
          rw [hhead _ (.comma _), symbols_comma, symbols_space, ih, List.intercalate_cons_cons]
          simp

theorem symbols_call {kind : Formula.Kind} {arguments : List String} {ps : List (List Symbol)}
    (h : List.Forall₂ Prints (arguments.map String.toList) ps) :
    symbols (Formula.call kind arguments).toList =
      .identifier kind.keyword :: .openParen :: ([Symbol.comma].intercalate ps ++ [.closeParen]) := by
  have htext : (Formula.call kind arguments).toList =
      kind.keyword.toList ++ '(' :: ([',', ' '].intercalate (arguments.map String.toList) ++ [')']) := by
    simp [Formula.call, toString, String.toList_intercalate]
  have hkeyword : isIdentifier kind.keyword = true := by cases kind <;> decide
  have hparen (rest : List Char) : EndsPiece isIdentifierPart ('(' :: rest) := by
    rintro d ⟨⟩
    decide
  rw [htext, symbols_identifier hkeyword (hparen _), symbols_openParen, symbols_intercalate h]

/-! ### Symbols of formulas -/

theorem forall₂_prints_metrics {names : List String} (h : ∀ name ∈ names, isIdentifier name = true) :
    List.Forall₂ Prints (names.map String.toList) (names.map fun name => [.identifier name]) := by
  rw [List.forall₂_map_left_iff, List.forall₂_map_right_iff, List.forall₂_same]
  exact fun name hname => prints_identifier (h name hname)

/-- The text of a formula that the language spells lexes to its keyword and its parts. -/
theorem symbols_text {f : Formula} (h : Spelled f) :
    symbols f.text.toList =
      .identifier f.kind.keyword :: .openParen :: ([Symbol.comma].intercalate f.parts ++ [.closeParen]) := by
  obtain ⟨-, hnames, hconstants⟩ := h
  cases f with
  | average names | least names | greatest names =>
      refine symbols_call (forall₂_prints_metrics fun name hname => hnames name ?_)
      exact NameSet.contains_ofList.mpr hname
  | weightedSum weights =>
      refine symbols_call ?_
      rw [List.map_map, Formula.parts, List.forall₂_map_left_iff, List.forall₂_map_right_iff, List.forall₂_same]
      intro entry hentry
      refine prints_weight (hnames _ ?_) (hconstants _ (List.mem_map_of_mem hentry))
      exact NameSet.contains_ofList.mpr (List.mem_map_of_mem hentry)
  | threshold name bound comparison =>
      refine symbols_call (.cons (prints_identifier (hnames name ?_)) (.cons (prints_number (hconstants bound ?_)) .nil))
      · exact NameSet.contains_ofList.mpr (List.mem_singleton.mpr rfl)
      · exact List.mem_singleton.mpr rfl

/-- The parts of a formula that the language spells are the arguments that make it. -/
theorem arguments_parts {f : Formula} (h : Spelled f) : Arguments f.parts f := by
  obtain ⟨hexpression, hnames, hconstants⟩ := h
  cases f with
  | average names => exact .average (by simpa [Formula.hasExpression] using hexpression)
  | least names => exact .least (by simpa [Formula.hasExpression] using hexpression)
  | greatest names => exact .greatest (by simpa [Formula.hasExpression] using hexpression)
  | weightedSum weights =>
      have hne : weights.entries ≠ [] := by simpa [Formula.hasExpression, Table.isEmpty] using hexpression
      have hweights : List.Forall₂ IsWeight (Formula.weightedSum weights).parts weights.entries := by
        rw [Formula.parts, List.forall₂_map_left_iff, List.forall₂_same]
        intro entry hentry
        have hfinite := hconstants _ (List.mem_map_of_mem hentry)
        exact ⟨_, rfl, Decimal.read_write hfinite, hfinite⟩
      have harguments := Arguments.weightedSum hne hweights weights.nodup_keys
      rwa [Table.ofList_entries] at harguments
  | threshold name bound comparison =>
      obtain rfl : comparison = .atLeast := by simpa [Formula.hasExpression] using hexpression
      have hfinite := hconstants bound (List.mem_singleton.mpr rfl)
      exact .threshold ⟨Decimal.read_write hfinite, hfinite⟩

/-! ### Derivations of formulas -/

theorem mem_intercalate {s c : Symbol} {ps : List (List Symbol)} (h : s ∈ [c].intercalate ps) :
    s = c ∨ ∃ p ∈ ps, s ∈ p := by
  induction ps with
  | nil => simp at h
  | cons p ps ih =>
      cases ps with
      | nil => exact .inr ⟨p, List.mem_cons_self, by simpa using h⟩
      | cons q qs =>
          rw [List.intercalate_cons_cons, List.append_assoc, List.mem_append, List.mem_append, List.mem_singleton] at h
          rcases h with h | h | h
          · exact .inr ⟨p, List.mem_cons_self, h⟩
          · exact .inl h
          · exact (ih h).imp_right fun ⟨r, hr, hs⟩ => ⟨r, List.mem_cons_of_mem _ hr, hs⟩

/-- What stands between two commas: something, without commas and parentheses. -/
def IsPart (p : List Symbol) : Prop := p ≠ [] ∧ ∀ s ∈ p, s.isInner = true ∧ s ≠ .comma

theorem Arguments.isPart {ps : List (List Symbol)} {f : Formula} (h : Arguments ps f) : ps ≠ [] ∧ ∀ p ∈ ps, IsPart p := by
  have hmetrics {names : List String} (hne : names ≠ []) :
      (names.map fun name => [Symbol.identifier name]) ≠ [] ∧
        ∀ p ∈ names.map fun name => [Symbol.identifier name], IsPart p := by
    refine ⟨mt List.map_eq_nil_iff.mp hne, List.forall_mem_map.mpr fun name _ => ?_⟩
    simp [IsPart, Symbol.isInner]
  cases h with
  | average hne | least hne | greatest hne => exact hmetrics hne
  | threshold _ => simp [IsPart, Symbol.isInner]
  | weightedSum hne hweights _ =>
      refine ⟨fun hnil => hne ?_, ((List.forall₂_and_left _ _).mp (hweights.imp fun p entry hweight => ⟨?_, hweight⟩)).1⟩
      · rw [hnil] at hweights
        exact List.forall₂_nil_left_iff.mp hweights
      · obtain ⟨text, rfl, -⟩ := hweight
        simp [IsPart, Symbol.isInner]

/-- Arguments with commas between them, in parentheses behind the keyword, derive their formula. -/
theorem Arguments.derives {known : Metric.Registry} {ps : List (List Symbol)} {f : Formula} (h : Arguments ps f)
    (hknown : ∀ name, f.metrics.contains name = true → known.names.contains name = true) :
    Derives known (.identifier f.kind.keyword :: .openParen :: ([Symbol.comma].intercalate ps ++ [.closeParen]))
      ⟨f, f.metrics⟩ := by
  obtain ⟨hne, hparts⟩ := h.isPart
  have hsplit : parts ([Symbol.comma].intercalate ps) = ps :=
    parts_intercalate hne (fun p hp => (hparts p hp).1) fun p hp hcomma => ((hparts p hp).2 _ hcomma).2 rfl
  have hmetrics : f.metrics = NameSet.ofList (identifiers ([Symbol.comma].intercalate ps)) := by
    rw [← h.ofList_identifiers, ← identifiers_parts, hsplit]
  rw [hmetrics]
  refine .call (fun s hs => ?_) (hsplit.symm ▸ h) fun name hname => hknown name ?_
  · rcases mem_intercalate hs with rfl | ⟨p, hp, hs⟩
    · rfl
    · exact ((hparts p hp).2 s hs).1
  · rw [hmetrics]
    exact NameSet.contains_ofList.mpr hname

/-- The text of a formula that the language spells compiles to the formula, if its metrics are known. -/
theorem compile_text_of_spelled {known : Metric.Registry} {f : Formula} (h : Spelled f)
    (hknown : ∀ name, f.metrics.contains name = true → known.names.contains name = true) :
    compile known f.text = .ok ⟨f, f.metrics⟩ := by
  rw [compile_eq_ok_iff_derives, map_symbol_tokens, symbols_text h]
  exact (arguments_parts h).derives hknown

/-! ### What compiles -/

theorem hasExpression_of_arguments {ps : List (List Symbol)} {f : Formula} (h : Arguments ps f) :
    f.hasExpression = true := by
  cases h with
  | average hne | least hne | greatest hne => simp [Formula.hasExpression, hne]
  | threshold _ => rfl
  | @weightedSum _ weights hne _ _ =>
      obtain ⟨entry, rest, rfl⟩ := List.exists_cons_of_ne_nil hne
      have hcontains : (Table.ofList (entry :: rest)).contains entry.1 = true :=
        Table.contains_ofList.mpr List.mem_cons_self
      have hmem := Table.contains_iff_mem_keys.mp hcontains
      rw [Formula.hasExpression, Table.isEmpty]
      cases hentries : (Table.ofList (entry :: rest)).entries with
      | nil => simp [Table.keys, hentries] at hmem
      | cons _ _ => rfl

theorem isFinite_of_arguments {ps : List (List Symbol)} {f : Formula} (h : Arguments ps f) :
    ∀ x ∈ f.constants, x.isFinite = true := by
  cases h with
  | average _ | least _ | greatest _ => exact fun x hx => absurd hx List.not_mem_nil
  | threshold hspells =>
      intro x hx
      rw [List.mem_singleton.mp hx]
      exact hspells.2
  | @weightedSum _ weights _ hweights hdistinct =>
      have hfinite : ∀ entry ∈ weights, entry.2.isFinite = true :=
        ((List.forall₂_and_left weights ps).mp
          (List.Forall₂.flip (hweights.imp fun p entry hweight => ⟨hweight.choose_spec.2.2, hweight⟩))).1
      intro x hx
      obtain ⟨⟨name, weight⟩, hentry, rfl⟩ := List.mem_map.mp hx
      rw [Table.mem_entries_iff, Table.get?_ofList_eq_some_iff hdistinct] at hentry
      exact hfinite _ hentry

/-- Only formulas that the language spells come from texts, and only with known metrics. -/
theorem spelled_of_compile {known : Metric.Registry} {text : String} {c : Compiled} (h : compile known text = .ok c) :
    Spelled c.formula ∧ c = ⟨c.formula, c.formula.metrics⟩ ∧
      ∀ name, c.formula.metrics.contains name = true → known.names.contains name = true := by
  have hderives := compile_eq_ok_iff_derives.mp h
  have hlexed := lexed_tokens text
  have hreferences := hderives.references_eq
  generalize (tokens text).map (·.symbol) = ss at hderives hlexed
  cases hderives with
  | @call f inner hinner harguments hknown =>
      change NameSet.ofList (identifiers inner) = f.metrics at hreferences
      have hmem {name : String} (hname : f.metrics.contains name = true) : name ∈ identifiers inner := by
        rw [← hreferences] at hname
        exact NameSet.contains_ofList.mp hname
      refine ⟨⟨hasExpression_of_arguments harguments, fun name hname => ?_, isFinite_of_arguments harguments⟩, ?_, ?_⟩
      · obtain ⟨s, hs, hsome⟩ := List.mem_filterMap.mp (hmem hname)
        cases s with
        | identifier name' =>
            obtain rfl : name' = name := Option.some.inj hsome
            refine hlexed name' ?_
            simp [hs]
        | _ => cases hsome
      · rw [hreferences]
      · exact fun name hname => hknown name (hmem hname)

end Expression

end Scorecard
