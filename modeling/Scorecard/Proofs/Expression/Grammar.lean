import Mathlib
import Scorecard.Expression.Compile
import Scorecard.Proofs.Expression.Lexing

/-!
The grammar of expressions, on the symbols of a text. A call is a keyword with symbols in one pair of
parentheses; the commas split what is inside into parts, and each keyword gives its parts one shape.
The grammar says nothing of places, of faults or of the order in which a text is read. Beside it
stands what the reader of calls makes of tokens, so that the two can be compared.
-/
namespace Scorecard.Expression

/-- A symbol that may stand between the parentheses of a call. -/
def Symbol.isInner : Symbol → Bool
  | .openParen | .closeParen | .stray _ => false
  | .identifier _ | .number _ | .comma | .colon => true

/-- What the commas leave of the symbols of a call. Where there are no symbols, there are no parts. -/
def parts (inner : List Symbol) : List (List Symbol) := if inner = [] then [] else inner.splitOn .comma

def Symbol.name? : Symbol → Option String
  | .identifier name => some name
  | _ => none

/-- The names of the identifiers among symbols, in their order. -/
def identifiers (inner : List Symbol) : List String := inner.filterMap Symbol.name?

/-- The text of a number is read as the finite number `x`. -/
def Spells (text : String) (x : Float) : Prop := Decimal.read text = .ok x ∧ x.isFinite = true

/-- A metric, a colon and the text of its weight. -/
def IsWeight (part : List Symbol) (entry : String × Float) : Prop :=
  ∃ text, part = [.identifier entry.1, .colon, .number text] ∧ Spells text entry.2

/-- The parts of a call that make a formula. -/
inductive Arguments : List (List Symbol) → Formula → Prop
  | average {names : List String} (hnames : names ≠ []) :
      Arguments (names.map fun name => [.identifier name]) (.average names)
  | least {names : List String} (hnames : names ≠ []) :
      Arguments (names.map fun name => [.identifier name]) (.least names)
  | greatest {names : List String} (hnames : names ≠ []) :
      Arguments (names.map fun name => [.identifier name]) (.greatest names)
  | weightedSum {ps : List (List Symbol)} {weights : List (String × Float)} (hweights : weights ≠ [])
      (hparts : List.Forall₂ IsWeight ps weights) (hdistinct : (weights.map (·.1)).Nodup) :
      Arguments ps (.weightedSum (Table.ofList weights))
  | threshold {name text : String} {bound : Float} (hbound : Spells text bound) :
      Arguments [[.identifier name], [.number text]] (.threshold name bound .atLeast)

/-- The symbols that make a compiled expression: the keyword of the formula, and in parentheses its
arguments, whose metrics are all known. -/
inductive Derives (known : Metric.Registry) : List Symbol → Compiled → Prop
  | call {f : Formula} {inner : List Symbol} (hinner : ∀ s ∈ inner, s.isInner = true)
      (harguments : Arguments (parts inner) f)
      (hknown : ∀ name ∈ identifiers inner, known.names.contains name = true) :
      Derives known (.identifier f.kind.keyword :: .openParen :: (inner ++ [.closeParen]))
        ⟨f, NameSet.ofList (identifiers inner)⟩

/-! ### Parts -/

/-- Commas join the parts again. -/
theorem intercalate_parts (inner : List Symbol) : [Symbol.comma].intercalate (parts inner) = inner := by
  unfold parts
  split
  · rename_i h
    rw [h]
    rfl
  · exact List.intercalate_splitOn ..

/-- Splitting at commas loses commas only. -/
theorem identifiers_parts (inner : List Symbol) : (parts inner).flatMap identifiers = identifiers inner := by
  have hjoin (ps : List (List Symbol)) : identifiers ([Symbol.comma].intercalate ps) = ps.flatMap identifiers := by
    induction ps with
    | nil => rfl
    | cons p ps ih =>
        cases ps with
        | nil => simp [identifiers]
        | cons q qs =>
            rw [List.intercalate_cons_cons, List.flatMap_cons, ← ih]
            simp [identifiers, List.filterMap_append, List.filterMap_cons, Symbol.name?]
  rw [← hjoin, intercalate_parts]

/-- Parts that hold no comma come back from the symbols that commas join them to. -/
theorem parts_intercalate {ps : List (List Symbol)} (hps : ps ≠ []) (hne : ∀ p ∈ ps, p ≠ [])
    (hcomma : ∀ p ∈ ps, .comma ∉ p) : parts ([Symbol.comma].intercalate ps) = ps := by
  have hinner : [Symbol.comma].intercalate ps ≠ [] := by
    cases ps with
    | nil => exact absurd rfl hps
    | cons p ps =>
        have hp := hne p List.mem_cons_self
        cases ps with
        | nil => simpa using hp
        | cons q qs => simp [List.intercalate_cons_cons, hp]
  rw [parts, if_neg hinner, List.splitOn_intercalate _ hcomma hps]

theorem flatMap_identifiers_metrics (names : List String) :
    (names.map fun name => [Symbol.identifier name]).flatMap identifiers = names := by
  induction names with
  | nil => rfl
  | cons name names ih =>
      rw [List.map_cons, List.flatMap_cons, ih]
      rfl

theorem flatMap_identifiers_weights {ps : List (List Symbol)} {weights : List (String × Float)}
    (h : List.Forall₂ IsWeight ps weights) : ps.flatMap identifiers = weights.map (·.1) := by
  induction h with
  | nil => rfl
  | cons hweight _ ih =>
      obtain ⟨text, rfl, -⟩ := hweight
      rw [List.flatMap_cons, ih]
      rfl

def Argument.symbols (a : Argument) : List Symbol := a.tokens.map (·.symbol)

theorem Argument.tokens_ofTokens (ts : List Token) (p : Position) : (Argument.ofTokens ts p).tokens = ts := by
  cases ts <;> rfl

theorem map_symbols_splitArguments (pending : List Token) (closing : Position) (ts : List Token) :
    (splitArguments pending closing ts).map Argument.symbols =
      (ts.map (·.symbol)).splitOnPPrepend (· == .comma) (pending.map (·.symbol)) := by
  induction ts generalizing pending with
  | nil => simp [splitArguments, Argument.symbols, Argument.tokens_ofTokens]
  | cons t ts ih =>
      rw [splitArguments, List.map_cons, List.splitOnPPrepend_cons_eq_if]
      by_cases h : t.symbol = .comma
      · rw [if_pos h, if_pos (by simp [h]), List.map_cons, ih []]
        simp [Argument.symbols, Argument.tokens_ofTokens]
      · rw [if_neg h, if_neg (by simp [h]), ih (t :: pending), List.map_cons]

/-- The arguments of a call are the parts of its symbols. -/
theorem map_symbols_argumentsOf (inner : List Token) (closing : Position) :
    (argumentsOf inner closing).map Argument.symbols = parts (inner.map (·.symbol)) := by
  unfold argumentsOf parts
  cases inner with
  | nil => rfl
  | cons t ts => simp [map_symbols_splitArguments, List.splitOn_eq_splitOnP]

/-! ### Calls -/

theorem splitBody_cons_of_isInner {t : Token} (h : t.symbol.isInner = true) (last : Position) (ts : List Token) :
    splitBody last (t :: ts) =
      (splitBody t.position ts).map fun (inner, closing, rest) => (t :: inner, closing, rest) := by
  obtain ⟨symbol, p⟩ := t
  cases symbol with
  | openParen | closeParen | stray c => simp [Symbol.isInner] at h
  | identifier _ | number _ | comma | colon => rfl

/-- The body of a call is what stands before its first closing parenthesis, if nothing there is an
opening parenthesis or a stray character. -/
theorem splitBody_eq_ok_iff {last closing : Position} {ts inner rest : List Token} :
    splitBody last ts = .ok (inner, closing, rest) ↔
      (∀ t ∈ inner, t.symbol.isInner = true) ∧ ts = inner ++ ⟨.closeParen, closing⟩ :: rest := by
  induction ts generalizing last inner with
  | nil => simp [splitBody]
  | cons t ts ih =>
      by_cases ht : t.symbol.isInner = true
      · rw [splitBody_cons_of_isInner ht]
        cases inner with
        | nil =>
            have hne : t ≠ ⟨.closeParen, closing⟩ := by
              rintro rfl
              simp [Symbol.isInner] at ht
            cases splitBody t.position ts <;> simp [Except.map, hne]
        | cons u us =>
            have hstep : (splitBody t.position ts).map (fun (inner, closing, rest) => (t :: inner, closing, rest)) =
                .ok (u :: us, closing, rest) ↔ t = u ∧ splitBody t.position ts = .ok (us, closing, rest) := by
              cases splitBody t.position ts with
              | error e => simp [Except.map]
              | ok r => simp [Except.map, Prod.ext_iff, and_assoc]
            rw [hstep, ih, List.cons_append, List.cons.injEq, List.forall_mem_cons]
            constructor
            · rintro ⟨rfl, hus, rfl⟩
              exact ⟨⟨ht, hus⟩, rfl, rfl⟩
            · rintro ⟨⟨-, hus⟩, rfl, rfl⟩
              exact ⟨rfl, hus, rfl⟩
      · cases inner with
        | cons u us =>
            have hne : ∀ rest, ¬splitBody last (t :: ts) = .ok (u :: us, closing, rest) := by
              obtain ⟨symbol, p⟩ := t
              cases symbol <;> simp [splitBody, Symbol.isInner] at ht ⊢
            refine ⟨fun h => absurd h (hne rest), ?_⟩
            rintro ⟨hinner, heq⟩
            obtain ⟨rfl, -⟩ := List.cons.inj heq
            exact absurd (hinner _ List.mem_cons_self) ht
        | nil =>
            obtain ⟨symbol, p⟩ := t
            cases symbol <;> simp [splitBody, Symbol.isInner] at ht ⊢

theorem kindOf_eq_ok_iff {head : Token} {kind : Formula.Kind} :
    kindOf head = .ok kind ↔ ∃ word, head.symbol = .identifier word ∧ Formula.Kind.ofKeyword? word = some kind := by
  unfold kindOf
  cases head.symbol with
  | identifier word => cases h : Formula.Kind.ofKeyword? word <;> simp [h]
  | _ => simp

/-- A keyword is spelled in one way among identifiers in upper case. -/
theorem ofKeyword?_eq_some_iff {word : String} (hword : isIdentifier word = true) {kind : Formula.Kind} :
    Formula.Kind.ofKeyword? word = some kind ↔ word = kind.keyword := by
  have hupper : word.map Char.toUpper = word := by
    apply String.toList_inj.mp
    rw [String.toList_map]
    exact map_toUpper_of_isIdentifierChars hword
  constructor
  · intro h
    have := List.find?_some h
    rw [hupper, beq_iff_eq] at this
    exact this.symm
  · rintro rfl
    exact Formula.Kind.ofKeyword?_keyword kind

/-- The tokens of a call: a keyword, and in parentheses symbols that may stand there, at the end. -/
theorem Call.ofTokens_eq_ok_iff {head : Token} {rest : List Token} {call : Call} :
    Call.ofTokens head rest = .ok call ↔
      ∃ inner closing, kindOf head = .ok call.kind ∧
        rest = ⟨.openParen, call.opening⟩ :: (inner ++ [⟨.closeParen, closing⟩]) ∧
          (∀ t ∈ inner, t.symbol.isInner = true) ∧ call.arguments = argumentsOf inner closing := by
  unfold Call.ofTokens
  cases hkind : kindOf head with
  | error e => simp [bind, Except.bind]
  | ok kind =>
      cases rest with
      | nil => simp [bind, Except.bind]
      | cons paren body =>
          obtain ⟨symbol, opening⟩ := paren
          by_cases hparen : symbol = .openParen
          · subst hparen
            constructor
            · intro h
              simp only [bind, Except.bind, if_true] at h
              cases hbody : splitBody opening body with
              | error e => simp [hbody] at h
              | ok split =>
                  obtain ⟨inner, closing, trailing⟩ := split
                  cases trailing with
                  | cons t ts => simp [hbody] at h
                  | nil =>
                      simp only [hbody, Except.ok.injEq] at h
                      subst h
                      obtain ⟨hinner, rfl⟩ := splitBody_eq_ok_iff.mp hbody
                      exact ⟨inner, closing, rfl, rfl, hinner, rfl⟩
            · rintro ⟨inner, closing, hk, hrest, hinner, harguments⟩
              obtain ⟨hopening, rfl⟩ := List.cons.inj hrest
              have hbody : splitBody opening (inner ++ [⟨.closeParen, closing⟩]) = .ok (inner, closing, []) :=
                splitBody_eq_ok_iff.mpr ⟨hinner, rfl⟩
              obtain ⟨-, rfl⟩ := Token.mk.inj hopening
              obtain ⟨callKind, callOpening, callArguments⟩ := call
              simp only [Except.ok.injEq] at hk
              subst hk harguments
              simp [bind, Except.bind, hbody]
          · have hne : ∀ inner closing, (⟨symbol, opening⟩ : Token) :: body ≠
                ⟨.openParen, call.opening⟩ :: (inner ++ [⟨.closeParen, closing⟩]) := by
              intro inner closing heq
              exact hparen (Token.mk.inj (List.cons.inj heq).1).1
            simp [bind, Except.bind, hparen, hne]

end Scorecard.Expression
