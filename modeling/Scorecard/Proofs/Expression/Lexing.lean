import Mathlib
import Scorecard.Expression.Lexer
import Scorecard.Metric.Name
import Scorecard.Proofs.Text.Case
import Scorecard.Proofs.Text.Span

/-!
The symbols of a text, without their places. What a text lexes to is read off its pieces: an
identifier or a number in front of something that does not go on with it is one symbol, a blank is
none, and the names that come out are identifiers in upper case, which lexing leaves alone.
-/
namespace Scorecard.Expression

/-! ### Identifiers -/

/-- A statement about an ASCII character holds if it holds of each of them. -/
theorem ascii_forall {P : Char → Prop} (h : ∀ n < 0x80, P (Char.ofNat n)) {c : Char} (hc : c.toNat < 0x80) :
    P c :=
  Char.ofNat_toNat c ▸ h c.toNat hc

theorem toNat_lt_of_isIdentifierPart {c : Char} (h : isIdentifierPart c = true) : c.toNat < 0x80 := by
  simp only [isIdentifierPart, Char.isAlphanum, Char.isAlpha, Char.isUpper, Char.isLower, Char.isDigit,
    Bool.or_eq_true, Bool.and_eq_true, decide_eq_true_eq, UInt32.le_iff_toNat_le] at h
  have hval : c.toNat = c.val.toNat := rfl
  have hz : ('Z' : Char).val.toNat = 90 := rfl
  have hz' : ('z' : Char).val.toNat = 122 := rfl
  have h9 : ('9' : Char).val.toNat = 57 := rfl
  rcases h with ((h | h) | h) | rfl
  · omega
  · omega
  · omega
  · decide

theorem isIdentifierPart_of_start {c : Char} (h : isIdentifierStart c = true) : isIdentifierPart c = true := by
  simp only [isIdentifierStart, isIdentifierPart, Char.isAlphanum, Bool.or_eq_true] at h ⊢
  exact h.imp_left .inl

theorem isBlank_of_isIdentifierPart {c : Char} (h : isIdentifierPart c = true) : Text.isBlank c = false :=
  ascii_forall (P := fun c => isIdentifierPart c = true → Text.isBlank c = false) (by decide)
    (toNat_lt_of_isIdentifierPart h) h

theorem isIdentifierStart_toUpper (c : Char) : isIdentifierStart c.toUpper = isIdentifierStart c :=
  Text.toUpper_forall (P := fun c d => isIdentifierStart d = isIdentifierStart c) (fun _ => rfl) (by decide) c

theorem isIdentifierPart_toUpper (c : Char) : isIdentifierPart c.toUpper = isIdentifierPart c :=
  Text.toUpper_forall (P := fun c d => isIdentifierPart d = isIdentifierPart c) (fun _ => rfl) (by decide) c

/-- An identifier in upper case. -/
def isIdentifierChars : List Char → Bool
  | [] => false
  | c :: cs => isIdentifierStart c && cs.all isIdentifierPart && (c :: cs).all fun d => !d.isLower

def isIdentifier (name : String) : Bool := isIdentifierChars name.toList

theorem isIdentifierChars_iff {cs : List Char} :
    isIdentifierChars cs = true ↔
      ∃ c ds, cs = c :: ds ∧ isIdentifierStart c = true ∧ (∀ d ∈ ds, isIdentifierPart d = true) ∧
        ∀ d ∈ cs, d.isLower = false := by
  cases cs with
  | nil => simp [isIdentifierChars]
  | cons c cs => simp [isIdentifierChars, and_assoc]

theorem isIdentifierPart_of_mem {cs : List Char} (h : isIdentifierChars cs = true) {c : Char} (hc : c ∈ cs) :
    isIdentifierPart c = true := by
  obtain ⟨first, rest, rfl, hfirst, hrest, -⟩ := isIdentifierChars_iff.mp h
  rcases List.mem_cons.mp hc with rfl | hc
  · exact isIdentifierPart_of_start hfirst
  · exact hrest c hc

/-- ASCII text has its upper case character by character. -/
theorem upper_ofList {cs : List Char} (h : ∀ c ∈ cs, c.toNat < 0x80) :
    Text.upper (String.ofList cs) = String.ofList (cs.map Char.toUpper) := by
  have hchars : cs.flatMap Text.upperChar = cs.map Char.toUpper := by
    rw [List.map_eq_flatMap]
    exact List.flatMap_congr fun c hc => if_pos (h c hc)
  rw [Text.upper, String.toList_ofList, hchars]

theorem isIdentifier_upper {c : Char} {cs : List Char} (hc : isIdentifierStart c = true)
    (hcs : ∀ d ∈ cs, isIdentifierPart d = true) :
    isIdentifier (Text.upper (String.ofList (c :: cs))) = true := by
  have hall : ∀ d ∈ c :: cs, isIdentifierPart d = true := by
    intro d hd
    rcases List.mem_cons.mp hd with rfl | hd
    · exact isIdentifierPart_of_start hc
    · exact hcs d hd
  rw [upper_ofList fun d hd => toNat_lt_of_isIdentifierPart (hall d hd), isIdentifier, String.toList_ofList]
  refine isIdentifierChars_iff.mpr ⟨c.toUpper, cs.map Char.toUpper, rfl, ?_, ?_, ?_⟩
  · rw [isIdentifierStart_toUpper, hc]
  · intro d hd
    obtain ⟨e, he, rfl⟩ := List.mem_map.mp hd
    rw [isIdentifierPart_toUpper, hcs e he]
  · intro d hd
    obtain ⟨e, he, rfl⟩ := List.mem_map.mp hd
    exact Char.isLower_toUpper_eq_false e

theorem map_toUpper_of_isIdentifierChars {cs : List Char} (h : isIdentifierChars cs = true) :
    cs.map Char.toUpper = cs := by
  obtain ⟨-, -, -, -, -, hlower⟩ := isIdentifierChars_iff.mp h
  exact (List.map_congr_left fun c hc => Char.toUpper_eq_of_not_isLower (Bool.not_eq_true _ ▸ hlower c hc)).trans (List.map_id' _)

theorem upper_of_isIdentifier {name : String} (h : isIdentifier name = true) : Text.upper name = name := by
  have hupper := upper_ofList fun c hc => toNat_lt_of_isIdentifierPart (isIdentifierPart_of_mem h hc)
  rwa [map_toUpper_of_isIdentifierChars h, String.ofList_toList] at hupper

theorem trim_of_isIdentifier {name : String} (h : isIdentifier name = true) : Text.trim name = name := by
  have htrimmed : Text.Trimmed name.toList :=
    Text.trimmed_of_forall fun c hc => isBlank_of_isIdentifierPart (isIdentifierPart_of_mem h hc)
  rw [Text.trim, Text.trimChars_of_trimmed htrimmed, String.ofList_toList]

/-- An identifier in upper case is in normal form. -/
theorem normalize_of_isIdentifier {name : String} (h : isIdentifier name = true) :
    Metric.normalize name = name := by
  rw [Metric.normalize, trim_of_isIdentifier h, upper_of_isIdentifier h]

/-! ### Symbols of a text -/

/-- The symbols of a text, without their places. -/
def symbols (cs : List Char) : List Symbol := (tokensFrom .start cs).map (·.symbol)

/-- Where a text starts has no bearing on its symbols. -/
theorem map_symbol_tokensFrom (p q : Position) (cs : List Char) :
    (tokensFrom p cs).map (·.symbol) = (tokensFrom q cs).map (·.symbol) := by
  induction p, cs using tokensFrom.induct generalizing q with
  | case1 p => simp only [tokensFrom, List.map_nil]
  | case2 p c cs hblank ih =>
      rw [tokensFrom, tokensFrom, if_pos hblank, if_pos hblank]
      exact ih _
  | case3 p c cs hblank ih =>
      rw [tokensFrom, tokensFrom, if_neg hblank, if_neg hblank, List.map_cons, List.map_cons, ih]

theorem map_symbol_tokens (text : String) : (tokens text).map (·.symbol) = symbols text.toList := rfl

@[simp] theorem symbols_nil : symbols [] = [] := by
  rw [symbols, tokensFrom, List.map_nil]

/-- Blanks in front of a text only move it. -/
theorem tokensFrom_blanks {blanks : List Char} (hblanks : ∀ c ∈ blanks, Text.isBlank c = true) (p : Position)
    (after : List Char) : tokensFrom p (blanks ++ after) = tokensFrom (p.afterAll blanks) after := by
  induction blanks generalizing p with
  | nil => rfl
  | cons c blanks ih =>
      obtain ⟨hc, hrest⟩ := List.forall_mem_cons.mp hblanks
      rw [List.cons_append, tokensFrom, if_pos hc]
      exact ih hrest (p.after c)

theorem symbols_append_of_isBlank {front : List Char} (hfront : ∀ c ∈ front, Text.isBlank c = true)
    (rest : List Char) : symbols (front ++ rest) = symbols rest := by
  rw [symbols, tokensFrom_blanks hfront]
  exact map_symbol_tokensFrom _ _ _

theorem symbols_cons_of_isBlank {c : Char} (h : Text.isBlank c = true) (cs : List Char) :
    symbols (c :: cs) = symbols cs := by
  rw [symbols, tokensFrom, if_pos h]
  exact map_symbol_tokensFrom _ _ _

theorem symbols_cons {c : Char} (h : Text.isBlank c = false) (cs : List Char) :
    symbols (c :: cs) = symbolOf c (splitPiece c cs).1 :: symbols (splitPiece c cs).2 := by
  rw [symbols, tokensFrom, if_neg (by simp [h]), List.map_cons]
  exact congrArg _ (map_symbol_tokensFrom _ _ _)

/-- What may follow a piece of a text without being taken for a part of it. -/
def EndsPiece (goesOn : Char → Bool) (rest : List Char) : Prop := ∀ c ∈ rest.head?, goesOn c = false

/-- A word with a text behind it that does not go on with it. -/
theorem symbols_word {c : Char} {cs rest : List Char} (hc : isIdentifierStart c = true)
    (hcs : ∀ d ∈ cs, isIdentifierPart d = true) (hrest : EndsPiece isIdentifierPart rest) :
    symbols (c :: cs ++ rest) = .identifier (Text.upper (String.ofList (c :: cs))) :: symbols rest := by
  obtain ⟨htake, hdrop⟩ := Text.span_append hcs hrest
  rw [List.cons_append, symbols_cons (isBlank_of_isIdentifierPart (isIdentifierPart_of_start hc)), splitPiece, if_pos hc,
    htake, hdrop, symbolOf, if_pos hc]

/-- An identifier with a text behind it that does not go on with it. -/
theorem symbols_identifier {name : String} (hname : isIdentifier name = true) {rest : List Char}
    (hrest : EndsPiece isIdentifierPart rest) :
    symbols (name.toList ++ rest) = .identifier name :: symbols rest := by
  obtain ⟨c, cs, hchars, hc, hcs, -⟩ := isIdentifierChars_iff.mp hname
  rw [hchars, symbols_word hc hcs hrest, ← hchars, String.ofList_toList, upper_of_isIdentifier hname]

/-- A symbol of a text is that of a piece, which starts with a character of the text. -/
theorem exists_piece_of_mem_symbols {cs : List Char} {s : Symbol} (h : s ∈ symbols cs) :
    ∃ c after, c ∈ cs ∧ s = symbolOf c (splitPiece c after).1 := by
  unfold symbols at h
  generalize Position.start = p at h
  induction p, cs using tokensFrom.induct with
  | case1 p => simp [tokensFrom] at h
  | case2 p c cs hblank ih =>
      rw [tokensFrom, if_pos hblank] at h
      obtain ⟨d, after, hd, hs⟩ := ih h
      exact ⟨d, after, List.mem_cons_of_mem c hd, hs⟩
  | case3 p c cs hblank ih =>
      rw [tokensFrom, if_neg hblank, List.map_cons, List.mem_cons] at h
      rcases h with hs | h
      · exact ⟨c, cs, List.mem_cons_self, hs⟩
      · obtain ⟨d, after, hd, hs⟩ := ih h
        rw [← splitPiece_append c cs]
        exact ⟨d, after, List.mem_cons_of_mem c (List.mem_append_right _ hd), hs⟩

/-- Every identifier among the symbols of a text is one in upper case. -/
theorem isIdentifier_of_mem_symbols {cs : List Char} {name : String} (h : .identifier name ∈ symbols cs) :
    isIdentifier name = true := by
  obtain ⟨c, after, -, hs⟩ := exists_piece_of_mem_symbols h
  by_cases hc : isIdentifierStart c = true
  · rw [symbolOf, if_pos hc, splitPiece, if_pos hc, Symbol.identifier.injEq] at hs
    rw [hs]
    exact isIdentifier_upper hc fun d hd => List.mem_takeWhile_imp hd
  · rw [symbolOf, if_neg hc] at hs
    split_ifs at hs

/-- A character that is a symbol by itself. -/
theorem symbols_single {c : Char} (hblank : Text.isBlank c = false) (hidentifier : isIdentifierStart c = false)
    (hnumber : isNumberStart c = false) (cs : List Char) : symbols (c :: cs) = symbolOf c [] :: symbols cs := by
  rw [symbols_cons hblank, splitPiece, if_neg (by simp [hidentifier]), if_neg (by simp [hnumber])]

@[simp] theorem symbols_space (cs : List Char) : symbols (' ' :: cs) = symbols cs :=
  symbols_cons_of_isBlank (by decide) cs

@[simp] theorem symbols_openParen (cs : List Char) : symbols ('(' :: cs) = .openParen :: symbols cs :=
  symbols_single (by decide) (by decide) (by decide) cs

@[simp] theorem symbols_closeParen (cs : List Char) : symbols (')' :: cs) = .closeParen :: symbols cs :=
  symbols_single (by decide) (by decide) (by decide) cs

@[simp] theorem symbols_comma (cs : List Char) : symbols (',' :: cs) = .comma :: symbols cs :=
  symbols_single (by decide) (by decide) (by decide) cs

@[simp] theorem symbols_colon (cs : List Char) : symbols (':' :: cs) = .colon :: symbols cs :=
  symbols_single (by decide) (by decide) (by decide) cs

/-! ### Numbers -/

/-- A character that goes on with a number whatever stands before it. -/
def isPlainPart (c : Char) : Bool := c.isDigit || c = '.'

/-- What stands between the arguments of a call, and ends a number whatever it ends in. -/
theorem continuesNumber_delimiter (last : Char) :
    continuesNumber last ',' = false ∧ continuesNumber last ')' = false := by
  constructor <;> simp [continuesNumber]

theorem splitNumber_append_of_plain {cs rest : List Char} (last : Char) (hcs : ∀ c ∈ cs, isPlainPart c = true)
    (hrest : ∀ last, EndsPiece (continuesNumber last) rest) : splitNumber last (cs ++ rest) = (cs, rest) := by
  induction cs generalizing last with
  | nil =>
      cases rest with
      | nil => rfl
      | cons c rest => rw [List.nil_append, splitNumber, if_neg (by simp [hrest last c rfl])]
  | cons c cs ih =>
      have hc : continuesNumber last c = true := by
        have := hcs c List.mem_cons_self
        simp only [isPlainPart, continuesNumber, Char.isAlphanum, Bool.or_eq_true] at this ⊢
        exact .inl (.inl (this.imp_left .inr))
      rw [List.cons_append, splitNumber, if_pos hc, ih c fun d hd => hcs d (List.mem_cons_of_mem _ hd)]

theorem toNat_lt_of_isNumberStart {c : Char} (h : isNumberStart c = true) : c.toNat < 0x80 := by
  simp only [isNumberStart, Bool.or_eq_true, decide_eq_true_eq] at h
  rcases h with ((h | rfl) | rfl) | rfl
  · exact toNat_lt_of_isIdentifierPart (by simp [isIdentifierPart, Char.isAlphanum, h])
  all_goals decide

theorem not_isIdentifierStart_of_isNumberStart {c : Char} (h : isNumberStart c = true) :
    isIdentifierStart c = false ∧ Text.isBlank c = false :=
  ascii_forall (P := fun c => isNumberStart c = true → isIdentifierStart c = false ∧ Text.isBlank c = false)
    (by decide) (toNat_lt_of_isNumberStart h) h

/-- A plain decimal with a text behind it that goes on with no number. -/
theorem symbols_number {c : Char} {cs rest : List Char} (hc : isNumberStart c = true)
    (hcs : ∀ d ∈ cs, isPlainPart d = true) (hrest : ∀ last, EndsPiece (continuesNumber last) rest) :
    symbols (c :: cs ++ rest) = .number (String.ofList (c :: cs)) :: symbols rest := by
  obtain ⟨hstart, hblank⟩ := not_isIdentifierStart_of_isNumberStart hc
  rw [List.cons_append, symbols_cons hblank, splitPiece, if_neg (by simp [hstart]), if_pos hc,
    splitNumber_append_of_plain c hcs hrest, symbolOf, if_neg (by simp [hstart]), if_pos hc]

/-! ### Blank texts -/

/-- Only a text of blanks has no tokens. -/
theorem tokens_eq_nil_iff {text : String} : tokens text = [] ↔ ∀ c ∈ text.toList, Text.isBlank c = true := by
  unfold tokens
  generalize Position.start = p
  induction p, text.toList using tokensFrom.induct with
  | case1 p => simp [tokensFrom]
  | case2 p c cs hblank ih => rw [tokensFrom, if_pos hblank, ih, List.forall_mem_cons, and_iff_right hblank]
  | case3 p c cs hblank ih =>
      rw [tokensFrom, if_neg hblank, List.forall_mem_cons]
      exact iff_of_false (List.cons_ne_nil _ _) fun h => hblank h.1

/-- Only blanks have no symbols. -/
theorem symbols_eq_nil_iff {cs : List Char} : symbols cs = [] ↔ ∀ c ∈ cs, Text.isBlank c = true := by
  rw [symbols, List.map_eq_nil_iff, ← String.toList_ofList (l := cs)]
  exact tokens_eq_nil_iff

/-- Only a text of blanks is trimmed to nothing. -/
theorem isEmpty_trim_iff {text : String} :
    (Text.trim text).isEmpty = true ↔ ∀ c ∈ text.toList, Text.isBlank c = true := by
  rw [String.isEmpty_iff, Text.trim, ← String.toList_eq_nil_iff, String.toList_ofList, Text.trimChars, Text.trimEndChars,
    List.reverse_eq_nil_iff, List.dropWhile_eq_nil_iff]
  simp only [List.mem_reverse]
  constructor
  · intro h c hc
    rw [← List.takeWhile_append_dropWhile (p := Text.isBlank) (l := text.toList), List.mem_append] at hc
    exact hc.elim List.mem_takeWhile_imp (h c)
  · intro h
    rw [List.dropWhile_eq_nil_iff.mpr h]
    exact List.forall_mem_nil _

end Scorecard.Expression
