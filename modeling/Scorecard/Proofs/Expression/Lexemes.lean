import Scorecard.Proofs.Expression.Cuts
import Scorecard.Proofs.Expression.Places

/-!
Tokens and the pieces of the text that they come from. A text is cut into pieces with nothing but blanks between
them, one for each token; a token says what its piece is, and its place tells how many lines there are before the
piece and how many characters of its line. A piece of letters or digits goes on as long as it can.
-/
namespace Scorecard.Expression

/-! ### Places -/

/-- The place behind a text: its lines are counted, and the characters behind its last line break. -/
def placeBehind (before : List Char) : Place :=
  ⟨1 + before.count '\n', 1 + (before.reverse.takeWhile (· != '\n')).length⟩

theorem placeBehind_append_singleton (before : List Char) (c : Char) :
    placeBehind (before ++ [c]) = (placeBehind before).after c := by
  rw [placeBehind, placeBehind, Place.after, List.count_append, List.reverse_append]
  by_cases h : c = '\n'
  · simp [h, Nat.add_assoc]
  · simp [h, Nat.add_assoc]

theorem placeBehind_append (before cs : List Char) : placeBehind (before ++ cs) = (placeBehind before).afterAll cs := by
  induction cs generalizing before with
  | nil => rw [List.append_nil, Place.afterAll, List.foldl_nil]
  | cons c cs ih =>
      have hstep := ih (before ++ [c])
      rw [placeBehind_append_singleton, List.append_assoc, List.singleton_append] at hstep
      exact hstep

/-! ### Pieces -/

/-- A piece and the symbol that it stands for. Letters and numbers are told apart by their first characters. -/
inductive StandsFor : List Char → Symbol → Prop
  | identifier {c : Char} {cs : List Char} (hc : isIdentifierStart c = true)
      (hcs : ∀ d ∈ cs, isIdentifierPart d = true) :
      StandsFor (c :: cs) (.identifier (Text.upper (String.ofList (c :: cs))))
  | number {c : Char} {cs : List Char} (hc : isNumberStart c = true)
      (hcs : List.IsChain (fun last d => continuesNumber last d = true) (c :: cs)) :
      StandsFor (c :: cs) (.number (String.ofList (c :: cs)))
  | openParen : StandsFor ['('] .openParen
  | closeParen : StandsFor [')'] .closeParen
  | comma : StandsFor [','] .comma
  | colon : StandsFor [':'] .colon
  | stray {c : Char} (hblank : Text.isBlank c = false) (hidentifier : isIdentifierStart c = false)
      (hnumber : isNumberStart c = false) (hdelimiter : c ∉ ['(', ')', ',', ':']) : StandsFor [c] (.stray c)

/-- What follows the piece of a symbol does not go on with it. -/
def StopsAt (piece after : List Char) : Symbol → Prop
  | .identifier _ => ∀ d ∈ after.head?, d.isAlphanum = false ∧ d ≠ '_'
  | .number _ => ∀ d ∈ after.head?, d.isAlphanum = false ∧ d ≠ '.' ∧ d ≠ '_' ∧
      (piece.getLast? = some 'e' ∨ piece.getLast? = some 'E' → d ≠ '-' ∧ d ≠ '+')
  | _ => True

theorem isChain_splitNumber (last : Char) (cs : List Char) :
    List.IsChain (fun last d => continuesNumber last d = true) (last :: (splitNumber last cs).1) := by
  induction cs generalizing last with
  | nil => exact .singleton last
  | cons c cs ih =>
      rw [splitNumber]
      split
      · next h => exact .cons_cons h (ih c)
      · exact .singleton last

/-- A number ends where no character goes on with it. -/
theorem stopsAt_splitNumber (last : Char) (cs : List Char) (number : String) :
    StopsAt (last :: (splitNumber last cs).1) (splitNumber last cs).2 (.number number) := by
  induction cs generalizing last with
  | nil => exact fun d hd => nomatch hd
  | cons c cs ih =>
      rw [splitNumber]
      split
      · have hlast : (last :: c :: (splitNumber c cs).1).getLast? = (c :: (splitNumber c cs).1).getLast? :=
          List.getLast?_cons_cons
        unfold StopsAt at ih ⊢
        rw [hlast]
        exact ih c
      · next h =>
          rintro d ⟨⟩
          simp only [continuesNumber, Bool.or_eq_true, Bool.and_eq_true, decide_eq_true_eq] at h
          push Not at h
          obtain ⟨⟨⟨halphanum, hpoint⟩, hunderscore⟩, hsign⟩ := h
          refine ⟨Bool.eq_false_iff.mpr halphanum, hpoint, hunderscore, fun hexponent => ?_⟩
          rw [List.getLast?_singleton, Option.some_inj, Option.some_inj] at hexponent
          have hno (hc : c = '-' ∨ c = '+') : False := not_or.mpr (hsign hc) hexponent
          exact ⟨fun hminus => hno (.inl hminus), fun hplus => hno (.inr hplus)⟩

theorem standsFor_symbolOf {c : Char} (h : Text.isBlank c = false) (cs : List Char) :
    StandsFor (c :: (splitPiece c cs).1) (symbolOf c (splitPiece c cs).1) := by
  unfold symbolOf splitPiece
  by_cases hidentifier : isIdentifierStart c = true
  · rw [if_pos hidentifier, if_pos hidentifier]
    exact .identifier hidentifier fun d hd => List.mem_takeWhile_imp hd
  rw [if_neg hidentifier, if_neg hidentifier]
  by_cases hnumber : isNumberStart c = true
  · rw [if_pos hnumber, if_pos hnumber]
    exact .number hnumber (isChain_splitNumber c cs)
  rw [if_neg hnumber, if_neg hnumber]
  split_ifs with h1 h2 h3 h4
  · exact h1 ▸ .openParen
  · exact h2 ▸ .closeParen
  · exact h3 ▸ .comma
  · exact h4 ▸ .colon
  · exact .stray h (Bool.eq_false_iff.mpr hidentifier) (Bool.eq_false_iff.mpr hnumber) (by simp [h1, h2, h3, h4])

theorem stopsAt_symbolOf (c : Char) (cs : List Char) :
    StopsAt (c :: (splitPiece c cs).1) (splitPiece c cs).2 (symbolOf c (splitPiece c cs).1) := by
  unfold symbolOf splitPiece
  by_cases hidentifier : isIdentifierStart c = true
  · rw [if_pos hidentifier, if_pos hidentifier]
    intro d hd
    have hstop := List.head?_dropWhile_not isIdentifierPart cs
    rw [Option.mem_def.mp hd] at hstop
    simpa [isIdentifierPart] using hstop
  rw [if_neg hidentifier, if_neg hidentifier]
  by_cases hnumber : isNumberStart c = true
  · rw [if_pos hnumber, if_pos hnumber]
    exact stopsAt_splitNumber c cs _
  rw [if_neg hnumber, if_neg hnumber]
  split_ifs <;> exact trivial

/-! ### Cutting a text -/

/-- A token with its piece of the text and the blanks behind the piece. -/
structure Lexeme where
  piece : List Char
  blanks : List Char
  token : Token

/-- The text that lexemes are cut from. -/
def textOf (lexemes : List Lexeme) : List Char := lexemes.flatMap fun l => l.piece ++ l.blanks

/-- The lexeme lies between `before` and `after`, and its token says so. -/
structure Lexeme.Fits (l : Lexeme) (before after : List Char) : Prop where
  symbol : StandsFor l.piece l.token.symbol
  stops : StopsAt l.piece (l.blanks ++ after) l.token.symbol
  blank : ∀ c ∈ l.blanks, Text.isBlank c = true
  position : l.token.position = (placeBehind before).position

/-- Each of the lexemes, which follow `before`, fits in its place. -/
def Fit (before : List Char) (lexemes : List Lexeme) : Prop :=
  ∀ front l back, lexemes = front ++ l :: back → l.Fits (before ++ textOf front) (textOf back)

theorem textOf_cons (l : Lexeme) (lexemes : List Lexeme) :
    textOf (l :: lexemes) = l.piece ++ l.blanks ++ textOf lexemes := List.flatMap_cons

theorem fit_cons {before : List Char} {l : Lexeme} {lexemes : List Lexeme} (h : l.Fits before (textOf lexemes))
    (hrest : Fit (before ++ (l.piece ++ l.blanks)) lexemes) : Fit before (l :: lexemes) := by
  rintro (_ | ⟨first, front⟩) m back hsplit
  · obtain ⟨rfl, rfl⟩ := List.cons.inj hsplit
    rw [textOf, List.flatMap_nil, List.append_nil]
    exact h
  · obtain ⟨rfl, hlater⟩ := List.cons.inj hsplit
    rw [textOf_cons, ← List.append_assoc]
    exact hrest front m back hlater

/-- The rest of a text is cut into blanks and the lexemes of its tokens. -/
theorem exists_lexemes (before cs : List Char) :
    ∃ leading lexemes, cs = leading ++ textOf lexemes ∧ (∀ c ∈ leading, Text.isBlank c = true) ∧
      Fit (before ++ leading) lexemes ∧ lexemes.map (·.token) = tokensFrom (placeBehind before).position cs := by
  generalize hp : (placeBehind before).position = p
  induction p, cs using tokensFrom.induct generalizing before with
  | case1 p =>
      refine ⟨[], [], rfl, List.forall_mem_nil _, fun front l back hsplit => ?_, by rw [tokensFrom, List.map_nil]⟩
      simp at hsplit
  | case2 p c cs hblank ih =>
      have hp' : (placeBehind (before ++ [c])).position = p.after c := by
        rw [placeBehind_append_singleton, Place.position_after, hp]
      obtain ⟨leading, lexemes, rfl, hleading, hfit, htokens⟩ := ih (before ++ [c]) hp'
      refine ⟨c :: leading, lexemes, rfl, List.forall_mem_cons.mpr ⟨hblank, hleading⟩, ?_, ?_⟩
      · rwa [List.append_assoc] at hfit
      · rw [tokensFrom, if_pos hblank, htokens]
  | case3 p c cs hblank ih =>
      have hp' : (placeBehind (before ++ c :: (splitPiece c cs).1)).position = p.afterAll (c :: (splitPiece c cs).1) := by
        rw [placeBehind_append, Place.position_afterAll, hp]
      obtain ⟨blanks, lexemes, hcs, hblanks, hfit, htokens⟩ := ih (before ++ c :: (splitPiece c cs).1) hp'
      refine ⟨[], ⟨c :: (splitPiece c cs).1, blanks, ⟨symbolOf c (splitPiece c cs).1, p⟩⟩ :: lexemes, ?_,
        List.forall_mem_nil _, ?_, ?_⟩
      · rw [textOf_cons, List.nil_append, List.append_assoc, ← hcs, List.cons_append, splitPiece_append]
      · refine fit_cons ⟨standsFor_symbolOf (Bool.eq_false_iff.mpr hblank) cs, ?_, hblanks, ?_⟩ ?_
        · rw [← hcs]
          exact stopsAt_symbolOf c cs
        · rw [List.append_nil, hp]
        · rwa [List.append_nil, ← List.append_assoc]
      · rw [tokensFrom, if_neg hblank, List.map_cons, htokens]

/-! ### What is lost -/

theorem isBlank_of_isChain {c : Char} {cs : List Char} (hc : Text.isBlank c = false)
    (h : List.IsChain (fun last d => continuesNumber last d = true) (c :: cs)) :
    ∀ d ∈ c :: cs, Text.isBlank d = false := by
  induction cs generalizing c with
  | nil => simpa using hc
  | cons d cs ih =>
      obtain ⟨hd, hrest⟩ := List.isChain_cons_cons.mp h
      refine List.forall_mem_cons.mpr ⟨hc, ih (Bool.eq_false_iff.mpr fun hblank => ?_) hrest⟩
      rw [continuesNumber_of_isBlank c hblank] at hd
      cases hd

/-- A piece has characters, and none of them is blank. -/
theorem StandsFor.ne_nil_and_isBlank {piece : List Char} {symbol : Symbol} (h : StandsFor piece symbol) :
    piece ≠ [] ∧ ∀ c ∈ piece, Text.isBlank c = false := by
  cases h with
  | identifier hc hcs =>
      exact ⟨List.cons_ne_nil _ _, List.forall_mem_cons.mpr
        ⟨isBlank_eq_false_of_start (.inl hc), fun d hd => isBlank_of_isIdentifierPart (hcs d hd)⟩⟩
  | number hc hcs => exact ⟨List.cons_ne_nil _ _, isBlank_of_isChain (isBlank_eq_false_of_start (.inr hc)) hcs⟩
  | stray hblank => exact ⟨List.cons_ne_nil _ _, List.forall_mem_singleton.mpr hblank⟩
  | openParen | closeParen | comma | colon => exact ⟨List.cons_ne_nil _ _, List.forall_mem_singleton.mpr (by decide)⟩

theorem Fit.fits {before : List Char} {lexemes : List Lexeme} (h : Fit before lexemes) {l : Lexeme} (hl : l ∈ lexemes) :
    ∃ before after, l.Fits before after := by
  obtain ⟨front, back, hsplit⟩ := List.append_of_mem hl
  exact ⟨_, _, h front l back hsplit⟩

/-- The pieces hold the characters of the text that are not blank, each of them once. -/
theorem flatMap_piece {before : List Char} {lexemes : List Lexeme} (h : Fit before lexemes) :
    lexemes.flatMap (·.piece) = (textOf lexemes).filter fun c => !Text.isBlank c := by
  rw [textOf, List.filter_flatMap]
  refine List.flatMap_congr fun l hl => ?_
  obtain ⟨_, _, hfits⟩ := h.fits hl
  have hpiece : l.piece.filter (fun c => !Text.isBlank c) = l.piece :=
    List.filter_eq_self.mpr fun c hc => by rw [hfits.symbol.ne_nil_and_isBlank.2 c hc]; rfl
  have hblanks : l.blanks.filter (fun c => !Text.isBlank c) = [] :=
    List.filter_eq_nil_iff.mpr fun c hc => by simp [hfits.blank c hc]
  rw [List.filter_append, hpiece, hblanks, List.append_nil]

/-- Within a text of less than 2³² characters no count goes beyond a word. -/
theorem inRange_placeBehind {before after : List Char} (hafter : after ≠ [])
    (hlength : (before ++ after).length < 2 ^ 32) : (placeBehind before).InRange := by
  have hrest := List.length_pos_iff.mpr hafter
  have hlines : before.count '\n' ≤ before.length := List.count_le_length
  have hcolumns : (before.reverse.takeWhile (· != '\n')).length ≤ before.length := by
    have hle := (List.takeWhile_prefix (l := before.reverse) (· != '\n')).length_le
    rwa [List.length_reverse] at hle
  rw [List.length_append] at hlength
  constructor <;> rw [placeBehind] <;> dsimp only <;> omega

/-- The text is cut into blanks and the pieces of lexemes, which hold all its other characters. -/
structure CutInto (text : String) (leading : List Char) (lexemes : List Lexeme) : Prop where
  whole : leading ++ textOf lexemes = text.toList
  blank : ∀ c ∈ leading, Text.isBlank c = true
  fit : Fit leading lexemes
  pieces : lexemes.flatMap (·.piece) = text.toList.filter fun c => !Text.isBlank c

theorem exists_cutInto (text : String) :
    ∃ leading lexemes, CutInto text leading lexemes ∧ lexemes.map (·.token) = tokens text := by
  obtain ⟨leading, lexemes, htext, hleading, hfit, htokens⟩ := exists_lexemes [] text.toList
  refine ⟨leading, lexemes, ⟨htext.symm, hleading, hfit, ?_⟩, htokens⟩
  have hblank : leading.filter (fun c => !Text.isBlank c) = [] :=
    List.filter_eq_nil_iff.mpr fun c hc => by simp [hleading c hc]
  rw [flatMap_piece hfit, htext, List.filter_append, hblank, List.nil_append]

/-- Every text is cut into the pieces of its tokens with nothing but blanks between them: what is not blank lies in
exactly one piece, the token is read off the piece, its place is counted in the text before the piece, and the piece
goes on as long as it can. In a text of less than 2³² characters the words for the places are the counts, and they
increase. -/
theorem tokens_cutInto (text : String) :
    (∃ leading lexemes, CutInto text leading lexemes ∧ lexemes.map (·.token) = tokens text) ∧
      (text.length < 2 ^ 32 →
        (∀ before after, before ++ after = text.toList → after ≠ [] →
          (placeBehind before).position.line.toNat = (placeBehind before).line ∧
            (placeBehind before).position.column.toNat = (placeBehind before).column) ∧
        (tokens text).Pairwise fun s t => s.position.line < t.position.line ∨
          s.position.line = t.position.line ∧ s.position.column < t.position.column) := by
  refine ⟨exists_cutInto text, fun hlength => ⟨fun before after htext hafter => ?_, ?_⟩⟩
  · rw [← String.length_toList, ← htext] at hlength
    exact (inRange_placeBehind hafter hlength).toNat_position
  · refine (pairwise_tokens hlength).imp fun h => ?_
    simpa [Position.key, Prod.Lex.lt_iff, UInt32.lt_iff_toNat_lt, UInt32.toNat_inj] using h

theorem tokens_cutInto_of_lines :
    "MAX(A,\n 7e-1+)".length < 2 ^ 32 ∧
      (tokens "MAX(A,\n 7e-1+)").Pairwise fun s t => s.position.line < t.position.line ∨
        s.position.line = t.position.line ∧ s.position.column < t.position.column := by
  have hlength : "MAX(A,\n 7e-1+)".length < 2 ^ 32 := by decide
  exact ⟨hlength, ((tokens_cutInto _).2 hlength).2⟩

end Scorecard.Expression
