import Scorecard.Proofs.Expression.Acceptance
import Scorecard.Proofs.Expression.Cuts
import Scorecard.Proofs.Metric.Name
import Scorecard.Proofs.Metric.Registration

/-!
Which names can be used in expressions once they are registered. A registry takes every name that is not blank, while
an expression spells a metric by a word only, an ASCII letter or underscore with letters, digits and underscores behind
it. So a registered name can be used exactly if it is a word once trimmed. The main statement is `usable_iff_isWord`.
-/
namespace Scorecard.Expression

/-- A word once trimmed: a letter or underscore of ASCII, then letters, digits and underscores. -/
def isWord (name : String) : Bool :=
  match (Text.trim name).toList with
  | [] => false
  | c :: cs => isIdentifierStart c && cs.all isIdentifierPart

/-- The name can be used in an expression, and stands for the metric that is registered under it. -/
def Usable (known : Metric.Registry) (name : String) : Prop :=
  ∃ c, compile known ("MAX(" ++ name ++ ")") = .ok c ∧ c.references = NameSet.ofList [Metric.normalize name]

theorem isWord_iff {name : String} :
    isWord name = true ↔
      ∃ c cs, Text.trimChars name.toList = c :: cs ∧ isIdentifierStart c = true ∧ ∀ d ∈ cs, isIdentifierPart d = true := by
  unfold isWord
  rw [Text.trim, String.toList_ofList]
  cases Text.trimChars name.toList with
  | nil => simp
  | cons c cs => simp

/-! ### Words -/

theorem endsPiece_of_isBlank {rest : List Char} (h : ∀ c ∈ rest, Text.isBlank c = true) :
    EndsPiece isIdentifierPart rest := by
  intro c hc
  rw [← Bool.not_eq_true]
  intro hpart
  have hblank := h c (List.mem_of_mem_head? hc)
  rw [isBlank_of_isIdentifierPart hpart] at hblank
  cases hblank

/-- A word is one identifier, the name in normal form. -/
theorem symbols_of_isWord {name : String} (h : isWord name = true) :
    symbols name.toList = [.identifier (Metric.normalize name)] := by
  obtain ⟨c, cs, htrim, hc, hcs⟩ := isWord_iff.mp h
  obtain ⟨front, back, hfront, hback, hname⟩ := Text.exists_padding name.toList
  have hnormal : Metric.normalize name = Text.upper (String.ofList (c :: cs)) := by
    rw [Metric.normalize, Text.trim, htrim]
  rw [hname, htrim, List.append_assoc, symbols_append_of_isBlank hfront, symbols_word hc hcs (endsPiece_of_isBlank hback),
    symbols_eq_nil_iff.mpr hback, hnormal]

/-- A text of one symbol is one piece with blanks around it. -/
theorem exists_piece_of_symbols {cs : List Char} {s : Symbol} (h : symbols cs = [s]) :
    ∃ front c piece back, (∀ d ∈ front, Text.isBlank d = true) ∧ (∀ d ∈ back, Text.isBlank d = true) ∧
      cs = front ++ c :: piece ++ back ∧ s = symbolOf c piece ∧ splitPiece c (piece ++ back) = (piece, back) := by
  induction cs with
  | nil => simp at h
  | cons c cs ih =>
      cases hblank : Text.isBlank c with
      | true =>
          rw [symbols_cons_of_isBlank hblank] at h
          obtain ⟨front, d, piece, back, hfront, hback, rfl, hs, hsplit⟩ := ih h
          exact ⟨c :: front, d, piece, back, List.forall_mem_cons.mpr ⟨hblank, hfront⟩, hback, rfl, hs, hsplit⟩
      | false =>
          rw [symbols_cons hblank, List.cons.injEq] at h
          have happend := splitPiece_append c cs
          refine ⟨[], c, (splitPiece c cs).1, (splitPiece c cs).2, List.forall_mem_nil _, symbols_eq_nil_iff.mp h.2, ?_,
            h.1.symm, ?_⟩
          · rw [List.nil_append, List.cons_append, happend]
          · rw [happend]

/-- A name that is one identifier is a word. -/
theorem isWord_of_symbols {name s : String} (h : symbols name.toList = [.identifier s]) : isWord name = true := by
  obtain ⟨front, c, piece, back, hfront, hback, hname, hs, hsplit⟩ := exists_piece_of_symbols h
  have hc : isIdentifierStart c = true := by
    by_contra hc
    rw [symbolOf, if_neg hc] at hs
    split_ifs at hs
  rw [splitPiece, if_pos hc, Prod.mk.injEq] at hsplit
  have hpiece : ∀ d ∈ piece, isIdentifierPart d = true := by
    intro d hd
    rw [← hsplit.1] at hd
    exact List.mem_takeWhile_imp hd
  have htrimmed : Text.Trimmed (c :: piece) :=
    Text.trimmed_of_forall (List.forall_mem_cons.mpr ⟨isBlank_of_isIdentifierPart (isIdentifierPart_of_start hc),
      fun d hd => isBlank_of_isIdentifierPart (hpiece d hd)⟩)
  refine isWord_iff.mpr ⟨c, piece, ?_, hc, hpiece⟩
  rw [hname, Text.trimChars_padded hfront hback, Text.trimChars_of_trimmed htrimmed]

/-! ### Expressions -/

theorem symbols_greatest (name : String) :
    symbols ("MAX(" ++ name ++ ")").toList =
      .identifier "MAX" :: .openParen :: (symbols name.toList ++ [.closeParen]) := by
  have hcut : Cut name.toList (')' :: []) :=
    cut_of_delimiter (by decide) (fun last => (continuesNumber_delimiter last).2) name.toList []
  have htext : ("MAX(" ++ name ++ ")").toList = "MAX".toList ++ '(' :: (name.toList ++ [')']) := by
    simp [String.toList_append]
  have hends : EndsPiece isIdentifierPart ('(' :: (name.toList ++ [')'])) := by
    intro c hc
    obtain rfl : '(' = c := Option.some.inj hc
    decide
  rw [htext, symbols_identifier (by decide) hends, symbols_openParen, hcut.symbols_append, symbols_closeParen, symbols_nil]

theorem mem_of_comma_mem_symbols {cs : List Char} (h : .comma ∈ symbols cs) : ',' ∈ cs := by
  obtain ⟨c, after, hc, hs⟩ := exists_piece_of_mem_symbols h
  unfold symbolOf at hs
  split_ifs at hs with _ _ _ _ hcomma
  exact hcomma ▸ hc

/-- A comma in a name is one in its normal form. -/
theorem comma_mem_normalize {name : String} (h : ',' ∈ name.toList) : ',' ∈ (Metric.normalize name).toList := by
  rw [Metric.normalize, Text.upper, Text.trim, String.toList_ofList, String.toList_ofList, List.mem_flatMap]
  exact ⟨',', Text.mem_trimChars (by decide) h, by decide⟩

/-- A name that gives one metric only, in however many arguments, is one identifier. -/
theorem isWord_of_parts {name : String} {names : List String} (hne : names ≠ [])
    (hparts : parts (symbols name.toList) = names.map fun n => [.identifier n])
    (hnames : ∀ n ∈ names, n = Metric.normalize name) : isWord name = true := by
  have hsymbols := intercalate_parts (symbols name.toList)
  rw [hparts] at hsymbols
  cases names with
  | nil => exact absurd rfl hne
  | cons n names =>
      cases names with
      | nil => exact isWord_of_symbols (s := n) (by rw [← hsymbols]; rfl)
      | cons n' names =>
          -- With a second argument there would be a comma in the name, and so in the identifier.
          rw [List.map_cons, List.map_cons, List.intercalate_cons_cons] at hsymbols
          have hidentifier : isIdentifier (Metric.normalize name) = true := by
            rw [← hnames n List.mem_cons_self]
            exact @isIdentifier_of_mem_symbols name.toList n (by simp [← hsymbols])
          have hcomma : Symbol.comma ∈ symbols name.toList := by simp [← hsymbols]
          have hpart := isIdentifierPart_of_mem hidentifier (comma_mem_normalize (mem_of_comma_mem_symbols hcomma))
          exact absurd hpart (by decide)

theorem usable_of_isWord {known : Metric.Registry} {name : String}
    (hknown : known.names.contains (Metric.normalize name) = true) (h : isWord name = true) : Usable known name := by
  refine ⟨⟨.greatest [Metric.normalize name], NameSet.ofList [Metric.normalize name]⟩, ?_, rfl⟩
  rw [compile_eq_ok_iff_derives, map_symbol_tokens, symbols_greatest, symbols_of_isWord h]
  have hparts : parts [.identifier (Metric.normalize name)] = [[.identifier (Metric.normalize name)]] :=
    @parts_intercalate [[.identifier (Metric.normalize name)]] (by simp) (by simp) (by simp)
  have harguments : Arguments (parts [.identifier (Metric.normalize name)]) (.greatest [Metric.normalize name]) :=
    hparts ▸ @Arguments.greatest [Metric.normalize name] (List.cons_ne_nil _ _)
  exact .call (List.forall_mem_singleton.mpr rfl) harguments (List.forall_mem_singleton.mpr hknown)

theorem isWord_of_usable {known : Metric.Registry} {name : String} (h : Usable known name) : isWord name = true := by
  obtain ⟨c, hcompile, hreferences⟩ := h
  rw [compile_eq_ok_iff_derives, map_symbol_tokens, symbols_greatest] at hcompile
  generalize hsymbols : Symbol.identifier "MAX" :: .openParen :: (symbols name.toList ++ [.closeParen]) = ss at hcompile
  cases hcompile with
  | @call f inner _ harguments _ =>
      obtain ⟨hkeyword, hrest⟩ := List.cons.inj hsymbols
      obtain rfl := List.append_cancel_right (List.cons.inj hrest).2
      have hkind : f.kind = .greatest := by
        have hword := Formula.Kind.ofKeyword?_keyword f.kind
        rw [← Symbol.identifier.inj hkeyword] at hword
        exact Option.some.inj (hword.symm.trans (Formula.Kind.ofKeyword?_keyword .greatest))
      dsimp only at hreferences
      have hmembers (n : String) : n ∈ identifiers (symbols name.toList) ↔ n = Metric.normalize name := by
        rw [← NameSet.contains_ofList, hreferences, NameSet.contains_ofList, List.mem_singleton]
      generalize hparts : parts (symbols name.toList) = ps at harguments
      cases harguments with
      | average | least | weightedSum | threshold => cases hkind
      | @greatest names hne =>
          refine isWord_of_parts hne hparts fun n hn => (hmembers n).mp ?_
          rw [← identifiers_parts, hparts, flatMap_identifiers_metrics]
          exact hn

/-- A name that counts as new can be used in expressions exactly if it is a word, whatever is registered before it and
after it. -/
theorem usable_iff_isWord (known : Metric.Registry) {before after : List String} {name : String}
    (hnew : ((known.withNames before).add name).2 = 1) :
    Usable (known.withNames (before ++ name :: after)) name ↔ isWord name = true := by
  refine ⟨isWord_of_usable, usable_of_isWord ?_⟩
  rw [Metric.Registry.contains_withNames]
  exact .inr ⟨Metric.Registry.ne_blank_of_add hnew, name, by simp, rfl⟩

/-- A name in small letters with blanks around it, registered behind another one. -/
theorem usable_iff_isWord_latency :
    ((Metric.Registry.standard.withNames ["my metric"]).add " latency ").2 = 1 ∧ isWord " latency " = true ∧
      Usable (Metric.Registry.standard.withNames ["my metric", " latency ", "cost"]) " latency " := by
  have hnew : ((Metric.Registry.standard.withNames ["my metric"]).add " latency ").2 = 1 := by decide
  have hword : isWord " latency " = true := by decide
  exact ⟨hnew, hword, (@usable_iff_isWord .standard ["my metric"] ["cost"] " latency " hnew).mpr hword⟩

/-- A name of two words counts as new, and cannot be used. -/
theorem not_usable_of_blank :
    (Metric.Registry.standard.add "my metric").2 = 1 ∧ ¬Usable (Metric.Registry.standard.withNames ["my metric"]) "my metric" :=
  ⟨by decide, fun h => absurd (isWord_of_usable h) (by decide)⟩

end Scorecard.Expression
