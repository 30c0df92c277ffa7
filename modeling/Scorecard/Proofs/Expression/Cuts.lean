import Scorecard.Proofs.Expression.Positions

/-!
Texts cut between their pieces. Where a text is cut at no point inside an identifier or a number, its tokens are those
of the part in front of the cut and those of the part behind it. Every other point of a text lies inside an identifier
or a number.
-/
namespace Scorecard.Expression

/-- The point between `before` and `after` lies inside no piece of the text: what stands in front of it are blanks and
whole pieces. -/
inductive Cut : List Char → List Char → Prop
  | start (after : List Char) : Cut [] after
  | blank {c : Char} {before after : List Char} (hblank : Text.isBlank c = true) (h : Cut before after) :
      Cut (c :: before) after
  | piece {c : Char} {piece before after : List Char} (hblank : Text.isBlank c = false)
      (hsplit : splitPiece c (piece ++ (before ++ after)) = (piece, before ++ after)) (h : Cut before after) :
      Cut (c :: (piece ++ before)) after

/-! ### Pieces -/

theorem continuesNumber_of_isBlank (last : Char) {c : Char} (h : Text.isBlank c = true) :
    continuesNumber last c = false := by
  rw [← Bool.not_eq_true]
  intro hc
  simp only [continuesNumber, Bool.or_eq_true, Bool.and_eq_true, decide_eq_true_eq] at hc
  rcases hc with ((hc | rfl) | rfl) | ⟨rfl | rfl, -⟩
  · rw [isBlank_of_isIdentifierPart (by simp [isIdentifierPart, hc])] at h
    cases h
  all_goals exact absurd h (by decide)

/-- A number ends in front of a blank, and where it ended in front of the same character. -/
theorem splitNumber_congr {last : Char} {piece rest rest' : List Char}
    (h : splitNumber last (piece ++ rest) = (piece, rest))
    (hrest : ∀ d ∈ rest'.head?, Text.isBlank d = true ∨ d ∈ rest.head?) :
    splitNumber last (piece ++ rest') = (piece, rest') := by
  induction piece generalizing last with
  | nil =>
      cases rest' with
      | nil => rfl
      | cons d rest' =>
          have hends : continuesNumber last d = false := by
            rcases hrest d rfl with hblank | hd
            · exact continuesNumber_of_isBlank last hblank
            · obtain ⟨ds, rfl⟩ := List.head?_eq_some_iff.mp hd
              rw [List.nil_append, splitNumber] at h
              split at h
              · cases h
              · next hnot => exact Bool.not_eq_true _ ▸ hnot
          rw [List.nil_append, splitNumber, if_neg (by simp [hends])]
  | cons c piece ih =>
      rw [List.cons_append, splitNumber] at h ⊢
      split at h
      · next hc =>
          obtain ⟨hpiece, htail⟩ := Prod.mk.inj h
          rw [if_pos hc, ih (Prod.ext (List.cons.inj hpiece).2 htail)]
      · cases h

theorem splitPiece_congr {c : Char} {piece rest rest' : List Char} (h : splitPiece c (piece ++ rest) = (piece, rest))
    (hrest : ∀ d ∈ rest'.head?, Text.isBlank d = true ∨ d ∈ rest.head?) :
    splitPiece c (piece ++ rest') = (piece, rest') := by
  unfold splitPiece at h ⊢
  split at h
  · next hc =>
      obtain ⟨hpiece, htail⟩ := Prod.mk.inj h
      have hends : EndsPiece isIdentifierPart rest' := by
        intro d hd
        rcases hrest d hd with hblank | hd'
        · rw [← Bool.not_eq_true]
          exact fun hpart => by simp [isBlank_of_isIdentifierPart hpart] at hblank
        · have hfirst := List.head?_dropWhile_not isIdentifierPart (piece ++ rest)
          rw [htail, Option.mem_def.mp hd'] at hfirst
          exact hfirst
      have hparts : ∀ d ∈ piece, isIdentifierPart d = true := by
        intro d hd
        rw [← hpiece] at hd
        exact List.mem_takeWhile_imp hd
      obtain ⟨htake, hdrop⟩ := Text.span_append hparts hends
      rw [if_pos hc, htake, hdrop]
  · next hc =>
      split at h
      · next hnumber =>
          rw [if_neg hc, if_pos hnumber]
          exact splitNumber_congr h hrest
      · next hnumber =>
          obtain ⟨rfl, -⟩ := Prod.mk.inj h
          rw [if_neg hc, if_neg hnumber]
          rfl

/-! ### Cuts -/

namespace Cut

variable {before after : List Char}

/-- What stands behind a cut may be exchanged for what starts with a blank or in the same way. -/
theorem congr {after' : List Char} (h : Cut before after)
    (hafter : ∀ d ∈ after'.head?, Text.isBlank d = true ∨ d ∈ after.head?) : Cut before after' := by
  induction h with
  | start after => exact .start after'
  | blank hblank _ ih => exact .blank hblank (ih hafter)
  | @piece c piece before after hblank hsplit _ ih =>
      refine .piece hblank (splitPiece_congr hsplit fun d hd => ?_) (ih hafter)
      cases before with
      | nil => exact hafter d hd
      | cons e before => exact .inr hd

theorem blanks_append (h : Cut before after) {blanks : List Char} (hblanks : ∀ c ∈ blanks, Text.isBlank c = true) :
    Cut before (blanks ++ after) := by
  refine h.congr fun d hd => ?_
  cases blanks with
  | nil => exact .inr hd
  | cons c blanks =>
      obtain rfl : c = d := Option.some.inj hd
      exact .inl (hblanks c List.mem_cons_self)

theorem tokensFrom_append (h : Cut before after) (p : Position) :
    tokensFrom p (before ++ after) = tokensFrom p before ++ tokensFrom (p.afterAll before) after := by
  induction h generalizing p with
  | start after => rw [tokensFrom, List.nil_append, List.nil_append]; rfl
  | blank hblank _ ih =>
      rw [List.cons_append, tokensFrom, if_pos hblank, tokensFrom, if_pos hblank, ih]
      rfl
  | @piece c piece before after hblank hsplit _ ih =>
      -- The piece is split off in the same way where nothing stands behind the cut.
      have hfront : splitPiece c (piece ++ before) = (piece, before) := by
        refine splitPiece_congr hsplit fun d hd => .inr ?_
        obtain ⟨ds, rfl⟩ := List.head?_eq_some_iff.mp hd
        rfl
      rw [List.cons_append, List.append_assoc, tokensFrom, if_neg (by simp [hblank]), tokensFrom,
        if_neg (by simp [hblank]), hsplit, hfront]
      dsimp only
      rw [ih, List.cons_append, ← Position.afterAll_append, List.cons_append]

/-- The symbols of a text that is cut are those of its parts. -/
theorem symbols_append (h : Cut before after) : symbols (before ++ after) = symbols before ++ symbols after := by
  rw [symbols, h.tokensFrom_append, List.map_append]
  exact congrArg _ (map_symbol_tokensFrom _ _ _)

end Cut

/-! ### Points inside pieces -/

/-- The point between `before` and `after` lies inside an identifier or a number, of which `inner` stands behind the
first character and in front of the point, and `outer` behind the point. -/
inductive Inside : List Char → List Char → Prop
  | intro {front : List Char} {c : Char} {inner outer back : List Char}
      (hc : isIdentifierStart c = true ∨ isNumberStart c = true) (houter : outer ≠ [])
      (hsplit : splitPiece c (inner ++ (outer ++ back)) = (inner ++ outer, back))
      (hfront : Cut front (c :: (inner ++ (outer ++ back)))) : Inside (front ++ c :: inner) (outer ++ back)

theorem splitPiece_fst_eq_nil {c : Char} (hidentifier : isIdentifierStart c ≠ true) (hnumber : isNumberStart c ≠ true)
    (cs : List Char) : (splitPiece c cs).1 = [] := by
  rw [splitPiece, if_neg hidentifier, if_neg hnumber]

/-- Behind a blank or a piece a point is inside a piece if it is in the rest of the text. -/
theorem Inside.of_rest {front before after : List Char}
    (hcut : ∀ {before' after'}, Cut before' after' → before' ++ after' = before ++ after → Cut (front ++ before') after')
    (h : Inside before after) : Inside (front ++ before) after := by
  cases h with
  | @intro front' c inner outer back hc houter hsplit hfront =>
      rw [← List.append_assoc]
      refine .intro hc houter hsplit (hcut hfront ?_)
      simp

/-- A text may be cut at every point that lies inside no identifier and no number. -/
theorem cut_or_inside (before after : List Char) : Cut before after ∨ Inside before after := by
  induction hlength : before.length using Nat.strong_induction_on generalizing before with
  | _ n ih =>
      cases before with
      | nil => exact .inl (.start after)
      | cons c before =>
          cases hblank : Text.isBlank c with
          | true =>
              refine (ih before.length (by simp [← hlength]) before rfl).imp (.blank hblank) ?_
              exact @Inside.of_rest [c] before after fun h _ => .blank hblank h
          | false =>
              cases hsplit : splitPiece c (before ++ after) with
              | mk piece rest =>
                  have happend : piece ++ rest = before ++ after := by
                    have := splitPiece_append c (before ++ after)
                    rwa [hsplit] at this
                  rcases List.append_eq_append_iff.mp happend with ⟨between, rfl, rfl⟩ | ⟨outer, rfl, rfl⟩
                  · -- The piece ends in front of the point.
                    rw [List.append_assoc] at hsplit
                    refine (ih between.length (by simp [← hlength]) between rfl).imp (.piece hblank hsplit) fun h => ?_
                    refine @Inside.of_rest (c :: piece) between after (fun hcut heq => ?_) h
                    exact .piece hblank (by rw [heq, hsplit]) hcut
                  · cases outer with
                    | nil =>
                        refine .inl ?_
                        rw [List.append_nil] at hsplit
                        rw [← List.append_nil before]
                        exact .piece hblank hsplit (.start _)
                    | cons d outer =>
                        refine .inr (@Inside.intro [] c before (d :: outer) rest ?_ (List.cons_ne_nil d outer) hsplit (.start _))
                        by_contra hc
                        obtain ⟨hidentifier, hnumber⟩ := not_or.mp hc
                        have hnil := splitPiece_fst_eq_nil hidentifier hnumber (before ++ (d :: outer ++ rest))
                        rw [hsplit] at hnil
                        simp at hnil

/-- A cut behind a cut is one of the rest of the text. -/
theorem Cut.of_append {front before after : List Char} (hfront : Cut front (before ++ after))
    (h : Cut (front ++ before) after) : Cut before after := by
  generalize hrest : before ++ after = rest at hfront
  induction hfront with
  | start rest => exact h
  | @blank c front rest hblank _ ih =>
      generalize htext : c :: front ++ before = text at h
      cases h with
      | start => cases htext
      | blank _ h =>
          obtain ⟨rfl, rfl⟩ := List.cons.inj htext
          exact ih h hrest
      | piece hnot _ _ =>
          obtain ⟨rfl, -⟩ := List.cons.inj htext
          cases hblank.symm.trans hnot
  | @piece c piece front rest hnot hsplit _ ih =>
      rw [List.cons_append, List.append_assoc] at h
      generalize htext : c :: (piece ++ (front ++ before)) = text at h
      cases h with
      | start => cases htext
      | blank hblank _ =>
          obtain ⟨rfl, -⟩ := List.cons.inj htext
          cases hblank.symm.trans hnot
      | @piece c' piece' before' _ _ hsplit' h =>
          obtain ⟨rfl, htail⟩ := List.cons.inj htext
          have htext' : piece' ++ (before' ++ after) = piece ++ (front ++ rest) := by
            rw [← hrest, ← List.append_assoc, ← htail]
            simp
          rw [htext', hsplit] at hsplit'
          obtain ⟨rfl, -⟩ := Prod.mk.inj hsplit'
          obtain rfl := List.append_cancel_left htail
          exact ih h hrest

theorem isBlank_eq_false_of_start {c : Char} (h : isIdentifierStart c = true ∨ isNumberStart c = true) :
    Text.isBlank c = false :=
  h.elim (fun hc => isBlank_of_isIdentifierPart (isIdentifierPart_of_start hc))
    fun hc => (not_isIdentifierStart_of_isNumberStart hc).2

/-- A text may be cut at the points that lie inside no identifier and no number, and at no other. -/
theorem cut_iff_not_inside {before after : List Char} : Cut before after ↔ ¬Inside before after := by
  refine ⟨fun h hinside => ?_, (cut_or_inside before after).resolve_right⟩
  cases hinside with
  | @intro front c inner outer back hc houter hsplit hfront =>
      have hrest : Cut (c :: inner) (outer ++ back) := hfront.of_append h
      generalize htext : c :: inner = text at hrest
      cases hrest with
      | start => cases htext
      | blank hblank _ =>
          obtain ⟨rfl, -⟩ := List.cons.inj htext
          cases hblank.symm.trans (isBlank_eq_false_of_start hc)
      | @piece _ piece before _ _ hsplit' _ =>
          obtain ⟨rfl, rfl⟩ := List.cons.inj htext
          rw [List.append_assoc, hsplit'] at hsplit
          obtain ⟨hpiece, -⟩ := Prod.mk.inj hsplit
          rw [List.append_assoc, List.self_eq_append_right, List.append_eq_nil_iff] at hpiece
          exact houter hpiece.2

/-! ### Delimiters -/

theorem goesOn_of_mem_splitNumber {last d : Char} {cs : List Char} (h : d ∈ (splitNumber last cs).1) :
    ∃ last, continuesNumber last d = true := by
  induction cs generalizing last with
  | nil => cases h
  | cons c cs ih =>
      rw [splitNumber] at h
      split at h
      · next hc =>
          rcases List.mem_cons.mp h with rfl | h
          · exact ⟨last, hc⟩
          · exact ih h
      · cases h

theorem goesOn_of_mem_splitPiece {c d : Char} {cs : List Char} (h : d ∈ (splitPiece c cs).1) :
    isIdentifierPart d = true ∨ ∃ last, continuesNumber last d = true := by
  unfold splitPiece at h
  split at h
  · exact .inl (List.mem_takeWhile_imp h)
  · split at h
    · exact .inr (goesOn_of_mem_splitNumber h)
    · cases h

/-- A text may be cut in front of a character that goes on with no piece. -/
theorem cut_of_delimiter {d : Char} (hidentifier : isIdentifierPart d = false)
    (hnumber : ∀ last, continuesNumber last d = false) (before after : List Char) : Cut before (d :: after) := by
  refine (cut_or_inside before (d :: after)).resolve_right fun h => ?_
  generalize htext : d :: after = text at h
  cases h with
  | @intro front c inner outer back _ houter hsplit _ =>
      obtain ⟨e, outer, rfl⟩ := List.exists_cons_of_ne_nil houter
      obtain ⟨rfl, -⟩ := List.cons.inj htext
      have hmem : d ∈ (splitPiece c (inner ++ (d :: outer ++ back))).1 := by
        rw [hsplit]
        simp
      rcases goesOn_of_mem_splitPiece hmem with hpart | ⟨last, hlast⟩
      · cases hidentifier.symm.trans hpart
      · cases (hnumber last).symm.trans hlast

end Scorecard.Expression
