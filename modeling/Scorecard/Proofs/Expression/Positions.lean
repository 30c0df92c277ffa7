import Scorecard.Proofs.Expression.Grammar

/-!
Where the parts of a call stand. The arguments of a call hold the tokens between the parentheses, less the commas,
in their order; the place of an argument is that of its first token or of the delimiter behind it.
-/
namespace Scorecard.Expression

namespace Position

/-- What places are ordered by. -/
def key (p : Position) : Nat ×ₗ Nat := toLex (p.line.toNat, p.column.toNat)

theorem atMost_iff {p q : Position} : p.atMost q = true ↔ p.key ≤ q.key := by
  simp [atMost, key, Prod.Lex.le_iff, UInt32.lt_iff_toNat_lt, UInt32.le_iff_toNat_le, UInt32.toNat_inj]

theorem afterAll_append (p : Position) (cs ds : List Char) : p.afterAll (cs ++ ds) = (p.afterAll cs).afterAll ds :=
  List.foldl_append

end Position

/-! ### Arguments -/

/-- The places that belong to an argument: its own, and those of its tokens. -/
def Argument.places (a : Argument) : List Position := a.position :: a.tokens.map (·.position)

theorem Argument.places_ofTokens (ts : List Token) (ending : Position) :
    (Argument.ofTokens ts ending).places ⊆ ts.map (·.position) ++ [ending] := by
  cases ts with
  | nil => exact List.Subset.refl _
  | cons t ts => simp [Argument.ofTokens, Argument.places]

theorem places_of_mem_splitArguments {pending : List Token} {closing : Position} {ts : List Token} {a : Argument}
    (h : a ∈ splitArguments pending closing ts) :
    a.places ⊆ (pending.reverse ++ ts).map (·.position) ++ [closing] := by
  induction ts generalizing pending with
  | nil =>
      rw [splitArguments, List.mem_singleton] at h
      rw [h, List.append_nil]
      exact Argument.places_ofTokens _ closing
  | cons t ts ih =>
      rw [splitArguments] at h
      intro p hp
      split at h
      · rcases List.mem_cons.mp h with rfl | h
        · have hplace := Argument.places_ofTokens _ _ hp
          grind
        · have hplace := ih h hp
          grind
      · have hplace := ih h hp
        grind

/-- Each place of an argument is that of a token between the parentheses, or of the closing one. -/
theorem places_of_mem_argumentsOf {inner : List Token} {closing : Position} {a : Argument}
    (h : a ∈ argumentsOf inner closing) : a.places ⊆ inner.map (·.position) ++ [closing] := by
  cases inner with
  | nil => cases h
  | cons t ts =>
      have hsplit : a ∈ splitArguments [] closing (t :: ts) := h
      exact places_of_mem_splitArguments hsplit

end Scorecard.Expression
