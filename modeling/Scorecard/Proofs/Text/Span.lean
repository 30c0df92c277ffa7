/-!
Texts cut where a class of characters ends. The readers of identifiers, numbers and literals all take the
characters of one class and go on with the rest.
-/
namespace Scorecard.Text

/-- Characters of a class, with a text behind them that does not start with one, are all that is taken. -/
theorem span_append {p : Char → Bool} {cs rest : List Char} (hcs : ∀ c ∈ cs, p c = true)
    (hrest : ∀ c ∈ rest.head?, p c = false) :
    (cs ++ rest).takeWhile p = cs ∧ (cs ++ rest).dropWhile p = rest := by
  rw [List.takeWhile_append_of_pos hcs, List.dropWhile_append_of_pos hcs]
  cases rest with
  | nil => simp
  | cons c rest => simp [hrest c rfl]

end Scorecard.Text
