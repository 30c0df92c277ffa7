import Scorecard.Metric.Registry
import Scorecard.Proofs.Table

/-!
What a registry knows after names were added: what it knew before, and the names in normal form that
are not blank.
-/
namespace Scorecard.Metric.Registry

theorem contains_insert (s : NameSet) (name k : String) :
    (s.insert name).contains k = true ↔ k = name ∨ s.contains k = true := by
  rw [NameSet.insert, Table.contains, Table.get?_insert, Table.contains]
  by_cases h : k = name
  · simp [h]
  · simp [h]

theorem contains_add (r : Registry) (name k : String) :
    (r.add name).1.names.contains k = true ↔ r.names.contains k = true ∨ (k ≠ "" ∧ normalize name = k) := by
  unfold add
  dsimp only
  by_cases h : normalize name = "" ∨ r.names.contains (normalize name) = true
  · rw [if_pos h]
    refine ⟨.inl, fun hk => hk.elim id ?_⟩
    rintro ⟨hblank, rfl⟩
    exact h.resolve_left hblank
  · rw [if_neg h, contains_insert]
    obtain ⟨hblank, hnew⟩ := not_or.mp h
    constructor
    · rintro (rfl | hk)
      · exact .inr ⟨hblank, rfl⟩
      · exact .inl hk
    · rintro (hk | ⟨-, rfl⟩)
      · exact .inr hk
      · exact .inl rfl

/-- A name that counts as new is not blank. -/
theorem ne_blank_of_add {r : Registry} {name : String} (h : (r.add name).2 = 1) : normalize name ≠ "" := by
  intro hblank
  rw [add, if_pos (.inl hblank)] at h
  cases h

theorem withNames_cons (r : Registry) (name : String) (names : List String) :
    r.withNames (name :: names) = (r.add name).1.withNames names := by
  rw [withNames, register, withNames]

/-- After names were added the registry knows them too, unless they are blank. -/
theorem contains_withNames (r : Registry) (names : List String) (k : String) :
    (r.withNames names).names.contains k = true ↔
      r.names.contains k = true ∨ (k ≠ "" ∧ ∃ name ∈ names, normalize name = k) := by
  induction names generalizing r with
  | nil => simp [withNames, register]
  | cons name names ih =>
      rw [withNames_cons, ih, contains_add]
      simp only [List.mem_cons, exists_eq_or_imp]
      constructor
      · rintro ((hr | ⟨hk, hname⟩) | ⟨hk, hnames⟩)
        · exact .inl hr
        · exact .inr ⟨hk, .inl hname⟩
        · exact .inr ⟨hk, .inr hnames⟩
      · rintro (hr | ⟨hk, hname | hnames⟩)
        · exact .inl (.inl hr)
        · exact .inl (.inr ⟨hk, hname⟩)
        · exact .inr ⟨hk, hnames⟩

/-- The second registry knows all that the first one knows. -/
instance : HasSubset Registry where
  Subset r s := ∀ name, r.names.contains name = true → s.names.contains name = true

/-- Registration takes nothing away. -/
theorem subset_withNames (r : Registry) (names : List String) : r ⊆ r.withNames names :=
  fun name hname => (contains_withNames r names name).mpr (.inl hname)

end Scorecard.Metric.Registry
