import Scorecard.Formula.Fingerprint
import Scorecard.Proofs.Expression.Printing
import Scorecard.Proofs.Json.Canonical
import Scorecard.Proofs.Json.Compact

/-!
The text behind a formula's fingerprint tells the formula. The compact text tells the canonical form, whose
members tell the shape and the fields of that shape, and these tell the constants as numbers.
-/
namespace Scorecard.Formula

theorem canonicalText_eq_iff_canonical (f g : Formula) :
    f.canonicalText = g.canonicalText ↔ f.toJson.canonical = g.toJson.canonical :=
  ⟨Json.compact_injective, congrArg Json.compact⟩

/-! ### Fields -/

/-- Formulas of one canonical form have the same canonical value under each name. -/
theorem lookup_of_canonical_eq {f g : Formula} (h : f.toJson.canonical = g.toJson.canonical) (k : String) :
    ((("type", .string f.kind.tag) :: f.fields).reverse.lookup k).map Json.canonical =
      ((("type", .string g.kind.tag) :: g.fields).reverse.lookup k).map Json.canonical := by
  rw [toJson, toJson, Json.canonical, Json.canonical, Json.object.injEq] at h
  rw [← Json.lookup_canonicalMembers, h, Json.lookup_canonicalMembers]

theorem kind_eq_of_canonical_eq {f g : Formula} (h : f.toJson.canonical = g.toJson.canonical) : f.kind = g.kind := by
  have htype (f : Formula) : (("type", .string f.kind.tag) :: f.fields).reverse.lookup "type" =
      some (.string f.kind.tag) := by
    cases f <;> rfl
  have htag := lookup_of_canonical_eq h "type"
  rw [htype, htype] at htag
  simp only [Option.map_some, Json.canonical, Option.some.injEq, Json.string.injEq] at htag
  have hkind := congrArg Kind.ofTag? htag
  rwa [Kind.ofTag?_tag, Kind.ofTag?_tag, Option.some.injEq] at hkind

theorem names_eq_of_canonical_eq {names names' : List String}
    (h : (Json.ofList .string names).canonical = (Json.ofList .string names').canonical) : names = names' := by
  simp only [Json.canonical_ofList, Json.canonical, Json.array.injEq] at h
  exact List.map_injective_iff.mpr (fun _ _ => Json.string.inj) h

/-- Weights are the same as numbers if and only if they have the same canonical values. -/
theorem sameConstants_iff {l l' : List (String × Float)} (hl : ∀ entry ∈ l, entry.2.isFinite = true)
    (hl' : ∀ entry ∈ l', entry.2.isFinite = true) :
    sameConstants l l' = true ↔
      l.map (fun e => (e.1, (Json.ofFloat e.2).canonical)) = l'.map fun e => (e.1, (Json.ofFloat e.2).canonical) := by
  induction l generalizing l' with
  | nil => cases l' <;> simp [sameConstants]
  | cons entry l ih =>
      cases l' with
      | nil => simp [sameConstants]
      | cons entry' l' =>
          obtain ⟨hentry, hl⟩ := List.forall_mem_cons.mp hl
          obtain ⟨hentry', hl'⟩ := List.forall_mem_cons.mp hl'
          simp only [sameConstants, Bool.and_eq_true, beq_iff_eq, ih hl hl', List.map_cons, List.cons.injEq,
            Prod.mk.injEq, Json.canonical_ofFloat_eq_iff hentry hentry']

/-! ### Formulas -/

theorem equivalent_of_canonical_eq {f g : Formula} (hf : ∀ x ∈ f.constants, x.isFinite = true)
    (hg : ∀ x ∈ g.constants, x.isFinite = true) (h : f.toJson.canonical = g.toJson.canonical) :
    f.equivalent g = true := by
  -- Formulas of two shapes differ in `type`; those of one shape are compared field by field.
  have hkind := kind_eq_of_canonical_eq h
  have hfield := lookup_of_canonical_eq h
  cases f with
  | average names =>
      cases g with
      | average names' => exact beq_iff_eq.mpr (names_eq_of_canonical_eq (Option.some.inj (hfield "metrics")))
      | _ => cases hkind
  | least names =>
      cases g with
      | least names' => exact beq_iff_eq.mpr (names_eq_of_canonical_eq (Option.some.inj (hfield "metrics")))
      | _ => cases hkind
  | greatest names =>
      cases g with
      | greatest names' => exact beq_iff_eq.mpr (names_eq_of_canonical_eq (Option.some.inj (hfield "metrics")))
      | _ => cases hkind
  | weightedSum weights =>
      cases g with
      | weightedSum weights' =>
          have hweights := Option.some.inj (hfield "weights")
          rw [Json.canonical_ofTable, Json.canonical_ofTable, Json.object.injEq] at hweights
          have hfinite : ∀ entry ∈ weights.entries, entry.2.isFinite = true := List.forall_mem_map.mp hf
          have hfinite' : ∀ entry ∈ weights'.entries, entry.2.isFinite = true := List.forall_mem_map.mp hg
          exact (sameConstants_iff hfinite hfinite').mpr hweights
      | _ => cases hkind
  | threshold name bound comparison =>
      cases g with
      | threshold name' bound' comparison' =>
          have hname : Json.string name = .string name' := Option.some.inj (hfield "metric")
          have hbound := Option.some.inj (hfield "threshold")
          have hword : Json.string comparison.word = .string comparison'.word := Option.some.inj (hfield "comparison")
          have hcomparison := congrArg Comparison.ofWord? (Json.string.inj hword)
          rw [Comparison.ofWord?_word, Comparison.ofWord?_word, Option.some.injEq] at hcomparison
          rw [Json.canonical_ofFloat_eq_iff (hf bound List.mem_cons_self) (hg bound' List.mem_cons_self)] at hbound
          simp [equivalent, Json.string.inj hname, hbound, hcomparison]
      | _ => cases hkind

theorem canonical_eq_of_equivalent {f g : Formula} (hf : ∀ x ∈ f.constants, x.isFinite = true)
    (hg : ∀ x ∈ g.constants, x.isFinite = true) (h : f.equivalent g = true) :
    f.toJson.canonical = g.toJson.canonical := by
  cases f with
  | average names =>
      cases g with
      | average names' => rw [eq_of_beq h]
      | _ => cases h
  | least names =>
      cases g with
      | least names' => rw [eq_of_beq h]
      | _ => cases h
  | greatest names =>
      cases g with
      | greatest names' => rw [eq_of_beq h]
      | _ => cases h
  | weightedSum weights =>
      cases g with
      | weightedSum weights' =>
          have hfinite : ∀ entry ∈ weights.entries, entry.2.isFinite = true := List.forall_mem_map.mp hf
          have hfinite' : ∀ entry ∈ weights'.entries, entry.2.isFinite = true := List.forall_mem_map.mp hg
          have hweights := (sameConstants_iff hfinite hfinite').mp h
          simp only [toJson, fields, kind, Json.canonical, Json.canonicalMembers, Json.canonical_ofTable, hweights]
      | _ => cases h
  | threshold name bound comparison =>
      cases g with
      | threshold name' bound' comparison' =>
          simp only [equivalent, Bool.and_eq_true, beq_iff_eq, decide_eq_true_eq] at h
          obtain ⟨⟨rfl, hbound⟩, rfl⟩ := h
          have hcanonical := (Json.canonical_ofFloat_eq_iff (hf bound List.mem_cons_self)
            (hg bound' List.mem_cons_self)).mpr hbound
          simp only [toJson, fields, kind, Json.canonical, Json.canonicalMembers, hcanonical]
      | _ => cases h

/-- Formulas with finite constants have one canonical text if and only if they are equal, where the two
zeros are. -/
theorem canonicalText_eq_iff (f g : Formula) (hf : ∀ x ∈ f.constants, x.isFinite = true)
    (hg : ∀ x ∈ g.constants, x.isFinite = true) : f.canonicalText = g.canonicalText ↔ f.equivalent g = true := by
  rw [canonicalText_eq_iff_canonical]
  exact ⟨equivalent_of_canonical_eq hf hg, canonical_eq_of_equivalent hf hg⟩

/-- Neither the order of the weights nor the spelling of the metrics is seen in the text, nor is the sign
of a zero; another weight is. -/
theorem canonicalText_eq_of_zero_weight :
    let f := weightedSumOf [("rouge", 0), (" Bleu", 0.5)]
    f.canonicalText = (weightedSumOf [("BLEU", 0.5), ("ROUGE", -0)]).canonicalText ∧
      f.canonicalText ≠ (weightedSumOf [("BLEU", 0.5), ("ROUGE", 1)]).canonicalText := by
  intro f
  have hf : ∀ x ∈ f.constants, x.isFinite = true := by decide +kernel
  constructor
  · exact (canonicalText_eq_iff _ _ hf (by decide +kernel)).mpr (by decide +kernel)
  · intro h
    exact absurd ((canonicalText_eq_iff _ _ hf (by decide +kernel)).mp h) (by decide +kernel)

end Scorecard.Formula
