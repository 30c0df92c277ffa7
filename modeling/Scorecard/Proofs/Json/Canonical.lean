import Scorecard.Json.Canonical
import Scorecard.Json.Fields
import Scorecard.Proofs.Decimal.Bits
import Scorecard.Proofs.Decimal.Rounding

/-!
Canonical forms. Under each name an object's canonical form has the canonical value of the last member of
that name, so members in increasing order stay where they are. Doubles have one canonical form if and only
if they are equal as numbers: whole ones are told by the integers that they become and the others by
themselves, and the two zeros become one.
-/
namespace Scorecard.Json

/-! ### Members -/

theorem insertEntry_of_forall_lt {α : Type} {k : String} {l : List (String × α)} (h : ∀ e ∈ l, k < e.1) (v : α) :
    insertEntry k v l = (k, v) :: l := by
  cases l with
  | nil => rfl
  | cons e l =>
      obtain ⟨k', v'⟩ := e
      rw [insertEntry, if_pos (h _ List.mem_cons_self)]

theorem lookup_insertMember (k k' : String) (v : Json) (members : List (String × Json)) :
    (insertMember k v members).lookup k' = (members.lookup k').or (if k' = k then some v else none) := by
  unfold insertMember
  split
  · rename_i hsome
    obtain ⟨w, hw⟩ := Option.isSome_iff_exists.mp hsome
    by_cases hk : k' = k
    · simp [hk, hw]
    · simp [hk]
  · rename_i hnone
    rw [Table.lookup_insertEntry]
    by_cases hk : k' = k
    · rw [if_pos hk, if_pos hk, hk, Option.not_isSome_iff_eq_none.mp hnone, Option.none_or]
    · rw [if_neg hk, if_neg hk, Option.or_none]

/-- Under a name the canonical form has the canonical value of the last member of that name. -/
theorem lookup_canonicalMembers (members : List (String × Json)) (k : String) :
    (canonicalMembers members).lookup k = (members.reverse.lookup k).map canonical := by
  induction members with
  | nil => rfl
  | cons m members ih =>
      obtain ⟨k', v⟩ := m
      rw [canonicalMembers, lookup_insertMember, ih, List.reverse_cons, List.lookup_append, Option.map_or,
        Table.lookup_cons_eq_ite, List.lookup_nil]
      split <;> rfl

theorem canonicalMembers_of_ordered {members : List (String × Json)} (h : Ordered members) :
    canonicalMembers members = members.map fun m => (m.1, m.2.canonical) := by
  induction members with
  | nil => rfl
  | cons m members ih =>
      obtain ⟨k, v⟩ := m
      obtain ⟨hfirst, hrest⟩ := List.pairwise_cons.mp h
      have hlt : ∀ e ∈ members.map fun m => (m.1, m.2.canonical), k < e.1 := List.forall_mem_map.mpr hfirst
      have hnew : (members.map fun m => (m.1, m.2.canonical)).lookup k = none := by
        rw [List.lookup_eq_none_iff]
        intro e he
        simpa using ne_of_lt (hlt e he)
      rw [canonicalMembers, ih hrest, insertMember, hnew, if_neg (by simp), insertEntry_of_forall_lt hlt, List.map_cons]

theorem canonicalItems_eq (items : List Json) : canonicalItems items = items.map canonical := by
  induction items with
  | nil => rfl
  | cons v items ih => rw [canonicalItems, ih, List.map_cons]

/-- Tables stay as they are, with the values in canonical form. -/
theorem canonical_ofTable {α : Type} (write : α → Json) (t : Table α) :
    (ofTable write t).canonical = .object (t.entries.map fun e => (e.1, (write e.2).canonical)) := by
  have hordered : Ordered (t.entries.map fun e => (e.1, write e.2)) := List.pairwise_map.mpr t.ordered
  rw [ofTable, canonical, canonicalMembers_of_ordered hordered, List.map_map]
  rfl

theorem canonical_ofList {α : Type} (write : α → Json) (l : List α) :
    (ofList write l).canonical = .array (l.map fun a => (write a).canonical) := by
  rw [ofList, canonical, canonicalItems_eq, List.map_map]
  rfl

/-! ### Doubles -/

theorem units_injective {r s : Nat} (hr : r < Decimal.infinityRank) (hs : s < Decimal.infinityRank)
    (h : Decimal.units r = Decimal.units s) : r = s := by
  rw [← Decimal.nearestRank_units hr, h, Decimal.nearestRank_units hs]

/-- A double that is whole has the magnitude of its integer, and the sign too unless it is a zero. -/
theorem of_wholeBelowLimit? {x : Float} {n : Int} (h : wholeBelowLimit? x = some n) :
    Decimal.units (Decimal.rankOf x) = n.natAbs * Decimal.unitsPerOne ∧
      (n ≠ 0 → Decimal.isNegative x = decide (n < 0)) := by
  unfold wholeBelowLimit? at h
  dsimp only at h
  split at h
  · rename_i hx
    have hdiv := Nat.div_mul_cancel (Nat.dvd_of_mod_eq_zero hx.1)
    generalize Decimal.units (Decimal.rankOf x) / Decimal.unitsPerOne = q at h hdiv
    rw [← hdiv]
    obtain rfl := Option.some.inj h
    cases Decimal.isNegative x with
    | false => simp
    | true =>
        refine ⟨by simp, fun hn => ?_⟩
        rw [if_pos rfl] at hn ⊢
        simp only [eq_comm (a := true), decide_eq_true_eq]
        omega
  · cases h

/-- Doubles that are one integer are equal. Both have its magnitude, and they can differ in sign only if
they are zeros. -/
theorem beq_of_wholeBelowLimit? {x y : Float} {n : Int} (hx : wholeBelowLimit? x = some n)
    (hy : wholeBelowLimit? y = some n) (hfx : x.isFinite = true) (hfy : y.isFinite = true) : (x == y) = true := by
  obtain ⟨hunits, hsign⟩ := of_wholeBelowLimit? hx
  obtain ⟨hunits', hsign'⟩ := of_wholeBelowLimit? hy
  have hrank : Decimal.rankOf x = Decimal.rankOf y :=
    units_injective (Decimal.isFinite_iff.mp hfx) (Decimal.isFinite_iff.mp hfy) (hunits.trans hunits'.symm)
  rw [← Decimal.ofRank_isNegative_rankOf x, ← Decimal.ofRank_isNegative_rankOf y, ← hrank]
  by_cases hn : n = 0
  · have hzero : Decimal.rankOf x = 0 := by
      by_contra hpos
      have hunitsPos := Decimal.units_pos (Nat.pos_of_ne_zero hpos)
      rw [hunits, hn] at hunitsPos
      simp at hunitsPos
    rw [hzero]
    have hzeros : ∀ a b, (Decimal.ofRank a 0 == Decimal.ofRank b 0) = true := by decide +kernel
    exact hzeros _ _
  · have hsame : Decimal.isNegative x = Decimal.isNegative y := (hsign hn).trans (hsign' hn).symm
    rw [hsame, hrank, Decimal.ofRank_isNegative_rankOf]
    exact Decimal.beq_self_of_isFinite hfy

theorem canonical_ofFloat_of_some {x : Float} {n : Int} (hx : x.isFinite = true) (h : wholeBelowLimit? x = some n) :
    (ofFloat x).canonical = .number (.integer n (fitsWord_of_wholeBelowLimit? h)) := by
  rw [ofFloat, dif_pos hx, canonical, Number.canonical]
  split
  · rename_i m hm
    obtain rfl : m = n := Option.some.inj (hm.symm.trans h)
    rfl
  · rename_i hnone
    rw [h] at hnone
    cases hnone

theorem canonical_ofFloat_of_none {x : Float} (hx : x.isFinite = true) (h : wholeBelowLimit? x = none) :
    (ofFloat x).canonical = .number (.float x hx) := by
  rw [ofFloat, dif_pos hx, canonical, Number.canonical]
  split
  · rename_i m hm
    rw [h] at hm
    cases hm
  · rfl

/-- Two doubles have one canonical form if and only if they are equal as numbers. -/
theorem canonical_ofFloat_eq_iff {x y : Float} (hx : x.isFinite = true) (hy : y.isFinite = true) :
    (ofFloat x).canonical = (ofFloat y).canonical ↔ (x == y) = true := by
  constructor
  · intro h
    cases hwx : wholeBelowLimit? x with
    | some n =>
        rw [canonical_ofFloat_of_some hx hwx] at h
        cases hwy : wholeBelowLimit? y with
        | some m =>
            rw [canonical_ofFloat_of_some hy hwy] at h
            cases h
            exact beq_of_wholeBelowLimit? hwx hwy hx hy
        | none =>
            rw [canonical_ofFloat_of_none hy hwy] at h
            cases h
    | none =>
        rw [canonical_ofFloat_of_none hx hwx] at h
        cases hwy : wholeBelowLimit? y with
        | some m =>
            rw [canonical_ofFloat_of_some hy hwy] at h
            cases h
        | none =>
            rw [canonical_ofFloat_of_none hy hwy] at h
            cases h
            exact Decimal.beq_self_of_isFinite hx
  · intro h
    have hzero : wholeBelowLimit? 0 = some 0 := by decide +kernel
    have hnegZero : wholeBelowLimit? (-0) = some 0 := by decide +kernel
    obtain ⟨-, -, heq⟩ := Float.beq_iff_ne_nan_and_eq.mp h
    rcases heq with rfl | ⟨rfl, rfl⟩ | ⟨rfl, rfl⟩
    · rfl
    · rw [canonical_ofFloat_of_some hx hzero, canonical_ofFloat_of_some hy hnegZero]
    · rw [canonical_ofFloat_of_some hx hnegZero, canonical_ofFloat_of_some hy hzero]

end Scorecard.Json
