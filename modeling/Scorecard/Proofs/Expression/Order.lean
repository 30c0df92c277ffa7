import Scorecard.Proofs.Expression.Positions

/-!
The order of faults. Faults are put in the order of their places, and those of one place stay as they were. So a
fault that comes first takes its place in front of all that are not in front of it, and it makes no difference
whether faults are left out before they are put in order or after.
-/
namespace Scorecard.Expression

namespace Position

theorem atMost_trans (p q r : Position) (hpq : p.atMost q = true) (hqr : q.atMost r = true) : p.atMost r = true := by
  rw [atMost_iff] at hpq hqr ⊢
  exact hpq.trans hqr

theorem atMost_total (p q : Position) : (p.atMost q || q.atMost p) = true := by
  rw [Bool.or_eq_true, atMost_iff, atMost_iff]
  exact le_total _ _

end Position

theorem pairwise_inOrder (found : List Fault) :
    (inOrder found).Pairwise fun f g => f.position.atMost g.position = true :=
  List.pairwise_mergeSort (fun f g h => f.position.atMost_trans g.position h.position)
    (fun f g => f.position.atMost_total g.position) found

theorem perm_inOrder (found : List Fault) : (inOrder found).Perm found := List.mergeSort_perm _ _

/-- The first of the faults comes to stand behind those in front of its place, and in front of the others. -/
theorem inOrder_cons (f : Fault) (found : List Fault) :
    ∃ before after, inOrder (f :: found) = before ++ f :: after ∧ inOrder found = before ++ after ∧
      (∀ g ∈ before, f.position.atMost g.position = false) ∧ ∀ g ∈ after, f.position.atMost g.position = true := by
  obtain ⟨before, after, hcons, hrest, hbefore⟩ :=
    List.mergeSort_cons (fun f g h : Fault => f.position.atMost_trans g.position h.position)
      (fun f g => f.position.atMost_total g.position) f found
  have hsorted := pairwise_inOrder (f :: found)
  rw [show inOrder (f :: found) = _ from hcons, List.pairwise_append, List.pairwise_cons] at hsorted
  exact ⟨before, after, hcons, hrest, by simpa using hbefore, hsorted.2.1.1⟩

/-- A list is split in one way into what fails a test and what passes it. -/
theorem append_inj_of_forall {α : Type} {test : α → Bool} {before after before' after' : List α}
    (h : before ++ after = before' ++ after') (hbefore : ∀ a ∈ before, test a = false)
    (hafter : ∀ a ∈ after, test a = true) (hbefore' : ∀ a ∈ before', test a = false)
    (hafter' : ∀ a ∈ after', test a = true) : before = before' ∧ after = after' := by
  have hpart {l : List α} (hl : ∀ a ∈ l, test a = false) : l.filter test = [] := by simpa using hl
  have hpass : after = after' := by
    have hfilter := congrArg (List.filter test) h
    rwa [List.filter_append, List.filter_append, hpart hbefore, hpart hbefore', List.filter_eq_self.mpr hafter,
      List.filter_eq_self.mpr hafter'] at hfilter
  exact ⟨List.append_cancel_right (hpass ▸ h), hpass⟩

/-- Faults that are left out leave the others in their order. -/
theorem filter_inOrder (keep : Fault → Bool) (found : List Fault) :
    (inOrder found).filter keep = inOrder (found.filter keep) := by
  induction found with
  | nil => simp [inOrder]
  | cons f found ih =>
      obtain ⟨before, after, hcons, hrest, hbefore, hafter⟩ := inOrder_cons f found
      rw [hrest, List.filter_append] at ih
      rw [hcons, List.filter_append]
      by_cases hkeep : keep f = true
      · obtain ⟨before', after', hcons', hrest', hbefore', hafter'⟩ := inOrder_cons f (found.filter keep)
        obtain ⟨rfl, rfl⟩ := append_inj_of_forall (ih.trans hrest')
          (fun g hg => hbefore g (List.mem_of_mem_filter hg)) (fun g hg => hafter g (List.mem_of_mem_filter hg))
          hbefore' hafter'
        rw [List.filter_cons_of_pos hkeep, List.filter_cons_of_pos hkeep, hcons']
      · rw [List.filter_cons_of_neg hkeep, List.filter_cons_of_neg hkeep, ih]

/-- Faults that are put elsewhere in the same order are put in order alike. -/
theorem map_inOrder {change : Fault → Fault} {found : List Fault}
    (h : ∀ f ∈ found, ∀ g ∈ found, (change f).position.atMost (change g).position = f.position.atMost g.position) :
    (inOrder found).map change = inOrder (found.map change) :=
  List.map_mergeSort fun f hf g hg => (h f hf g hg).symm

end Scorecard.Expression
