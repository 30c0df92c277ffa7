import Scorecard.Proofs.Alert.Calendar
import Scorecard.Proofs.Timestamp.Order

/-!
Which alerts fire for which entries. An alert that is enabled and not cooling fires for the first entry
that meets it, and is silent from then on within its cooldown; without a cooldown it fires for every such
entry. What it does is told by its own fields, the entries and the time of the check alone, so the firings
of a list of alerts are those of the single ones, sorted by the entries and then by the alerts.
-/
namespace Scorecard.Alert

/-- The alert fires for the next entry that meets it. -/
def isReady (a : Alert) (now : Timestamp) : Bool := a.enabled && a.isCooling? now == some false

/-- The alert watches the entry, and its condition holds of the score. -/
def meets (a : Alert) (e : Kpi.HistoryEntry) : Bool := a.watches e && a.holds e.value

variable {now : Timestamp} {a : Alert}

/-! ### One alert -/

theorem fires_iff_isReady {e : Kpi.HistoryEntry} :
    a.fires now e = true ↔ a.isReady now = true ∧ a.meets e = true := by
  rw [fires_eq_true_iff, isReady, meets, Bool.and_eq_true, Bool.and_eq_true, beq_iff_eq]
  tauto

/-- With a cooldown, an alert is not ready again at the time of its mark. -/
theorem isReady_markTriggered_of_ne_zero (h : a.cooldownMinutes ≠ 0) : (a.markTriggered now).isReady now = false := by
  have hminutes : a.cooldownMinutes.toNat ≠ 0 := fun hzero => h (UInt32.toNat_inj.mp hzero)
  have hcooling : (a.markTriggered now).isCooling? now ≠ some false := by
    rw [isCooling?]
    dsimp only [markTriggered]
    cases hfinish : cooldownEnd? { a with lastTriggeredAt := some now } now with
    | none => simp
    | some finish => simpa using Timestamp.lt_of_addMinutes? hminutes hfinish
  rw [isReady, beq_eq_false_iff_ne.mpr hcooling, Bool.and_false]

/-- Without one, the mark does not keep it from firing again. -/
theorem isReady_markTriggered_of_eq_zero (h : a.cooldownMinutes = 0) : (a.markTriggered now).isReady now = a.enabled := by
  have hfinish : cooldownEnd? { a with lastTriggeredAt := some now } now = some now := by
    rw [cooldownEnd?, h]
    rfl
  have hcooling : (a.markTriggered now).isCooling? now = some false := by
    rw [isCooling?]
    dsimp only [markTriggered]
    rw [hfinish, Option.map_some, decide_eq_false (Timestamp.lt_irrefl now)]
  rw [isReady, hcooling, beq_self_eq_true, Bool.and_true]
  rfl

/-- The entries leave an alert marked if it fires for one of them, and as it was if not. -/
theorem foldl_pass_eq (a : Alert) (history : List Kpi.HistoryEntry) :
    history.foldl (pass now) a = if history.any (a.fires now) then a.markTriggered now else a := by
  induction history with
  | nil => rfl
  | cons e history ih =>
      rw [List.foldl_cons, List.any_cons]
      cases hfires : a.fires now e with
      | true =>
          rw [pass_of_fires now hfires, foldl_pass_markTriggered]
          rfl
      | false =>
          rw [pass_of_not_fires now hfires, ih]
          rfl

/-- The alert fires for the entry at the position `j`, as the entries before have left it. -/
def firesAt (now : Timestamp) (history : List Kpi.HistoryEntry) (j : Fin history.length) (a : Alert) : Bool :=
  ((history.take j).foldl (pass now) a).fires now history[j]

variable {history : List Kpi.HistoryEntry} {j : Fin history.length}

/-- An alert with a cooldown fires for an entry if it was ready at first and no entry before meets it. -/
theorem firesAt_iff_of_ne_zero (h : a.cooldownMinutes ≠ 0) :
    a.firesAt now history j = true ↔
      a.isReady now = true ∧ a.meets history[j] = true ∧ ∀ k < j, a.meets history[k] = false := by
  have hbefore : (∀ k < j, a.meets history[k] = false) ↔ ∀ e ∈ history.take j, a.meets e = false := by
    rw [List.forall_mem_iff_forall_getElem]
    simp only [List.length_take, List.getElem_take, lt_min_iff]
    exact ⟨fun hbefore k hk => hbefore ⟨k, hk.2⟩ hk.1, fun hbefore k hk => hbefore k ⟨hk, k.isLt⟩⟩
  rw [hbefore, firesAt, foldl_pass_eq, fires_iff_isReady]
  split
  · next hany =>
      obtain ⟨e, he, hfires⟩ := List.any_eq_true.mp hany
      have hmeets := (fires_iff_isReady.mp hfires).2
      rw [isReady_markTriggered_of_ne_zero h]
      refine ⟨fun hfalse => absurd hfalse.1 Bool.false_ne_true, fun ⟨_, _, hnone⟩ => ?_⟩
      rw [hnone e he] at hmeets
      cases hmeets
  · next hany =>
      have hquiet : a.isReady now = true → ∀ e ∈ history.take j, a.meets e = false := fun hready e he => by
        refine Bool.eq_false_iff.mpr fun hmeets => hany ?_
        exact List.any_eq_true.mpr ⟨e, he, fires_iff_isReady.mpr ⟨hready, hmeets⟩⟩
      exact ⟨fun ⟨hready, hmeets⟩ => ⟨hready, hmeets, hquiet hready⟩, fun ⟨hready, hmeets, _⟩ => ⟨hready, hmeets⟩⟩

/-- An alert without a cooldown fires for an entry if it was ready at first. -/
theorem firesAt_iff_of_eq_zero (h : a.cooldownMinutes = 0) :
    a.firesAt now history j = true ↔ a.isReady now = true ∧ a.meets history[j] = true := by
  rw [firesAt, foldl_pass_eq, fires_iff_isReady]
  split
  · next hany =>
      obtain ⟨e, -, hfires⟩ := List.any_eq_true.mp hany
      have hready := (fires_iff_isReady.mp hfires).1
      rw [isReady_markTriggered_of_eq_zero h, enabled_of_fires hfires, hready]
      rfl
  · exact Iff.rfl

theorem fires_of_firesAt (h : a.firesAt now history j = true) : a.fires now history[j] = true := by
  rw [fires_iff_isReady]
  by_cases hzero : a.cooldownMinutes = 0
  · exact (firesAt_iff_of_eq_zero hzero).mp h
  · obtain ⟨hready, hmeets, -⟩ := (firesAt_iff_of_ne_zero hzero).mp h
    exact ⟨hready, hmeets⟩

/-- The first entry that an alert fires for finds it as it was. -/
theorem exists_firesAt_iff : (∃ j, a.firesAt now history j = true) ↔ history.any (a.fires now) = true := by
  constructor
  · rintro ⟨j, hfires⟩
    exact List.any_eq_true.mpr ⟨history[j], List.getElem_mem _, fires_of_firesAt hfires⟩
  · intro hany
    obtain ⟨e, hfind⟩ := Option.isSome_iff_exists.mp (List.find?_isSome.mpr (List.any_eq_true.mp hany))
    obtain ⟨hfires, before, after, rfl, hbefore⟩ := List.find?_eq_some_iff_append.mp hfind
    have hquiet : before.any (a.fires now) = false :=
      List.any_eq_false.mpr fun e' he' => by simpa using hbefore e' he'
    have hleft : (before.foldl (pass now) a).fires now e = true := by
      rw [foldl_pass_eq, hquiet]
      exact hfires
    exact ⟨⟨before.length, by simp⟩, by simpa [firesAt] using hleft⟩

/-! ### Lists of alerts -/

variable (now) (alerts : List Alert) (history)

/-- The entries and the alerts that fire for them, by entry and then by alert. -/
def firingPlaces : List (Fin history.length × Fin alerts.length) :=
  (List.finRange history.length).flatMap fun j =>
    ((List.finRange alerts.length).filter fun i => (alerts.get i).firesAt now history j).map fun i => (j, i)

theorem mem_firingPlaces {i : Fin alerts.length} :
    (j, i) ∈ firingPlaces now history alerts ↔ (alerts.get i).firesAt now history j = true := by
  simp [firingPlaces]

theorem pairwise_firingPlaces : (firingPlaces now history alerts).Pairwise (Prod.Lex (· < ·) (· < ·)) := by
  rw [firingPlaces, List.pairwise_flatMap]
  constructor
  · intro j _
    rw [List.pairwise_map]
    exact ((List.pairwise_lt_finRange _).filter _).imp fun h => .right _ h
  · apply (List.pairwise_lt_finRange _).imp
    intro j j' h p hp p' hp'
    obtain ⟨i, -, rfl⟩ := List.mem_map.mp hp
    obtain ⟨i', -, rfl⟩ := List.mem_map.mp hp'
    exact .left _ _ h

/-- The firings of a check, entry by entry. -/
theorem firings_eq_flatMap :
    firings now alerts history = (List.finRange history.length).flatMap fun j : Fin history.length =>
      (alerts.filter (firesAt now history j)).map fun a => a.firing now history[j] := by
  induction history generalizing alerts with
  | nil => rfl
  | cons e history ih =>
      have hpositions : List.finRange (e :: history).length = 0 :: (List.finRange history.length).map Fin.succ :=
        List.finRange_succ
      rw [firings, ih, hpositions, List.flatMap_cons, List.flatMap_map]
      refine congrArg₂ (· ++ ·) rfl (List.flatMap_congr fun j _ => ?_)
      -- the mark that the first entry may have left is no part of a firing
      have hfiring : (fun a : Alert => a.firing now history[j]) ∘ (fun a : Alert => a.pass now e) =
          fun a : Alert => a.firing now history[j] := by
        funext a
        show (a.pass now e).firing now history[j] = _
        rw [pass]
        split <;> rfl
      rw [List.filter_map, List.map_map, hfiring]
      rfl

/-- The positions of the members that a condition selects, in place of the members. -/
theorem map_filter_finRange {α β : Type} (l : List α) (p : α → Bool) (f : α → β) :
    ((List.finRange l.length).filter fun i : Fin l.length => p l[i]).map (fun i => f l[i]) = (l.filter p).map f := by
  have hget : (List.finRange l.length).map (fun i => l[i]) = l := List.map_getElem_finRange l
  conv_rhs => rw [← hget, List.filter_map, List.map_map]
  rfl

theorem firings_eq_map :
    firings now alerts history =
      (firingPlaces now history alerts).map fun p => (alerts.get p.2).firing now history[p.1] := by
  rw [firings_eq_flatMap, firingPlaces, List.map_flatMap]
  refine List.flatMap_congr fun j _ => ?_
  rw [List.map_map]
  exact (map_filter_finRange alerts _ _).symm

/-- The alerts after the entries, one by one. -/
theorem map_foldl_pass_eq_map :
    (alerts.map fun a => history.foldl (pass now) a) = (List.finRange alerts.length).map fun i : Fin alerts.length =>
      if ∃ j, (j, i) ∈ firingPlaces now history alerts then (alerts.get i).markTriggered now else alerts.get i := by
  have hget : (List.finRange alerts.length).map (fun i => alerts.get i) = alerts := List.map_getElem_finRange alerts
  conv_lhs => rw [← hget, List.map_map]
  refine List.map_congr_left fun i _ => ?_
  simp only [mem_firingPlaces, exists_firesAt_iff, Function.comp_apply, foldl_pass_eq]

/-- The positions of a list with a given one and a condition on the member there. -/
theorem filter_finRange_eq {α : Type} (l : List α) (p : α → Bool) (i : Fin l.length) :
    ((List.finRange l.length).filter fun i' : Fin l.length => decide (i' = i) && p l[i']) = if p l[i] then [i] else [] := by
  have hone : (List.finRange l.length).filter (· == i) = [i] := by
    rw [List.filter_beq, List.count_eq_one_of_mem (List.nodup_finRange _) (List.mem_finRange i)]
    rfl
  have hhere (i' : Fin l.length) : (decide (i' = i) && p l[i']) = (p l[i] && (i' == i)) := by
    by_cases h : i' = i
    · subst h
      simp
    · simp [h]
  simp only [hhere]
  cases p l[i] with
  | true => simpa using hone
  | false => simp

/-- Of the firings of a list, those of one alert are its firings by itself. -/
theorem firings_singleton (i : Fin alerts.length) :
    firings now [alerts.get i] history =
      ((firingPlaces now history alerts).filter (·.2 = i)).map fun p => (alerts.get i).firing now history[p.1] := by
  rw [firings_eq_flatMap, firingPlaces, List.filter_flatMap, List.map_flatMap]
  refine List.flatMap_congr fun j _ => ?_
  rw [List.filter_map, List.map_map, List.filter_filter]
  refine Eq.trans ?_ (congrArg (List.map _) (filter_finRange_eq alerts (firesAt now history j) i).symm)
  rw [List.filter_singleton]
  cases (alerts.get i).firesAt now history j <;> rfl

/-- The firings of a list in another order are the same in another order. -/
theorem firings_perm {alerts alerts' : List Alert} (h : alerts.Perm alerts') :
    (firings now alerts history).Perm (firings now alerts' history) := by
  rw [firings_eq_flatMap, firings_eq_flatMap]
  exact List.Perm.flatMap_left _ fun j _ => (h.filter _).map _

/-- What a check comes to, where `places` are the entries and the alerts that fire for them. -/
structure Settled (after : List Alert) (fired : List Firing) (places : List (Fin history.length × Fin alerts.length)) :
    Prop where
  /-- The firings are told by entry and then by alert, each with the score and the run of its entry. -/
  ordered : places.Pairwise (Prod.Lex (· < ·) (· < ·))
  told : fired = places.map fun p => (alerts.get p.2).firing now history[p.1]
  /-- An alert fires if it is enabled and not cooling and some entry meets it. -/
  fires : ∀ i, (∃ j, (j, i) ∈ places) ↔
    (alerts.get i).enabled = true ∧ (alerts.get i).isCooling? now = some false ∧ ∃ e ∈ history, (alerts.get i).meets e = true
  /-- With a cooldown, it fires for the first such entry only. -/
  once : ∀ i, (alerts.get i).cooldownMinutes ≠ 0 → ∀ j, (j, i) ∈ places ↔
    (alerts.get i).isReady now = true ∧ (alerts.get i).meets history[j] = true ∧
      ∀ k < j, (alerts.get i).meets history[k] = false
  /-- Without one, it fires for each of them. -/
  always : ∀ i, (alerts.get i).cooldownMinutes = 0 → ∀ j, (j, i) ∈ places ↔
    (alerts.get i).isReady now = true ∧ (alerts.get i).meets history[j] = true
  /-- An alert that fires is marked, and no other is changed. -/
  marked : after = (List.finRange alerts.length).map fun i : Fin alerts.length =>
    if ∃ j, (j, i) ∈ places then (alerts.get i).markTriggered now else alerts.get i
  /-- By itself, each alert comes to the same. -/
  alone : ∀ i : Fin alerts.length, ∃ a, after[i]? = some a ∧
    check? now [alerts.get i] history =
      some ([a], (places.filter (·.2 = i)).map fun p => (alerts.get i).firing now history[p.1])

theorem check?_eq_some_of_forall {alerts : List Alert} (h : ∀ a ∈ alerts, ¬a.Overruns now history) :
    check? now alerts history = some (alerts.map fun a => history.foldl (pass now) a, firings now alerts history) :=
  check?_eq_some now ((isWhole_check_iff now alerts history).mpr h)

theorem check?_eq_none_of_exists {alerts : List Alert} (h : ∃ a ∈ alerts, a.Overruns now history) :
    check? now alerts history = none := by
  rw [check?, (isWhole_check_eq_false_iff now alerts history).mpr h]
  rfl

theorem settled_firings (h : ∀ a ∈ alerts, ¬a.Overruns now history) :
    Settled now history alerts (alerts.map fun a => history.foldl (pass now) a) (firings now alerts history)
      (firingPlaces now history alerts) where
  ordered := pairwise_firingPlaces now history alerts
  told := firings_eq_map now history alerts
  fires := fun i => by
    simp only [mem_firingPlaces, exists_firesAt_iff, List.any_eq_true, fires_iff_isReady, isReady, Bool.and_eq_true,
      beq_iff_eq]
    constructor
    · rintro ⟨e, he, ⟨henabled, hcooling⟩, hmeets⟩
      exact ⟨henabled, hcooling, e, he, hmeets⟩
    · rintro ⟨henabled, hcooling, e, he, hmeets⟩
      exact ⟨e, he, ⟨henabled, hcooling⟩, hmeets⟩
  once := fun i hcooldown j => (mem_firingPlaces now history alerts).trans (firesAt_iff_of_ne_zero hcooldown)
  always := fun i hcooldown j => (mem_firingPlaces now history alerts).trans (firesAt_iff_of_eq_zero hcooldown)
  marked := map_foldl_pass_eq_map now history alerts
  alone := fun i => by
    have hsingle : ∀ a ∈ [alerts.get i], ¬a.Overruns now history := by
      rw [List.forall_mem_singleton]
      exact h _ (List.getElem_mem _)
    refine ⟨history.foldl (pass now) (alerts.get i), ?_, ?_⟩
    · simp
    · rw [check?_eq_some_of_forall now history hsingle, ← firings_singleton]
      rfl

/-- A check has no outcome if and only if an alert breaks it off. Every other fires by the rule, whatever the
other alerts are, and in another order the alerts come to the same in that order. -/
theorem check?_settled :
    match check? now alerts history with
    | none => ∃ a ∈ alerts, a.Overruns now history
    | some (after, fired) =>
      (∀ a ∈ alerts, ¬a.Overruns now history) ∧ (∃ places, Settled now history alerts after fired places) ∧
        ∀ alerts', alerts.Perm alerts' → ∃ after' fired', check? now alerts' history = some (after', fired') ∧
          (alerts.zip after).Perm (alerts'.zip after') ∧ fired.Perm fired' := by
  by_cases hoverruns : ∃ a ∈ alerts, a.Overruns now history
  · rw [check?_eq_none_of_exists now history hoverruns]
    exact hoverruns
  · have hforall : ∀ a ∈ alerts, ¬a.Overruns now history := fun a ha h => hoverruns ⟨a, ha, h⟩
    rw [check?_eq_some_of_forall now history hforall]
    refine ⟨hforall, ⟨_, settled_firings now history alerts hforall⟩, fun alerts' hperm => ?_⟩
    have hforall' : ∀ a ∈ alerts', ¬a.Overruns now history := fun a ha => hforall a (hperm.mem_iff.mpr ha)
    refine ⟨_, _, check?_eq_some_of_forall now history hforall', ?_, firings_perm now history hperm⟩
    rw [← List.map_prod_left_eq_zip, ← List.map_prod_left_eq_zip]
    exact hperm.map _

/-- An alert with a mark on the last day is cooling at any time before it, so by the rule it is silent; but
the check of an entry that it watches breaks off. -/
theorem check?_eq_none_of_lastDay :
    let noon : Timestamp := ⟨1583064000, 0, by decide, by decide⟩
    let alert := { Alert.new ⟨1⟩ "low quality" "quality" .lessThan 0.5 .warning with
      cooldownMinutes := 4294967295, lastTriggeredAt := some lastDay }
    let entry := Kpi.HistoryEntry.new ⟨2⟩ noon "bench-1" "agent" "quality" 0.25
    alert.enabled = true ∧ alert.meets entry = true ∧ noon < lastDay ∧ alert.lastTriggeredAt = some lastDay ∧
      check? noon [alert] [entry] = none := by
  decide +kernel

end Scorecard.Alert
