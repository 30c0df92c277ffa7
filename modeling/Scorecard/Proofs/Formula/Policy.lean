import Mathlib
import Scorecard.Proofs.Decimal.Order
import Scorecard.Proofs.Formula.Evaluation

/-!
How evaluations come out. Averages and extremes go by the metrics that are there: one that is not finite
spoils them, and otherwise it takes one at least. Weighted sums and thresholds go by each of their metrics
and stop at the first that has no finite value. Either way an evaluation looks at the metrics of its formula
alone, so whatever else a table holds makes no difference.
-/
namespace Scorecard.Formula

/-! ### The first of a list -/

/-- The name is the first of the list that has the property. -/
def First (p : String → Prop) (names : List String) (name : String) : Prop :=
  ∃ before after, names = before ++ name :: after ∧ (∀ earlier ∈ before, ¬p earlier) ∧ p name

section First

variable {p : String → Prop} {names : List String} {name head : String}

theorem First.of_head (h : p head) : First p (head :: names) head :=
  ⟨[], names, rfl, List.forall_mem_nil _, h⟩

theorem First.cons (h : First p names name) (hhead : ¬p head) : First p (head :: names) name := by
  obtain ⟨before, after, rfl, hbefore, hname⟩ := h
  exact ⟨head :: before, after, rfl, List.forall_mem_cons.mpr ⟨hhead, hbefore⟩, hname⟩

end First

/-! ### Looking up -/

/-- The table has a value for the metric that is not finite. -/
def Spoils (values : Table Float) (metric : String) : Prop :=
  ∃ x, values.get? metric = some x ∧ x.isFinite = false

variable {values values' : Table Float}

theorem not_supplies_of_spoils {metric : String} (h : Spoils values metric) : ¬Supplies values metric := by
  rintro ⟨y, hy, hfinite⟩
  obtain ⟨x, hx, hinfinite⟩ := h
  cases hx.symm.trans hy
  rw [hfinite] at hinfinite
  cases hinfinite

theorem not_supplies_of_eq_none {metric : String} (h : values.get? metric = none) : ¬Supplies values metric := by
  rintro ⟨x, hx, -⟩
  rw [h] at hx
  cases hx

theorem value?_of_spoils {metric : String} (h : Spoils values metric) :
    value? values metric = .error (.notFinite metric) := by
  obtain ⟨x, hx, hinfinite⟩ := h
  rw [value?, hx]
  exact if_neg (by rw [hinfinite]; exact Bool.false_ne_true)

theorem value?_of_not_spoils {metric : String} (h : ¬Spoils values metric) :
    value? values metric = .ok (values.get? metric) := by
  rw [value?]
  cases hx : values.get? metric with
  | none => rfl
  | some x =>
      have hfinite : x.isFinite = true := by
        rw [← Bool.not_eq_false]
        exact fun hinfinite => h ⟨x, hx, hinfinite⟩
      exact if_pos hfinite

/-- The ways a required value can come out. -/
theorem requiredValue_cases (values : Table Float) (metric : String) :
    (values.get? metric = none ∧ requiredValue values metric = .error (.missing metric)) ∨
    (Spoils values metric ∧ requiredValue values metric = .error (.notFinite metric)) ∨
    ∃ x, values.get? metric = some x ∧ x.isFinite = true ∧ requiredValue values metric = .ok x := by
  cases hx : values.get? metric with
  | none =>
      refine .inl ⟨rfl, ?_⟩
      rw [requiredValue, value?, hx]
  | some x =>
      cases hfinite : x.isFinite with
      | false =>
          have hspoils : Spoils values metric := ⟨x, hx, hfinite⟩
          refine .inr (.inl ⟨hspoils, ?_⟩)
          rw [requiredValue, value?_of_spoils hspoils]
      | true =>
          refine .inr (.inr ⟨x, rfl, hfinite, ?_⟩)
          rw [requiredValue, value?, hx]
          simp only [hfinite, if_true]

/-- A list is collected up to the first metric that is there but not finite. -/
theorem collect_cases (values : Table Float) (names : List String) :
    (∃ name, First (Spoils values) names name ∧ collect values names = .error (.notFinite name)) ∨
    (∀ name ∈ names, ¬Spoils values name) ∧ collect values names = .ok (names.filterMap values.get?) := by
  induction names with
  | nil => exact .inr ⟨List.forall_mem_nil _, rfl⟩
  | cons head names ih =>
      by_cases hhead : Spoils values head
      · refine .inl ⟨head, .of_head hhead, ?_⟩
        rw [collect, value?_of_spoils hhead]
        rfl
      have hvalue := value?_of_not_spoils hhead
      rcases ih with ⟨name, hfirst, hcollect⟩ | ⟨hnone, hcollect⟩
      · refine .inl ⟨name, hfirst.cons hhead, ?_⟩
        rw [collect, hvalue, hcollect]
        rfl
      · refine .inr ⟨List.forall_mem_cons.mpr ⟨hhead, hnone⟩, ?_⟩
        rw [collect, hvalue, hcollect, List.filterMap_cons]
        cases values.get? head <;> rfl

/-! ### Going by the metrics that are there -/

/-- How an evaluation comes out that goes by those of the metrics that are there. A metric that is listed
twice counts twice. -/
inductive OfPresent (values : Table Float) (names : List String) (IsScore : List Float → Float → Prop) :
    Except EvaluationError Float → Prop
  | notFinite {name : String} (first : First (Spoils values) names name) :
      OfPresent values names IsScore (.error (.notFinite name))
  | insufficient (absent : ∀ name ∈ names, values.get? name = none) :
      OfPresent values names IsScore (.error (.insufficient names))
  | score {score : Float} (finite : ∀ name ∈ names, ¬Spoils values name)
      (present : ∃ name ∈ names, values.contains name = true)
      (isScore : IsScore (names.filterMap values.get?) score) : OfPresent values names IsScore (.ok score)

theorem isFinite_of_mem_filterMap {names : List String} (h : ∀ name ∈ names, ¬Spoils values name) {x : Float}
    (hx : x ∈ names.filterMap values.get?) : x.isFinite = true := by
  obtain ⟨name, hname, hget⟩ := List.mem_filterMap.mp hx
  rw [← Bool.not_eq_false]
  exact fun hinfinite => h name hname ⟨x, hget, hinfinite⟩

/-- A score of the values that are there, of which there is one and all are finite, is the score. -/
theorem ofPresent_map {names : List String} {score : List Float → Float} {IsScore : List Float → Float → Prop}
    (h : ∀ xs, xs ≠ [] → (∀ x ∈ xs, x.isFinite = true) → IsScore xs (score xs)) :
    OfPresent values names IsScore ((presentValues values names).map score) := by
  rw [presentValues]
  rcases collect_cases values names with ⟨name, hfirst, hcollect⟩ | ⟨hfinite, hcollect⟩
  · rw [hcollect]
    exact .notFinite hfirst
  rw [hcollect]
  show OfPresent values names IsScore (Except.map score (if (names.filterMap values.get?).isEmpty then _ else _))
  cases hempty : (names.filterMap values.get?).isEmpty with
  | true =>
      refine .insufficient fun name hname => ?_
      rw [List.isEmpty_iff, List.filterMap_eq_nil_iff] at hempty
      exact hempty name hname
  | false =>
      rw [List.isEmpty_eq_false_iff] at hempty
      obtain ⟨x, hx⟩ := List.exists_mem_of_ne_nil _ hempty
      obtain ⟨name, hname, hget⟩ := List.mem_filterMap.mp hx
      refine .score hfinite ⟨name, hname, ?_⟩ (h _ hempty fun x hx => isFinite_of_mem_filterMap hfinite hx)
      rw [Table.contains, hget, Option.isSome_some]

/-! ### Extremes -/

section Extremes

variable {κ : Type} [LinearOrder κ] (rank : Float → κ) (better : Float → Float → Prop) [DecidableRel better]

/-- Keeping the better of two all along keeps one that is as good as any. -/
theorem foldl_better (hbetter : ∀ x y : Float, x.isNaN = false → y.isNaN = false → (better x y ↔ rank x < rank y))
    (xs : List Float) (best : Float) (h : ∀ x ∈ best :: xs, x.isNaN = false) :
    xs.foldl (fun m x => if better m x then m else x) best ∈ best :: xs ∧
    ∀ x ∈ best :: xs, rank (xs.foldl (fun m x => if better m x then m else x) best) ≤ rank x := by
  induction xs generalizing best with
  | nil => exact ⟨List.mem_singleton_self best, fun x hx => (List.mem_singleton.mp hx) ▸ le_refl _⟩
  | cons x xs ih =>
      obtain ⟨hbest, hx, hxs⟩ : best.isNaN = false ∧ x.isNaN = false ∧ ∀ y ∈ xs, y.isNaN = false := by
        simpa only [List.forall_mem_cons] using h
      rw [List.foldl_cons]
      by_cases hkeep : better best x
      · rw [if_pos hkeep]
        have hlt := (hbetter best x hbest hx).mp hkeep
        obtain ⟨hmem, hle⟩ := ih best (List.forall_mem_cons.mpr ⟨hbest, hxs⟩)
        obtain ⟨hlebest, hlexs⟩ := List.forall_mem_cons.mp hle
        refine ⟨?_, List.forall_mem_cons.mpr ⟨hlebest, List.forall_mem_cons.mpr ⟨hlebest.trans hlt.le, hlexs⟩⟩⟩
        rcases List.mem_cons.mp hmem with heq | hmem
        · exact List.mem_cons.mpr (.inl heq)
        · exact List.mem_cons_of_mem _ (List.mem_cons_of_mem _ hmem)
      · rw [if_neg hkeep]
        have hle' := not_lt.mp (mt (hbetter best x hbest hx).mpr hkeep)
        obtain ⟨hmem, hle⟩ := ih x (List.forall_mem_cons.mpr ⟨hx, hxs⟩)
        have hlex := (List.forall_mem_cons.mp hle).1
        exact ⟨List.mem_cons_of_mem _ hmem, List.forall_mem_cons.mpr ⟨hlex.trans hle', hle⟩⟩

/-- A seed that is worse than any number of the list does not come out. -/
theorem foldl_better_of_seed
    (hbetter : ∀ x y : Float, x.isNaN = false → y.isNaN = false → (better x y ↔ rank x < rank y))
    {xs : List Float} (hne : xs ≠ []) (hxs : ∀ x ∈ xs, x.isNaN = false) {seed : Float} (hseed : seed.isNaN = false)
    (hworse : ∀ x ∈ xs, rank x < rank seed) :
    xs.foldl (fun m x => if better m x then m else x) seed ∈ xs ∧
    ∀ x ∈ xs, rank (xs.foldl (fun m x => if better m x then m else x) seed) ≤ rank x := by
  obtain ⟨hmem, hle⟩ := foldl_better rank better hbetter xs seed (List.forall_mem_cons.mpr ⟨hseed, hxs⟩)
  obtain ⟨-, hlexs⟩ := List.forall_mem_cons.mp hle
  refine ⟨?_, hlexs⟩
  rcases List.mem_cons.mp hmem with heq | hmem
  · obtain ⟨x, hx⟩ := List.exists_mem_of_ne_nil xs hne
    have hlt := (hlexs x hx).trans_lt (hworse x hx)
    rw [heq] at hlt
    exact absurd hlt (lt_irrefl _)
  · exact hmem

end Extremes

theorem minimum_spec {xs : List Float} (hne : xs ≠ []) (hxs : ∀ x ∈ xs, x.isFinite = true) :
    minimum xs ∈ xs ∧ ∀ x ∈ xs, minimum xs ≤ x := by
  have hnumbers : ∀ x ∈ xs, x.isNaN = false := fun x hx => Decimal.not_isNaN_of_isFinite (hxs x hx)
  have hseed : infinity.isNaN = false := by decide +kernel
  obtain ⟨hmem, hle⟩ := foldl_better_of_seed Decimal.place (· < ·)
    (fun x y hx hy => Decimal.lt_iff_place_lt hx hy) hne hnumbers hseed
    fun x hx => Decimal.place_lt_place_infinity (hxs x hx)
  exact ⟨hmem, fun x hx => (Decimal.le_iff_place_le (hnumbers _ hmem) (hnumbers x hx)).mpr (hle x hx)⟩

theorem maximum_spec {xs : List Float} (hne : xs ≠ []) (hxs : ∀ x ∈ xs, x.isFinite = true) :
    maximum xs ∈ xs ∧ ∀ x ∈ xs, x ≤ maximum xs := by
  have hnumbers : ∀ x ∈ xs, x.isNaN = false := fun x hx => Decimal.not_isNaN_of_isFinite (hxs x hx)
  have hseed : (-infinity).isNaN = false := by decide +kernel
  obtain ⟨hmem, hle⟩ := foldl_better_of_seed (OrderDual.toDual ∘ Decimal.place) (fun m x => x < m)
    (fun x y hx hy => Decimal.lt_iff_place_lt hy hx) hne hnumbers hseed
    fun x hx => Decimal.place_neg_infinity_lt_place (hxs x hx)
  exact ⟨hmem, fun x hx => (Decimal.le_iff_place_le (hnumbers x hx) (hnumbers _ hmem)).mpr (hle x hx)⟩

/-! ### Going by each metric -/

/-- How an evaluation comes out that goes by the values of all the metrics, in the order of the list. -/
inductive OfEach (values : Table Float) (names : List String) (IsScore : List Float → Float → Prop) :
    Except EvaluationError Float → Prop
  | missing {name : String} (first : First (¬Supplies values ·) names name) (absent : values.get? name = none) :
      OfEach values names IsScore (.error (.missing name))
  | notFinite {name : String} (first : First (¬Supplies values ·) names name) (spoils : Spoils values name) :
      OfEach values names IsScore (.error (.notFinite name))
  | score {xs : List Float} {score : Float} (present : names.map values.get? = xs.map some)
      (finite : ∀ x ∈ xs, x.isFinite = true) (isScore : IsScore xs score) : OfEach values names IsScore (.ok score)

theorem ofEach_requiredValue (metric : String) (score : Float → Float) :
    OfEach values [metric] (fun xs y => ∀ x ∈ xs, y = score x) ((requiredValue values metric).map score) := by
  rcases requiredValue_cases values metric with ⟨habsent, heq⟩ | ⟨hspoils, heq⟩ | ⟨x, hx, hfinite, heq⟩
  · rw [heq]
    exact .missing (.of_head (not_supplies_of_eq_none habsent)) habsent
  · rw [heq]
    exact .notFinite (.of_head (not_supplies_of_spoils hspoils)) hspoils
  · rw [heq]
    have hpresent : [metric].map values.get? = [x].map some := by rw [List.map_singleton, hx, List.map_singleton]
    exact .score hpresent (List.forall_mem_singleton.mpr hfinite) (List.forall_mem_singleton.mpr rfl)

theorem ofEach_weigh (weights : List (String × Float)) (total : Float) :
    OfEach values (weights.map (·.1))
      (fun xs score => score = (List.zipWith (· * ·) xs (weights.map (·.2))).foldl (· + ·) total)
      (weigh values total weights) := by
  induction weights generalizing total with
  | nil =>
      have hpresent : [].map values.get? = [].map some := rfl
      exact .score hpresent (List.forall_mem_nil _) rfl
  | cons entry weights ih =>
      obtain ⟨metric, weight⟩ := entry
      rw [weigh]
      rcases requiredValue_cases values metric with ⟨habsent, heq⟩ | ⟨hspoils, heq⟩ | ⟨x, hx, hfinite, heq⟩
      · rw [heq]
        exact .missing (.of_head (not_supplies_of_eq_none habsent)) habsent
      · rw [heq]
        exact .notFinite (.of_head (not_supplies_of_spoils hspoils)) hspoils
      · rw [heq]
        show OfEach values _ _ (weigh values (total + x * weight) weights)
        have hsupplies : ¬¬Supplies values metric := not_not.mpr ⟨x, hx, hfinite⟩
        generalize hresult : weigh values (total + x * weight) weights = result
        have hrest := ih (total + x * weight)
        rw [hresult] at hrest
        cases hrest with
        | missing first absent => exact .missing (first.cons hsupplies) absent
        | notFinite first spoils => exact .notFinite (first.cons hsupplies) spoils
        | @score xs score present finite isScore =>
            have hpresent : (metric :: weights.map (·.1)).map values.get? = (x :: xs).map some := by
              rw [List.map_cons, hx, present, List.map_cons]
            exact .score hpresent (List.forall_mem_cons.mpr ⟨hfinite, finite⟩) isScore

/-! ### Other metrics -/

theorem value?_congr {metric : String} (h : values.get? metric = values'.get? metric) :
    value? values metric = value? values' metric := by
  rw [value?, value?, h]

theorem requiredValue_congr {metric : String} (h : values.get? metric = values'.get? metric) :
    requiredValue values metric = requiredValue values' metric := by
  rw [requiredValue, requiredValue, value?_congr h]

theorem presentValues_congr {names : List String} (h : ∀ name ∈ names, values.get? name = values'.get? name) :
    presentValues values names = presentValues values' names := by
  have hcollect : collect values names = collect values' names := by
    induction names with
    | nil => rfl
    | cons name names ih =>
        obtain ⟨hname, hnames⟩ := List.forall_mem_cons.mp h
        rw [collect, collect, value?_congr hname, ih hnames]
  rw [presentValues, presentValues, hcollect]

theorem weigh_congr {weights : List (String × Float)} (h : ∀ entry ∈ weights, values.get? entry.1 = values'.get? entry.1)
    (total : Float) : weigh values total weights = weigh values' total weights := by
  induction weights generalizing total with
  | nil => rfl
  | cons entry weights ih =>
      obtain ⟨metric, weight⟩ := entry
      obtain ⟨hmetric, hweights⟩ := List.forall_mem_cons.mp h
      rw [weigh, weigh, requiredValue_congr hmetric]
      refine congrArg (requiredValue values' metric >>= ·) (funext fun x => ?_)
      exact ih hweights (total + x * weight)

/-- Tables that agree on the metrics of a formula evaluate it alike. -/
theorem evaluate_congr {f : Formula} (hvalues : values.isEmpty = false) (hvalues' : values'.isEmpty = false)
    (h : ∀ name, f.metrics.contains name = true → values.get? name = values'.get? name) :
    f.evaluate values = f.evaluate values' := by
  unfold evaluate
  rw [hvalues, hvalues', if_neg Bool.false_ne_true, if_neg Bool.false_ne_true]
  cases f with
  | average names | least names | greatest names =>
      have heq := presentValues_congr fun name hname => h name (NameSet.contains_ofList.mpr hname)
      dsimp only
      rw [heq]
  | weightedSum weights =>
      have hentries : ∀ entry ∈ weights.entries, values.get? entry.1 = values'.get? entry.1 := by
        intro entry hentry
        exact h entry.1 (NameSet.contains_ofList.mpr (List.mem_map_of_mem hentry))
      dsimp only
      rw [weigh_congr hentries]
  | threshold metric bound comparison =>
      have heq := requiredValue_congr (h metric (NameSet.contains_ofList.mpr (List.mem_singleton.mpr rfl)))
      dsimp only
      rw [heq]

/-! ### The policy -/

/-- How the evaluation of a formula comes out on a table that holds something. -/
def Policy (values : Table Float) : Formula → Except EvaluationError Float → Prop
  | .average names =>
    OfPresent values names fun xs score => score = xs.foldl (· + ·) (-0.0) / xs.length.toUInt64.toFloat
  | .least names => OfPresent values names fun xs score => score ∈ xs ∧ ∀ x ∈ xs, score ≤ x
  | .greatest names => OfPresent values names fun xs score => score ∈ xs ∧ ∀ x ∈ xs, x ≤ score
  | .weightedSum weights => fun outcome =>
    weights.isEmpty = true ∧ outcome = .error (.insufficient []) ∨
    weights.isEmpty = false ∧ weights.keys.Pairwise (· < ·) ∧
      OfEach values weights.keys
        (fun xs score => score = (List.zipWith (· * ·) xs (weights.entries.map (·.2))).foldl (· + ·) 0) outcome
  | .threshold metric bound comparison =>
    OfEach values [metric] fun xs score => ∀ x ∈ xs, score = if comparison.holds x bound then 1 else 0

theorem policy_evaluate (f : Formula) (hvalues : values.isEmpty = false) : f.Policy values (f.evaluate values) := by
  unfold evaluate
  rw [hvalues, if_neg Bool.false_ne_true]
  cases f with
  | average names => exact ofPresent_map fun xs _ _ => rfl
  | least names => exact ofPresent_map fun xs hne hfinite => minimum_spec hne hfinite
  | greatest names => exact ofPresent_map fun xs hne hfinite => maximum_spec hne hfinite
  | weightedSum weights =>
      dsimp only
      cases hempty : weights.isEmpty with
      | true =>
          rw [if_pos rfl]
          exact .inl ⟨hempty, rfl⟩
      | false =>
          rw [if_neg Bool.false_ne_true]
          exact .inr ⟨hempty, List.pairwise_map.mpr weights.ordered, ofEach_weigh weights.entries 0⟩
  | threshold metric bound comparison => exact ofEach_requiredValue metric _

/-- Only a table that holds nothing has no values. -/
theorem evaluate_eq_noValues_iff (f : Formula) (values : Table Float) :
    f.evaluate values = .error .noValues ↔ values.isEmpty = true := by
  constructor
  · intro heq
    rw [← Bool.not_eq_false]
    intro hvalues
    have hpolicy := f.policy_evaluate hvalues
    rw [heq] at hpolicy
    cases f with
    | average names | least names | greatest names | threshold metric bound comparison => cases hpolicy
    | weightedSum weights =>
        rcases hpolicy with ⟨-, hpolicy⟩ | ⟨-, -, hpolicy⟩
        · cases hpolicy
        · cases hpolicy
  · intro hvalues
    unfold evaluate
    rw [hvalues, if_pos rfl]

/-- An evaluation fails for want of values on the empty table only and follows the policy on every other, and
tables that agree on the metrics of the formula have the same outcome. -/
theorem evaluations_follow_policy (f : Formula) (values : Table Float) :
    (f.evaluate values = .error .noValues ↔ values.isEmpty = true) ∧
    (values.isEmpty = false → f.Policy values (f.evaluate values)) ∧
    ∀ values' : Table Float, values.isEmpty = false → values'.isEmpty = false →
      (∀ name, f.metrics.contains name = true → values.get? name = values'.get? name) →
      f.evaluate values = f.evaluate values' :=
  ⟨f.evaluate_eq_noValues_iff values, f.policy_evaluate, fun _ hvalues hvalues' h => evaluate_congr hvalues hvalues' h⟩

/-- A metric that the formula does not read may well be no number. -/
theorem evaluations_follow_policy_beside_nan :
    (Formula.average ["COST", "COST", "TIME"]).Policy (Table.ofList [("COST", 3), ("SPEED", 0 / 0)])
      ((Formula.average ["COST", "COST", "TIME"]).evaluate (Table.ofList [("COST", 3), ("SPEED", 0 / 0)])) ∧
    (Formula.average ["COST", "COST", "TIME"]).evaluate (Table.ofList [("COST", 3), ("SPEED", 0 / 0)]) =
      (Formula.average ["COST", "COST", "TIME"]).evaluate (Table.ofList [("COST", 3)]) := by
  obtain ⟨-, hpolicy, hagree⟩ := evaluations_follow_policy (.average ["COST", "COST", "TIME"])
    (Table.ofList [("COST", 3), ("SPEED", 0 / 0)])
  refine ⟨hpolicy (by decide +kernel), hagree _ (by decide +kernel) (by decide +kernel) fun name hname => ?_⟩
  have hmem : name = "COST" ∨ name = "COST" ∨ name = "TIME" := by
    simpa using NameSet.contains_ofList.mp hname
  rcases hmem with rfl | rfl | rfl
  all_goals decide +kernel

end Scorecard.Formula
