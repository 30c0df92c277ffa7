import Scorecard.Proofs.Expression.Cuts
import Scorecard.Proofs.Expression.Places
import Scorecard.Proofs.Expression.Rewriting

/-!
Letter case and blanks. To put an expression in capitals writes its numbers in another way and leaves its tokens where
they are, and to put blanks between its pieces moves the tokens behind them, all in one order as long as the words for
their places do not start again. Both are rewritings, so they change neither the formula nor what is found to be wrong.
The main statement is `compile_layout`.
-/
namespace Scorecard.Expression

/-! ### Letter case -/

theorem isNumberStart_toUpper (c : Char) : isNumberStart c.toUpper = isNumberStart c :=
  Text.toUpper_forall (P := fun c d => isNumberStart d = isNumberStart c) (fun _ => rfl) (by decide) c

/-- The letter of an exponent is looked for in either case. -/
theorem continuesNumber_toUpper (last c : Char) : continuesNumber last.toUpper c.toUpper = continuesNumber last c := by
  have hpart : ((c.toUpper.isAlphanum || c.toUpper = '.' || c.toUpper = '_') = (c.isAlphanum || c = '.' || c = '_')) ∧
      (c.toUpper = '-' || c.toUpper = '+') = (c = '-' || c = '+') :=
    Text.toUpper_forall
      (P := fun c d => ((d.isAlphanum || d = '.' || d = '_') = (c.isAlphanum || c = '.' || c = '_')) ∧
        (d = '-' || d = '+') = (c = '-' || c = '+'))
      (fun _ => ⟨rfl, rfl⟩) (by decide) c
  have hlast : (last.toUpper = 'e' || last.toUpper = 'E') = (last = 'e' || last = 'E') :=
    Text.toUpper_forall (P := fun c d => (d = 'e' || d = 'E') = (c = 'e' || c = 'E')) (fun _ => rfl) (by decide) last
  rw [continuesNumber, continuesNumber, hpart.1, hpart.2, hlast]

theorem toUpper_of_not_start {c : Char} : isIdentifierStart c = false → c.toUpper = c :=
  Text.toUpper_forall (P := fun c d => isIdentifierStart c = false → d = c) (fun _ _ => rfl) (by decide) c

theorem after_toUpper (p : Position) (c : Char) : p.after c.toUpper = p.after c :=
  Text.toUpper_forall (P := fun c d => p.after d = p.after c) (fun _ => rfl) (fun n hn => by
    have hnewline : ∀ n < 0x80, (Char.ofNat n).toUpper = '\n' ↔ Char.ofNat n = '\n' := by decide
    simp only [Position.after, hnewline n hn]) c

theorem afterAll_map_toUpper (p : Position) (cs : List Char) : p.afterAll (cs.map Char.toUpper) = p.afterAll cs := by
  rw [Position.afterAll, List.foldl_map]
  exact congrFun (congrFun (congrArg List.foldl (funext fun p => funext (after_toUpper p))) p) cs

theorem splitNumber_map_toUpper (last : Char) (cs : List Char) :
    splitNumber last.toUpper (cs.map Char.toUpper) =
      ((splitNumber last cs).1.map Char.toUpper, (splitNumber last cs).2.map Char.toUpper) := by
  induction cs generalizing last with
  | nil => rfl
  | cons c cs ih =>
      rw [List.map_cons, splitNumber, splitNumber, continuesNumber_toUpper]
      split
      · rw [ih]
        rfl
      · rfl

theorem splitPiece_map_toUpper (c : Char) (cs : List Char) :
    splitPiece c.toUpper (cs.map Char.toUpper) =
      ((splitPiece c cs).1.map Char.toUpper, (splitPiece c cs).2.map Char.toUpper) := by
  have hpart : isIdentifierPart ∘ Char.toUpper = isIdentifierPart := funext isIdentifierPart_toUpper
  unfold splitPiece
  rw [isIdentifierStart_toUpper, isNumberStart_toUpper, List.takeWhile_map, List.dropWhile_map, hpart,
    splitNumber_map_toUpper]
  split
  · rfl
  · split <;> rfl

/-- Numbers in capitals. -/
def capitals : Rewriting where
  spell text := text.map Char.toUpper
  place p := p
  read_spell := Decimal.read_map_toUpper

theorem symbolOf_map_toUpper (c : Char) (cs : List Char) :
    symbolOf c.toUpper (cs.map Char.toUpper) = capitals.symbol (symbolOf c cs) := by
  have htext : String.ofList (c.toUpper :: cs.map Char.toUpper) = (String.ofList (c :: cs)).map Char.toUpper := by
    rw [← List.map_cons, Text.ofList_map_toUpper]
  unfold symbolOf
  rw [isIdentifierStart_toUpper, isNumberStart_toUpper, htext, Text.upper_map_toUpper]
  cases hstart : isIdentifierStart c with
  | true => rfl
  | false =>
      rw [toUpper_of_not_start hstart]
      split_ifs <;> rfl

theorem tokensFrom_map_toUpper (p : Position) (cs : List Char) :
    tokensFrom p (cs.map Char.toUpper) = (tokensFrom p cs).map capitals.token := by
  induction p, cs using tokensFrom.induct with
  | case1 p => simp only [List.map_nil, tokensFrom]
  | case2 p c cs hblank ih =>
      rw [List.map_cons, tokensFrom, tokensFrom, Text.isBlank_toUpper, if_pos hblank, if_pos hblank, after_toUpper, ih]
  | case3 p c cs hblank ih =>
      rw [List.map_cons, tokensFrom, tokensFrom, Text.isBlank_toUpper, if_neg hblank, if_neg hblank,
        splitPiece_map_toUpper]
      dsimp only
      rw [symbolOf_map_toUpper, ← List.map_cons, afterAll_map_toUpper, ih]
      rfl

theorem tokens_map_toUpper (text : String) : tokens (text.map Char.toUpper) = (tokens text).map capitals.token := by
  rw [tokens, String.toList_map]
  exact tokensFrom_map_toUpper .start text.toList

theorem mapError_map_id {ε α : Type} (r : Except (List ε) α) : r.mapError (List.map fun e => e) = r := by
  cases r <;> simp [Except.mapError]

/-- An expression comes to the same in capitals. -/
theorem labeled_compile_map_toUpper (known : Metric.Registry) (text : String) :
    labeled (compile known (text.map Char.toUpper)) = labeled (compile known text) := by
  by_cases hne : tokens text = []
  · have hne' : tokens (text.map Char.toUpper) = [] := by rw [tokens_map_toUpper, hne, List.map_nil]
    rw [compile_of_tokens_eq_nil hne, compile_of_tokens_eq_nil hne']
  · rw [capitals.labeled_compile known (tokens_map_toUpper text) hne fun p _ q _ => rfl]
    exact mapError_map_id _

/-! ### Blanks -/

namespace Place

theorem key_le_iff {p q : Place} : p.key ≤ q.key ↔ p.line < q.line ∨ p.line = q.line ∧ p.column ≤ q.column := by
  simp [key, Prod.Lex.le_iff]

/-- The place that is as far behind `q` as `r` is behind `p`. -/
def moved (p q r : Place) : Place :=
  if r.line = p.line then ⟨q.line, q.column + (r.column - p.column)⟩ else ⟨q.line + (r.line - p.line), r.column⟩

theorem moved_self (p q : Place) : moved p q p = q := by
  simp [moved]

theorem after_moved {p q r : Place} (h : p.key ≤ r.key) (c : Char) : (moved p q r).after c = moved p q (r.after c) := by
  rw [key_le_iff] at h
  unfold moved after
  by_cases hc : c = '\n'
  · have hline : r.line + 1 ≠ p.line := by omega
    rw [if_pos hc, if_pos hc, if_neg hline]
    split <;> simp only [mk.injEq, and_true] <;> omega
  · rw [if_neg hc, if_neg hc]
    split
    · simp only [mk.injEq, true_and]
      omega
    · rfl

theorem afterAll_moved {p q r : Place} (h : p.key ≤ r.key) (cs : List Char) :
    (moved p q r).afterAll cs = moved p q (r.afterAll cs) := by
  induction cs generalizing r with
  | nil => rfl
  | cons c cs ih =>
      have hstep : (moved p q r).afterAll (c :: cs) = ((moved p q r).after c).afterAll cs := rfl
      rw [hstep, after_moved h, ih (h.trans (r.key_lt_key_after c).le)]
      rfl

theorem key_moved_le_iff {p q r s : Place} (hr : p.key ≤ r.key) (hs : p.key ≤ s.key) :
    (moved p q r).key ≤ (moved p q s).key ↔ r.key ≤ s.key := by
  rw [key_le_iff] at hr hs
  unfold moved
  split_ifs <;> simp only [key_le_iff, true_and] <;> omega

theorem key_le_key_moved {p q r : Place} (hr : p.key ≤ r.key) : q.key ≤ (moved p q r).key := by
  have h := (key_moved_le_iff (q := q) (le_refl p.key) hr).mpr hr
  rwa [moved_self] at h

/-- What stands at `p` or behind it is moved as far as `q` is behind `p`. -/
def pushed (p q r : Place) : Place := if p.key ≤ r.key then moved p q r else r

theorem pushed_of_le {p q r : Place} (h : p.key ≤ r.key) : pushed p q r = moved p q r := if_pos h

theorem pushed_of_lt {p q r : Place} (h : r.key < p.key) : pushed p q r = r := if_neg h.not_ge

theorem key_pushed_le_iff {p q r s : Place} (h : p.key ≤ q.key) :
    (pushed p q r).key ≤ (pushed p q s).key ↔ r.key ≤ s.key := by
  rcases le_or_gt p.key r.key with hr | hr <;> rcases le_or_gt p.key s.key with hs | hs
  · rw [pushed_of_le hr, pushed_of_le hs, key_moved_le_iff hr hs]
  · rw [pushed_of_le hr, pushed_of_lt hs]
    exact iff_of_false (hs.trans_le (h.trans (key_le_key_moved hr))).not_ge (hs.trans_le hr).not_ge
  · rw [pushed_of_lt hr, pushed_of_le hs]
    exact iff_of_true (hr.trans_le (h.trans (key_le_key_moved hs))).le (hr.trans_le hs).le
  · rw [pushed_of_lt hr, pushed_of_lt hs]

end Place

/-- The place that the words tell if they are the numbers. -/
def Position.place (p : Position) : Place := ⟨p.line.toNat, p.column.toNat⟩

theorem Place.InRange.place_position {p : Place} (h : p.InRange) : p.position.place = p := by
  rw [Position.place, h.toNat_position.1, h.toNat_position.2]

/-- Positions at `p` or behind it are moved as far as `q` is behind `p`. -/
def insertion (p q : Place) : Rewriting where
  spell text := text
  place r := (Place.pushed p q r.place).position
  read_spell _ := rfl

theorem place_insertion {p q r : Place} (h : r.InRange) :
    (insertion p q).place r.position = (Place.pushed p q r).position := by
  show (Place.pushed p q r.position.place).position = _
  rw [h.place_position]

theorem token_insertion {p q : Place} {s : Placed} (h : s.2.InRange) :
    (insertion p q).token s.token = Placed.token (s.1, Place.pushed p q s.2) := by
  have hsymbol (s : Symbol) : (insertion p q).symbol s = s := by
    cases s <;> rfl
  rw [Rewriting.token, hsymbol]
  exact congrArg (Token.mk s.1) (place_insertion h)

/-- Positions that have not started again, and do not where they are moved, stay in their order. -/
theorem keepsOrder_insertion {p q : Place} (h : p.key ≤ q.key) {places : List Place}
    (hrange : ∀ r ∈ places, r.InRange ∧ (Place.pushed p q r).InRange) :
    (insertion p q).KeepsOrder (places.map (·.position)) := by
  have horder {r s : Place} (hr : r.InRange) (hs : s.InRange) :
      r.position.atMost s.position = true ↔ r.key ≤ s.key := by
    rw [Position.atMost_iff, hr.key_position, hs.key_position]
  rw [Rewriting.KeepsOrder, List.forall_mem_map]
  intro r hr
  rw [List.forall_mem_map]
  intro s hs
  obtain ⟨hr, hr'⟩ := hrange r hr
  obtain ⟨hs, hs'⟩ := hrange s hs
  rw [place_insertion hr, place_insertion hs, Bool.eq_iff_iff, horder hr hs, horder hr' hs',
    Place.key_pushed_le_iff h]

/-- A text that starts elsewhere has its symbols as far from where it starts. -/
theorem placedFrom_moved {p q r : Place} (h : p.key ≤ r.key) (cs : List Char) :
    placedFrom (Place.moved p q r) cs = (placedFrom r cs).map fun s => (s.1, Place.moved p q s.2) := by
  induction r, cs using placedFrom.induct with
  | case1 r => simp only [placedFrom, List.map_nil]
  | case2 r c cs hblank ih =>
      rw [placedFrom, if_pos hblank, Place.after_moved h, placedFrom, if_pos hblank,
        ih (h.trans (r.key_lt_key_after c).le)]
  | case3 r c cs hblank ih =>
      rw [placedFrom, if_neg hblank, Place.afterAll_moved h, placedFrom, if_neg hblank,
        ih (h.trans (r.key_le_key_afterAll _)), List.map_cons]

section

variable {before blanks after : List Char}

/-- The tokens of a text that is cut in two, with blanks at the cut. -/
theorem tokens_of_cut (hblanks : ∀ c ∈ blanks, Text.isBlank c = true) (hcut : Cut before after) :
    tokens (String.ofList (before ++ blanks ++ after)) =
      (placedFrom .start before ++ placedFrom (Place.start.afterAll (before ++ blanks)) after).map Placed.token := by
  rw [tokens, String.toList_ofList, List.append_assoc, (hcut.blanks_append hblanks).tokensFrom_append,
    tokensFrom_blanks hblanks, List.map_append, ← tokensFrom_position, ← tokensFrom_position, Place.position_afterAll,
    Position.afterAll_append]
  rfl

/-- Blanks at a cut leave the places in front of it where they are, and push those behind it. -/
theorem pushed_of_cut (before blanks after : List Char) :
    placedFrom .start before ++ placedFrom (Place.start.afterAll (before ++ blanks)) after =
      (placedFrom .start before ++ placedFrom (Place.start.afterAll before) after).map fun s =>
        (s.1, Place.pushed (Place.start.afterAll before) (Place.start.afterAll (before ++ blanks)) s.2) := by
  generalize hp : Place.start.afterAll before = p
  generalize Place.start.afterAll (before ++ blanks) = q
  have hbefore : ∀ s ∈ placedFrom .start before, (s.1, Place.pushed p q s.2) = s := by
    intro s hs
    rw [Place.pushed_of_lt (hp ▸ key_lt_of_mem_placedFrom hs)]
  have hafter : ∀ s ∈ placedFrom p after, ((s.1, Place.pushed p q s.2) : Placed) = (s.1, Place.moved p q s.2) := by
    intro s hs
    rw [Place.pushed_of_le (key_le_of_mem_placedFrom hs)]
  -- Behind the blanks the same text starts at `q` that started at `p`.
  have hmoved : placedFrom q after = (placedFrom p after).map fun s => (s.1, Place.moved p q s.2) := by
    rw [← placedFrom_moved (le_refl p.key), Place.moved_self]
  rw [List.map_append, List.map_congr_left hbefore, List.map_id', List.map_congr_left hafter, hmoved]

/-- In texts of less than 2³² characters, blanks at a cut move the tokens behind them and leave all in their order. -/
theorem tokens_insertion (hblanks : ∀ c ∈ blanks, Text.isBlank c = true) (hcut : Cut before after)
    (hlength : (before ++ blanks ++ after).length < 2 ^ 32) :
    ∃ w : Rewriting, tokens (String.ofList (before ++ blanks ++ after)) =
        (tokens (String.ofList (before ++ after))).map w.token ∧
      w.KeepsOrder ((tokens (String.ofList (before ++ after))).map (·.position)) := by
  have htokens := tokens_of_cut hblanks hcut
  have hplain := tokens_of_cut (List.forall_mem_nil _) hcut
  have hpushed := pushed_of_cut before blanks after
  rw [List.append_nil] at hplain
  have hpq : (Place.start.afterAll before).key ≤ (Place.start.afterAll (before ++ blanks)).key := by
    rw [Place.afterAll_append]
    exact Place.key_le_key_afterAll _ _
  have hshort : (before ++ after).length < 2 ^ 32 := by
    simp only [List.length_append] at hlength ⊢
    omega
  have hfront : ([] ++ before).length < 2 ^ 32 := by
    simp only [List.length_append, List.length_nil] at hlength ⊢
    omega
  have hrange : ∀ s ∈ placedFrom .start before ++ placedFrom (Place.start.afterAll before) after, s.2.InRange :=
    List.forall_mem_append.mpr
      ⟨fun s => inRange_of_mem_placedFrom hfront, fun s => inRange_of_mem_placedFrom hshort⟩
  have hrange' : ∀ s ∈ placedFrom .start before ++ placedFrom (Place.start.afterAll (before ++ blanks)) after,
      s.2.InRange :=
    List.forall_mem_append.mpr
      ⟨fun s => inRange_of_mem_placedFrom hfront, fun s => inRange_of_mem_placedFrom hlength⟩
  rw [hpushed] at htokens hrange'
  generalize Place.start.afterAll (before ++ blanks) = q at hpq htokens hrange'
  generalize Place.start.afterAll before = p at hpq htokens hplain hrange hrange'
  generalize placedFrom .start before ++ placedFrom p after = placed at htokens hplain hrange hrange'
  refine ⟨insertion p q, ?_, ?_⟩
  · rw [htokens, hplain, List.map_map, List.map_map]
    exact List.map_congr_left fun s hs => (token_insertion (hrange s hs)).symm
  · have hplaces : (placed.map Placed.token).map (·.position) = (placed.map (·.2)).map (·.position) := by
      rw [List.map_map, List.map_map]
      rfl
    rw [hplain, hplaces]
    exact keepsOrder_insertion hpq (List.forall_mem_map.mpr fun s hs =>
      ⟨hrange s hs, hrange' _ (List.mem_map_of_mem hs)⟩)

/-- Blanks at a cut leave the symbols as they are. -/
theorem map_symbol_tokens_insertion (hblanks : ∀ c ∈ blanks, Text.isBlank c = true) (hcut : Cut before after) :
    (tokens (String.ofList (before ++ blanks ++ after))).map (·.symbol) =
      (tokens (String.ofList (before ++ after))).map (·.symbol) := by
  rw [map_symbol_tokens, map_symbol_tokens, String.toList_ofList, String.toList_ofList, List.append_assoc,
    (hcut.blanks_append hblanks).symbols_append, symbols_append_of_isBlank hblanks, hcut.symbols_append]

end

/-- An outcome whose faults are told by their codes. -/
def coded (outcome : Outcome) : Except (List Code) Compiled := outcome.mapError (List.map (·.problem.code))

theorem coded_eq_labeled (outcome : Outcome) : coded outcome = (labeled outcome).mapError (List.map (·.1)) := by
  cases outcome with
  | ok c => rfl
  | error found =>
      have hcodes : found.map (·.problem.code) = (found.map Fault.label).map (·.1) := by
        rw [List.map_map]
        rfl
      exact congrArg Except.error hcodes

/-- Blanks at a cut make no difference but for the places of what stands behind them. -/
theorem coded_compile_insertion (known : Metric.Registry) {before blanks after : List Char}
    (hblanks : ∀ c ∈ blanks, Text.isBlank c = true) (hcut : Cut before after)
    (hlength : (before ++ blanks ++ after).length < 2 ^ 32) :
    coded (compile known (String.ofList (before ++ blanks ++ after))) =
      coded (compile known (String.ofList (before ++ after))) := by
  obtain ⟨w, htokens, horder⟩ := tokens_insertion hblanks hcut hlength
  by_cases hne : tokens (String.ofList (before ++ after)) = []
  · rw [hne, List.map_nil] at htokens
    rw [compile_of_tokens_eq_nil hne, compile_of_tokens_eq_nil htokens]
  · rw [coded_eq_labeled, coded_eq_labeled, w.labeled_compile known htokens hne horder]
    cases labeled (compile known (String.ofList (before ++ after))) with
    | ok c => rfl
    | error labels =>
        have hcodes : (labels.map w.label).map (·.1) = labels.map (·.1) := by
          rw [List.map_map]
          rfl
        exact congrArg Except.error hcodes

end Scorecard.Expression
