import Scorecard.Proofs.Expression.Diagnosis

/-!
Expressions that are written differently. Where a token stands and how a number is written make no difference to what
an expression means, as long as the numbers have the same values. Each stage from tokens to an outcome is followed
through such a rewriting: the formula and its metrics stay as they are, and the faults have the same codes, at the
places where the rewriting puts them. If it leaves the places of the tokens in their order, the faults stand in the
same order too.
-/
namespace Scorecard.Expression

/-- An outcome whose faults are told by their labels. -/
def labeled (outcome : Outcome) : Except (List (Code × Position)) Compiled := outcome.mapError (List.map Fault.label)

/-- The outcomes give the same formula with the same metrics, or faults with the same codes in one order or another. -/
inductive Alike : Outcome → Outcome → Prop
  | ok (c : Compiled) : Alike (.ok c) (.ok c)
  | error {found found' : List Fault} (h : (found'.map (·.problem.code)).Perm (found.map (·.problem.code))) :
      Alike (.error found) (.error found')

theorem Alike.symm {outcome outcome' : Outcome} (h : Alike outcome outcome') : Alike outcome' outcome := by
  cases h with
  | ok c => exact .ok c
  | error h => exact .error h.symm

theorem Alike.trans {first second third : Outcome} (h : Alike first second) (h' : Alike second third) :
    Alike first third := by
  cases h with
  | ok c => exact h'
  | error h =>
      cases h' with
      | error h' => exact .error (h'.trans h)

/-- Another way of writing numbers, and other places. -/
structure Rewriting where
  spell : String → String
  place : Position → Position
  read_spell : ∀ text, Decimal.read (spell text) = Decimal.read text

namespace Rewriting

variable (w : Rewriting)

/-- The places stay in their order. -/
def KeepsOrder (ps : List Position) : Prop := ∀ p ∈ ps, ∀ q ∈ ps, (w.place p).atMost (w.place q) = p.atMost q

def symbol : Symbol → Symbol
  | .number text => .number (w.spell text)
  | s => s

def token (t : Token) : Token := ⟨w.symbol t.symbol, w.place t.position⟩

def reference (r : Reference) : Reference := ⟨r.name, w.place r.position⟩

def argument (a : Argument) : Argument := ⟨a.tokens.map w.token, w.place a.position⟩

def call (c : Call) : Call := ⟨c.kind, w.place c.opening, c.arguments.map w.argument⟩

def label (l : Code × Position) : Code × Position := (l.1, w.place l.2)

/-- The second fault is the first one, told of the rewritten expression. -/
def Moves (f f' : Fault) : Prop := f'.label = w.label f.label

/-- The faults of the second list are those of the first one, told of the rewritten expression. -/
def MovesAll (found found' : List Fault) : Prop := found'.map Fault.label = (found.map Fault.label).map w.label

/-- The readings agree on what was read, or have the same fault. -/
inductive Agrees {α β : Type} (same : α → β → Prop) : Except Fault α → Except Fault β → Prop
  | ok {a : α} {b : β} (h : same a b) : Agrees same (.ok a) (.ok b)
  | error {f f' : Fault} (h : w.Moves f f') : Agrees same (.error f) (.error f')

variable {w}

theorem MovesAll.append {found found' more more' : List Fault} (h : w.MovesAll found found')
    (hmore : w.MovesAll more more') : w.MovesAll (found ++ more) (found' ++ more') := by
  unfold MovesAll at *
  rw [List.map_append, List.map_append, List.map_append, h, hmore]

theorem MovesAll.cons {f f' : Fault} {found found' : List Fault} (hf : w.Moves f f') (h : w.MovesAll found found') :
    w.MovesAll (f :: found) (f' :: found') := by
  unfold MovesAll at *
  rw [List.map_cons, List.map_cons, List.map_cons, h, hf]

theorem MovesAll.eq_nil_iff {found found' : List Fault} (h : w.MovesAll found found') : found' = [] ↔ found = [] := by
  unfold MovesAll at h
  rw [← List.map_eq_nil_iff (f := Fault.label), h, List.map_eq_nil_iff, List.map_eq_nil_iff]

/-- Faults that are rewritten one by one. -/
theorem movesAll_filterMap {fault fault' : Argument → Option Fault}
    (h : ∀ a, w.MovesAll (fault a).toList (fault' (w.argument a)).toList) (arguments : List Argument) :
    w.MovesAll (arguments.filterMap fault) ((arguments.map w.argument).filterMap fault') := by
  simp only [List.filterMap_eq_flatMap_toList]
  induction arguments with
  | nil => rfl
  | cons a as ih =>
      rw [List.map_cons, List.flatMap_cons, List.flatMap_cons]
      exact (h a).append ih

namespace Agrees

variable {α β : Type} {same : α → β → Prop} {r : Except Fault α} {r' : Except Fault β}

theorem fault? (h : w.Agrees same r r') : w.MovesAll (Expression.fault? r).toList (Expression.fault? r').toList := by
  cases h with
  | ok _ => rfl
  | error hf => exact .cons hf rfl

theorem bind {γ δ : Type} {same' : γ → δ → Prop} {f : α → Except Fault γ} {g : β → Except Fault δ}
    (h : w.Agrees same r r') (hnext : ∀ a b, same a b → w.Agrees same' (f a) (g b)) :
    w.Agrees same' (r >>= f) (r' >>= g) := by
  cases h with
  | ok hsame => exact hnext _ _ hsame
  | error hf => exact .error hf

theorem map {γ δ : Type} {same' : γ → δ → Prop} {f : α → γ} {g : β → δ} (h : w.Agrees same r r')
    (hnext : ∀ a b, same a b → same' (f a) (g b)) : w.Agrees same' (r.map f) (r'.map g) := by
  cases h with
  | ok hsame => exact .ok (hnext _ _ hsame)
  | error hf => exact .error hf

theorem read?_eq {r r' : Except Fault α} (h : w.Agrees Eq r r') : read? r' = read? r := by
  cases h with
  | ok heq => rw [heq]
  | error _ => rfl

end Agrees

/-! ### Arguments -/

variable (w)

theorem agrees_finiteNumber {text text' : String} (h : Decimal.read text' = Decimal.read text) (slot : NumberSlot)
    (p : Position) : w.Agrees Eq (Argument.finiteNumber slot text p) (Argument.finiteNumber slot text' (w.place p)) := by
  unfold Argument.finiteNumber
  rw [h]
  cases Decimal.read text with
  | error e => exact .error rfl
  | ok x =>
      dsimp only
      split
      · exact .ok rfl
      · exact .error rfl

theorem agrees_metric (a : Argument) :
    w.Agrees (fun r r' => r' = w.reference r) a.metric (w.argument a).metric := by
  match a with
  | ⟨[], p⟩ => exact .error rfl
  | ⟨[⟨s, q⟩], p⟩ =>
      cases s with
      | identifier name => exact .ok rfl
      | number _ | openParen | closeParen | comma | colon | stray _ => exact .error rfl
  | ⟨⟨s, q⟩ :: ⟨s', q'⟩ :: ts, p⟩ =>
      cases s with
      | identifier name => cases s' <;> exact .error rfl
      | number _ | openParen | closeParen | comma | colon | stray _ => exact .error rfl

theorem agrees_number (slot : NumberSlot) (a : Argument) :
    w.Agrees Eq (a.number slot) ((w.argument a).number slot) := by
  match a with
  | ⟨[], p⟩ => exact .error rfl
  | ⟨[⟨s, q⟩], p⟩ =>
      cases s with
      | identifier text => exact w.agrees_finiteNumber rfl slot q
      | number text => exact w.agrees_finiteNumber (w.read_spell text) slot q
      | openParen | closeParen | comma | colon | stray _ => exact .error rfl
  | ⟨⟨s, q⟩ :: ⟨s', q'⟩ :: ts, p⟩ => cases s <;> exact .error rfl

theorem argument_ofTokens (ts : List Token) (ending : Position) :
    w.argument (.ofTokens ts ending) = .ofTokens (ts.map w.token) (w.place ending) := by
  cases ts <;> rfl

theorem single?_argument (a : Argument) : (w.argument a).single? = a.single?.map w.reference := by
  match a with
  | ⟨[], p⟩ => rfl
  | ⟨[⟨s, q⟩], p⟩ => cases s <;> rfl
  | ⟨⟨s, q⟩ :: ⟨s', q'⟩ :: ts, p⟩ => cases s <;> rfl

theorem leading?_argument (a : Argument) : (w.argument a).leading? = a.leading?.map w.reference := by
  match a with
  | ⟨[], p⟩ => rfl
  | ⟨⟨s, q⟩ :: ts, p⟩ => cases s <;> rfl

/-- The readings of an argument of a weighted sum agree, pair for pair. -/
inductive AgreesOnWeight : WeightReading → WeightReading → Prop
  | pair {metric : Reference} {weight weight' : Except Fault Float} (h : w.Agrees Eq weight weight') :
      AgreesOnWeight (.pair metric weight) (.pair (w.reference metric) weight')
  | malformed {metric : Option Reference} {fault fault' : Fault} (h : w.Moves fault fault') :
      AgreesOnWeight (.malformed metric fault) (.malformed (metric.map w.reference) fault')

theorem agreesOnWeight (a : Argument) : w.AgreesOnWeight (.ofArgument a) (.ofArgument (w.argument a)) := by
  match a with
  | ⟨[], p⟩ => exact .malformed rfl
  | ⟨[⟨s, q⟩], p⟩ => cases s <;> exact .malformed rfl
  | ⟨⟨s, q⟩ :: ⟨s', q'⟩ :: ts, p⟩ =>
      cases s with
      | identifier name =>
          cases s' with
          | colon =>
              refine .pair ?_
              rw [← argument_ofTokens]
              exact w.agrees_number (.weight name) (.ofTokens ts q')
          | identifier _ | number _ | openParen | closeParen | comma | stray _ => exact .malformed rfl
      | number _ | openParen | closeParen | comma | colon | stray _ => exact .malformed rfl

variable {w}

theorem AgreesOnWeight.fault? {r r' : WeightReading} (h : w.AgreesOnWeight r r') :
    w.MovesAll r.fault?.toList r'.fault?.toList := by
  cases h with
  | malformed hf => exact .cons hf rfl
  | pair hweight =>
      cases hweight with
      | ok _ => rfl
      | error hf => exact .cons hf rfl

theorem AgreesOnWeight.weight?_eq {r r' : WeightReading} (h : w.AgreesOnWeight r r') : r'.weight? = r.weight? := by
  cases h with
  | malformed _ => rfl
  | pair hweight =>
      cases hweight with
      | ok heq => rw [heq]; rfl
      | error _ => rfl

/-- A weight is repeated in one expression if it is in the other. -/
theorem movesAll_repeatedWeights {rs rs' : List WeightReading} (h : List.Forall₂ w.AgreesOnWeight rs rs')
    (weighted : List String) : w.MovesAll (repeatedWeights weighted rs) (repeatedWeights weighted rs') := by
  induction h generalizing weighted with
  | nil => rfl
  | @cons r r' rs rs' hr _ ih =>
      rw [repeatedWeights_cons, repeatedWeights_cons, hr.weight?_eq]
      refine .append ?_ (ih _)
      cases hr with
      | malformed _ => rfl
      | @pair metric _ _ _ =>
          dsimp only [WeightReading.metric?]
          rw [Option.filter_some, Option.filter_some, show (w.reference metric).name = metric.name from rfl]
          split
          · exact .cons rfl rfl
          · rfl

/-! ### Calls -/

/-- The readings of a call agree on the formula and on the metrics, and have the same faults. -/
structure AgreesOnReading (w : Rewriting) (r r' : Reading) : Prop where
  formula : r'.formula? = r.formula?
  references : r'.references = r.references.map w.reference
  faults : w.MovesAll r.faults r'.faults

variable (w)

theorem filterMap_argument {reference? : Argument → Option Reference}
    (h : ∀ a, reference? (w.argument a) = (reference? a).map w.reference) (arguments : List Argument) :
    (arguments.map w.argument).filterMap reference? = (arguments.filterMap reference?).map w.reference := by
  rw [List.filterMap_map, List.map_filterMap]
  exact List.filterMap_congr fun a _ => h a

theorem map_name_reference (references : List Reference) :
    (references.map w.reference).map (·.name) = references.map (·.name) := by
  rw [List.map_map]
  rfl

theorem agrees_ofMetrics (kind : Formula.Kind) (build : List String → Formula) (opening : Position)
    (arguments : List Argument) :
    AgreesOnReading w (.ofMetrics kind build opening arguments)
      (.ofMetrics kind build (w.place opening) (arguments.map w.argument)) := by
  have hreferences := w.filterMap_argument w.single?_argument arguments
  rw [← @Reading.ofMetrics_references (w.place opening) _ kind build,
    ← @Reading.ofMetrics_references opening _ kind build] at hreferences
  cases arguments with
  | nil => exact ⟨rfl, rfl, .cons rfl rfl⟩
  | cons a as =>
      refine ⟨?_, hreferences, ?_⟩
      · exact congrArg (fun names => some (build names))
          ((congrArg (List.map Reference.name) hreferences).trans (w.map_name_reference _))
      · have hne : (a :: as).map w.argument ≠ [] := List.cons_ne_nil _ _
        rw [Reading.ofMetrics_faults (List.cons_ne_nil a as), Reading.ofMetrics_faults hne]
        exact movesAll_filterMap (fun a => (w.agrees_metric a).fault?) _

theorem agrees_ofWeights (opening : Position) (arguments : List Argument) :
    AgreesOnReading w (.ofWeights opening arguments) (.ofWeights (w.place opening) (arguments.map w.argument)) := by
  have hreferences := w.filterMap_argument w.leading?_argument arguments
  rw [← @Reading.ofWeights_references (w.place opening), ← @Reading.ofWeights_references opening] at hreferences
  cases arguments with
  | nil => exact ⟨rfl, rfl, .cons rfl rfl⟩
  | cons a as =>
      have hreadings : List.Forall₂ w.AgreesOnWeight ((a :: as).map WeightReading.ofArgument)
          (((a :: as).map w.argument).map WeightReading.ofArgument) := by
        rw [List.map_map, List.forall₂_map_left_iff, List.forall₂_map_right_iff, List.forall₂_same]
        exact fun a _ => w.agreesOnWeight a
      refine ⟨?_, hreferences, ?_⟩
      · have hweights : (((a :: as).map w.argument).map WeightReading.ofArgument).filterMap (·.weight?) =
            ((a :: as).map WeightReading.ofArgument).filterMap (·.weight?) := by
          rw [List.filterMap_map, List.filterMap_map, List.filterMap_map]
          exact List.filterMap_congr fun a _ => (w.agreesOnWeight a).weight?_eq
        exact congrArg (fun weights => some (Formula.weightedSum (Table.ofList weights))) hweights
      · have hne : (a :: as).map w.argument ≠ [] := List.cons_ne_nil _ _
        rw [Reading.ofWeights_faults (List.cons_ne_nil a as), Reading.ofWeights_faults hne]
        exact (movesAll_filterMap (fun a => (w.agreesOnWeight a).fault?) _).append (movesAll_repeatedWeights hreadings [])

theorem agrees_ofThreshold (opening : Position) (arguments : List Argument) :
    AgreesOnReading w (.ofThreshold opening arguments) (.ofThreshold (w.place opening) (arguments.map w.argument)) where
  formula := by
    match arguments with
    | [] => rfl
    | [a] => simp [Reading.ofThreshold]
    | a :: b :: as =>
        have hnumber := (w.agrees_number .threshold b).read?_eq
        change ((read? (w.argument a).metric).bind fun r => (read? ((w.argument b).number .threshold)).bind fun x =>
            some (Formula.threshold r.name x .atLeast)) =
          (read? a.metric).bind fun r => (read? (b.number .threshold)).bind fun x =>
            some (Formula.threshold r.name x .atLeast)
        rw [hnumber, read?_metric, read?_metric, single?_argument, Option.bind_map]
        rfl
  references := by
    rw [Reading.ofThreshold_references, Reading.ofThreshold_references, ← List.map_take]
    exact w.filterMap_argument w.single?_argument _
  faults := by
    rw [Reading.ofThreshold_faults, Reading.ofThreshold_faults, List.length_map]
    refine .append ?_ (.append ?_ ?_)
    · split
      · rfl
      · exact .cons rfl rfl
    · rw [List.getElem?_map]
      cases arguments[0]? with
      | none => rfl
      | some a => exact (w.agrees_metric a).fault?
    · rw [List.getElem?_map]
      cases arguments[1]? with
      | none => rfl
      | some a => exact (w.agrees_number .threshold a).fault?

theorem agreesOnReading (c : Call) : AgreesOnReading w (.ofCall c) (.ofCall (w.call c)) := by
  obtain ⟨kind, opening, arguments⟩ := c
  cases kind with
  | average => exact w.agrees_ofMetrics .average .average opening arguments
  | least => exact w.agrees_ofMetrics .least .least opening arguments
  | greatest => exact w.agrees_ofMetrics .greatest .greatest opening arguments
  | weightedSum => exact w.agrees_ofWeights opening arguments
  | threshold => exact w.agrees_ofThreshold opening arguments

theorem movesAll_unknownMetrics (known : Metric.Registry) (reported : List String) (references : List Reference) :
    w.MovesAll (unknownMetrics known reported references)
      (unknownMetrics known reported (references.map w.reference)) := by
  induction references generalizing reported with
  | nil => rfl
  | cons r rs ih =>
      rw [List.map_cons, unknownMetrics, unknownMetrics, show (w.reference r).name = r.name from rfl]
      split
      · exact ih reported
      · exact .cons rfl (ih _)

/-- What comes of an expression and of the rewritten one: the same formula, or faults found in the same course, which
are then put in the order of their places. -/
inductive Corresponds : Outcome → Outcome → Prop
  | ok (c : Compiled) : Corresponds (.ok c) (.ok c)
  | error {found found' : List Fault} (h : w.MovesAll found found') :
      Corresponds (.error (inOrder found)) (.error (inOrder found'))

variable {w}

theorem MovesAll.map_code {found found' : List Fault} (h : w.MovesAll found found') :
    found'.map (·.problem.code) = found.map (·.problem.code) := by
  have hcodes := congrArg (List.map (·.1)) h
  rw [List.map_map, List.map_map, List.map_map] at hcodes
  exact hcodes

theorem Corresponds.alike {outcome outcome' : Outcome} (h : w.Corresponds outcome outcome') : Alike outcome outcome' := by
  cases h with
  | ok c => exact .ok c
  | @error found found' h =>
      have hcodes := (perm_inOrder found).map (·.problem.code)
      have hcodes' := (perm_inOrder found').map (·.problem.code)
      rw [h.map_code] at hcodes'
      exact .error (hcodes'.trans hcodes.symm)

/-- Faults that are put in order stand in the same order when they are told of the rewritten expression. -/
theorem MovesAll.inOrder {found found' : List Fault} (h : w.MovesAll found found')
    (horder : w.KeepsOrder (found.map (·.position))) :
    w.MovesAll (Expression.inOrder found) (Expression.inOrder found') := by
  have hlabels (found : List Fault) : (Expression.inOrder found).map Fault.label =
      (found.map Fault.label).mergeSort fun l l' => l.2.atMost l'.2 :=
    List.map_mergeSort fun _ _ _ _ => rfl
  have hplaces : ∀ l ∈ found.map Fault.label, l.2 ∈ found.map (·.position) :=
    List.forall_mem_map.mpr fun f hf => List.mem_map_of_mem hf
  unfold MovesAll at *
  rw [hlabels, hlabels, h]
  exact (List.map_mergeSort fun l hl l' hl' => (horder l.2 (hplaces l hl) l'.2 (hplaces l' hl')).symm).symm

theorem Corresponds.labeled_eq {outcome outcome' : Outcome} (h : w.Corresponds outcome outcome')
    (horder : w.KeepsOrder ((faults outcome).map (·.position))) :
    labeled outcome' = (labeled outcome).mapError (List.map w.label) := by
  cases h with
  | ok c => rfl
  | @error found found' h =>
      have hfound : w.KeepsOrder (found.map (·.position)) := by
        have hmem (p : Position) : p ∈ found.map (·.position) → p ∈ (inOrder found).map (·.position) :=
          ((perm_inOrder found).map (·.position)).mem_iff.mpr
        exact fun p hp q hq => horder p (hmem p hp) q (hmem q hq)
      exact congrArg Except.error (h.inOrder hfound)

variable (w)

/-- A call that is rewritten comes to the same. -/
theorem corresponds_compileCall (known : Metric.Registry) (c : Call) :
    w.Corresponds (compileCall known c) (compileCall known (w.call c)) := by
  obtain ⟨hformula, hreferences, hfaults⟩ := w.agreesOnReading c
  have hunknown := w.movesAll_unknownMetrics known [] (Reading.ofCall c).references
  rw [← hreferences] at hunknown
  have hfound := hfaults.append hunknown
  unfold compileCall
  dsimp only
  rw [hformula, hreferences, map_name_reference, ← hreferences]
  generalize (Reading.ofCall (w.call c)).faults ++ _ = found' at hfound ⊢
  generalize (Reading.ofCall c).faults ++ _ = found at hfound ⊢
  -- A formula that was read is given unless something was found, and nothing is found in one call if nothing is in the other.
  cases (Reading.ofCall c).formula? with
  | none => exact .error hfound
  | some f =>
      cases found with
      | nil =>
          obtain rfl := hfound.eq_nil_iff.mpr rfl
          exact .ok _
      | cons g found =>
          cases found' with
          | nil => cases hfound.eq_nil_iff.mp rfl
          | cons g' found' => exact .error hfound

/-! ### Tokens -/

theorem agrees_kindOf (head : Token) : w.Agrees Eq (kindOf head) (kindOf (w.token head)) := by
  obtain ⟨s, p⟩ := head
  cases s with
  | identifier word =>
      unfold kindOf token symbol
      dsimp only
      cases Formula.Kind.ofKeyword? word with
      | some kind => exact .ok rfl
      | none => exact .error rfl
  | number _ | openParen | closeParen | comma | colon | stray _ => exact .error rfl

/-- The tokens of a body, and the place that closes it, in the rewritten expression. -/
def body (b : List Token × Position × List Token) : List Token × Position × List Token :=
  (b.1.map w.token, w.place b.2.1, b.2.2.map w.token)

/-- What is no number is not rewritten, and nothing else becomes it. -/
theorem symbol_eq_iff {s d : Symbol} (hd : ∀ text, d ≠ .number text) : w.symbol s = d ↔ s = d := by
  cases s with
  | number text => exact iff_of_false (hd _).symm (hd _).symm
  | identifier _ | openParen | closeParen | comma | colon | stray _ => rfl

theorem isInner_symbol (s : Symbol) : (w.symbol s).isInner = s.isInner := by
  cases s <;> rfl

theorem agrees_splitBody (last : Position) (ts : List Token) :
    w.Agrees (fun b b' => b' = w.body b) (splitBody last ts) (splitBody (w.place last) (ts.map w.token)) := by
  induction ts generalizing last with
  | nil => exact .error rfl
  | cons t ts ih =>
      by_cases hinner : t.symbol.isInner = true
      · have hinner' : (w.token t).symbol.isInner = true := (w.isInner_symbol t.symbol).trans hinner
        rw [List.map_cons, splitBody_cons_of_isInner hinner, splitBody_cons_of_isInner hinner']
        refine (ih t.position).map ?_
        rintro b _ rfl
        rfl
      · obtain ⟨s, p⟩ := t
        cases s with
        | identifier _ | number _ | comma | colon => exact absurd rfl hinner
        | closeParen => exact .ok rfl
        | openParen | stray _ => exact .error rfl

theorem splitArguments_map (pending : List Token) (closing : Position) (ts : List Token) :
    splitArguments (pending.map w.token) (w.place closing) (ts.map w.token) =
      (splitArguments pending closing ts).map w.argument := by
  induction ts generalizing pending with
  | nil => rw [List.map_nil, splitArguments, splitArguments, ← List.map_reverse, List.map_singleton, argument_ofTokens]
  | cons t ts ih =>
      have hcomma : (w.token t).symbol = .comma ↔ t.symbol = .comma := w.symbol_eq_iff fun _ => by simp
      rw [List.map_cons, splitArguments, splitArguments]
      by_cases h : t.symbol = .comma
      · rw [if_pos h, if_pos (hcomma.mpr h), List.map_cons, argument_ofTokens, List.map_reverse, ← ih []]
        rfl
      · rw [if_neg h, if_neg (mt hcomma.mp h), ← ih (t :: pending), List.map_cons]

theorem argumentsOf_map (inner : List Token) (closing : Position) :
    argumentsOf (inner.map w.token) (w.place closing) = (argumentsOf inner closing).map w.argument := by
  cases inner with
  | nil => rfl
  | cons t ts => exact w.splitArguments_map [] closing (t :: ts)

theorem agrees_ofTokens (head : Token) (rest : List Token) :
    w.Agrees (fun c c' => c' = w.call c) (Call.ofTokens head rest) (Call.ofTokens (w.token head) (rest.map w.token)) := by
  unfold Call.ofTokens
  refine (w.agrees_kindOf head).bind ?_
  rintro kind _ rfl
  cases rest with
  | nil => exact .error rfl
  | cons paren ts =>
      have hopen : (w.token paren).symbol = .openParen ↔ paren.symbol = .openParen := w.symbol_eq_iff fun _ => by simp
      rw [List.map_cons]
      dsimp only
      split
      · next h =>
          rw [if_pos (hopen.mpr h)]
          refine (w.agrees_splitBody paren.position ts).bind ?_
          rintro ⟨inner, closing, trailing⟩ _ rfl
          cases trailing with
          | nil => exact .ok (congrArg (Call.mk kind (w.place paren.position)) (w.argumentsOf_map inner closing))
          | cons t ts => exact .error rfl
      · next h =>
          rw [if_neg (mt hopen.mp h)]
          exact .error rfl

/-- Tokens that are rewritten come to the same. -/
theorem corresponds_compileTokens (known : Metric.Registry) {ts : List Token} (hts : ts ≠ []) :
    w.Corresponds (compileTokens known ts) (compileTokens known (ts.map w.token)) := by
  cases ts with
  | nil => exact absurd rfl hts
  | cons head rest =>
      have hcall := w.agrees_ofTokens head rest
      rw [List.map_cons, compileTokens, compileTokens]
      generalize Call.ofTokens (w.token head) (rest.map w.token) = r' at hcall ⊢
      generalize Call.ofTokens head rest = r at hcall ⊢
      cases hcall with
      | ok hc => rw [hc]; exact w.corresponds_compileCall known _
      | @error f f' hf =>
          have hsingle : w.MovesAll [f] [f'] := .cons hf rfl
          simpa only [inOrder, List.mergeSort_singleton] using Corresponds.error hsingle

/-- A text whose tokens are those of another, rewritten, comes to the same. -/
theorem corresponds_compile (known : Metric.Registry) {text text' : String}
    (htokens : tokens text' = (tokens text).map w.token) (hne : tokens text ≠ []) :
    w.Corresponds (compile known text) (compile known text') := by
  have hne' : tokens text' ≠ [] := by rwa [htokens, ne_eq, List.map_eq_nil_iff]
  rw [compile_of_tokens_ne_nil hne, compile_of_tokens_ne_nil hne', htokens]
  exact w.corresponds_compileTokens known hne

/-- If the places of the tokens stay in their order, the faults have their labels, moved. -/
theorem labeled_compile (known : Metric.Registry) {text text' : String}
    (htokens : tokens text' = (tokens text).map w.token) (hne : tokens text ≠ [])
    (horder : w.KeepsOrder ((tokens text).map (·.position))) :
    labeled (compile known text') = (labeled (compile known text)).mapError (List.map w.label) := by
  refine (w.corresponds_compile known htokens hne).labeled_eq fun p hp q hq => ?_
  have hplaces : ∀ p ∈ (faults (compile known text)).map (·.position), p ∈ (tokens text).map (·.position) :=
    List.forall_mem_map.mpr fun f hf => position_mem_of_mem_faults hne hf
  exact horder p (hplaces p hp) q (hplaces q hq)

end Rewriting

/-- Where the tokens of two texts stand makes no difference to what the texts come to, but for the order of the
faults. -/
theorem alike_compile_of_symbols (known : Metric.Registry) {text text' : String}
    (h : (tokens text').map (·.symbol) = (tokens text).map (·.symbol)) :
    Alike (compile known text) (compile known text') := by
  -- all tokens of either text are put at one place, and then the two are the same
  let w : Rewriting := ⟨id, fun _ => .start, fun _ => rfl⟩
  have hgathered (ts : List Token) : ts.map w.token = (ts.map (·.symbol)).map fun s => ⟨s, .start⟩ := by
    rw [List.map_map]
    refine List.map_congr_left fun t _ => ?_
    obtain ⟨s, p⟩ := t
    cases s <;> rfl
  by_cases hne : tokens text = []
  · have hne' : tokens text' = [] := by simpa [hne] using h
    rw [compile_of_tokens_eq_nil hne, compile_of_tokens_eq_nil hne']
    exact .error (.refl _)
  · have hne' : tokens text' ≠ [] := by
      intro hnil
      rw [hnil, List.map_nil, eq_comm, List.map_eq_nil_iff] at h
      exact hne h
    rw [compile_of_tokens_ne_nil hne, compile_of_tokens_ne_nil hne']
    have halike := (w.corresponds_compileTokens known hne).alike
    have halike' := (w.corresponds_compileTokens known hne').alike
    rw [hgathered, h, ← hgathered] at halike'
    exact halike.trans halike'.symm

end Scorecard.Expression
