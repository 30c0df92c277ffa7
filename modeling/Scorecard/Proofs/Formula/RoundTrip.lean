import Scorecard.Formula.Evaluate
import Scorecard.Formula.Json
import Scorecard.Proofs.Expression.Printing
import Scorecard.Proofs.Json.Reading
import Scorecard.Proofs.Metric.Name

/-!
Formulas stored and read. Whichever way a formula came about, its metrics are in normal form, so a reader,
which brings them into normal form, takes the stored formula back as it was. And what is read is what the
constructor of its shape makes of the fields of the document.
-/
namespace Scorecard.Formula

open Json (Document Fields)

/-- Every metric of the formula is in normal form. -/
def Normal (f : Formula) : Prop := ∀ name, f.metrics.contains name = true → Metric.normalize name = name

/-! ### Constructors -/

theorem normalize_of_mem_map {names : List String} : ∀ name ∈ names.map Metric.normalize, Metric.normalize name = name :=
  List.forall_mem_map.mpr fun name _ => Metric.normalize_normalize name

theorem normal_averageOf (names : List String) : (averageOf names).Normal :=
  fun name h => normalize_of_mem_map name (NameSet.contains_ofList.mp h)

theorem normal_leastOf (names : List String) : (leastOf names).Normal :=
  fun name h => normalize_of_mem_map name (NameSet.contains_ofList.mp h)

theorem normal_greatestOf (names : List String) : (greatestOf names).Normal :=
  fun name h => normalize_of_mem_map name (NameSet.contains_ofList.mp h)

theorem normal_weightedSumOf (weights : List (String × Float)) : (weightedSumOf weights).Normal := by
  intro name h
  have hkey := Table.contains_ofList.mp (Table.contains_iff_mem_keys.mpr (NameSet.contains_ofList.mp h))
  rw [List.map_map] at hkey
  obtain ⟨entry, -, rfl⟩ := List.mem_map.mp hkey
  exact Metric.normalize_normalize entry.1

theorem normal_thresholdOf (name : String) (bound : Float) (comparison : Comparison) :
    (thresholdOf name bound comparison).Normal := by
  intro name' h
  obtain rfl := List.mem_singleton.mp (NameSet.contains_ofList.mp h)
  exact Metric.normalize_normalize name

theorem map_normalize_of_forall {names : List String} (h : ∀ name ∈ names, Metric.normalize name = name) :
    names.map Metric.normalize = names :=
  (List.map_congr_left h).trans (List.map_id names)

/-- Weights of metrics in normal form are taken as they are. -/
theorem weightedSumOf_entries {weights : Table Float} (h : (weightedSum weights).Normal) :
    weightedSumOf weights.entries = weightedSum weights := by
  have hentries : (weights.entries.map fun e => (Metric.normalize e.1, e.2)) = weights.entries := by
    refine (List.map_congr_left fun e he => ?_).trans (List.map_id _)
    have hname := h e.1 (NameSet.contains_ofList.mpr (List.mem_map_of_mem he))
    exact Prod.ext hname rfl
  exact congrArg weightedSum ((congrArg Table.ofList hentries).trans weights.ofList_entries)

theorem normalize_of_mem_metrics {names : List String} {f : Formula} (hf : f.metrics = NameSet.ofList names)
    (h : f.Normal) : ∀ name ∈ names, Metric.normalize name = name :=
  fun name hname => h name (hf ▸ NameSet.contains_ofList.mpr hname)

/-! ### Storing -/

/-- Reading the document of a formula comes down to reading the fields of its shape. -/
theorem ofDocument?_eq_ofFields? (f : Formula) :
    ofDocument? f.toJson.toDocument =
      ofFields? f.kind (("type", .string f.kind.tag) :: Json.memberDocuments f.fields) := by
  have hvalue : f.toJson.toDocument.value?.isSome = true := by rw [Json.value?_toDocument, Option.isSome_some]
  have hnodup : ((("type", Document.string f.kind.tag) :: Json.memberDocuments f.fields).map (·.1)).Nodup := by
    cases f with
    | threshold => exact (by decide : ["type", "metric", "threshold", "comparison"].Nodup)
    | weightedSum => exact (by decide : ["type", "weights"].Nodup)
    | _ => exact (by decide : ["type", "metrics"].Nodup)
  have hobject : f.toJson.toDocument = .object (("type", .string f.kind.tag) :: Json.memberDocuments f.fields) := rfl
  have htag : (tag? (.object (("type", .string f.kind.tag) :: Json.memberDocuments f.fields))).bind
      (fun tag => tag.string?.bind Kind.ofTag?) = some f.kind := Kind.ofTag?_tag f.kind
  rw [ofDocument?, if_pos hvalue, hobject]
  simp only [Json.fields?_of_nodup hnodup, htag, Option.bind_eq_bind, Option.bind_some]

theorem readsBack_names (names : List String) : Json.ReadsBack (.ofList .string) (·.list? (·.string?)) names :=
  Json.readsBack_list fun name _ => Json.readsBack_string name

/-- A formula in normal form with finite constants is taken back from its document. -/
theorem ofDocument?_toDocument {f : Formula} (hnormal : f.Normal) (hfinite : ∀ x ∈ f.constants, x.isFinite = true) :
    ofDocument? f.toJson.toDocument = some f := by
  rw [ofDocument?_eq_ofFields?]
  cases f with
  | average names =>
      refine (congrArg (Option.map averageOf) (readsBack_names names)).trans ?_
      rw [Option.map_some, averageOf, map_normalize_of_forall (normalize_of_mem_metrics rfl hnormal)]
  | least names =>
      refine (congrArg (Option.map leastOf) (readsBack_names names)).trans ?_
      rw [Option.map_some, leastOf, map_normalize_of_forall (normalize_of_mem_metrics rfl hnormal)]
  | greatest names =>
      refine (congrArg (Option.map greatestOf) (readsBack_names names)).trans ?_
      rw [Option.map_some, greatestOf, map_normalize_of_forall (normalize_of_mem_metrics rfl hnormal)]
  | weightedSum weights =>
      have hweights : Json.ReadsBack (.ofTable .ofFloat) (·.table? (·.float?)) weights :=
        Json.readsBack_table fun entry hentry => Json.readsBack_float (hfinite entry.2 (List.mem_map_of_mem hentry))
      refine (congrArg (Option.map fun weights : Table Float => weightedSumOf weights.entries) hweights).trans ?_
      rw [Option.map_some, weightedSumOf_entries hnormal]
  | threshold name bound comparison =>
      have hname : Metric.normalize name = name := normalize_of_mem_metrics rfl hnormal name List.mem_cons_self
      have hbound : (Json.ofFloat bound).toDocument.float? = some bound :=
        Json.readsBack_float (hfinite bound List.mem_cons_self)
      have hcomparison : Comparison.ofFieldDocument? (.string comparison.word) = some comparison :=
        Comparison.ofWord?_word comparison
      show (Option.bind (some name) fun metric => (Json.ofFloat bound).toDocument.float?.bind fun bound =>
        (Comparison.ofFieldDocument? (.string comparison.word)).bind fun comparison =>
          some (thresholdOf metric bound comparison)) = _
      rw [hbound, hcomparison, Option.bind_some, Option.bind_some, Option.bind_some, thresholdOf, hname]

/-! ### Reading -/

/-- The ways to come by a formula. -/
inductive Obtained : Formula → Prop
  | averageOf (names : List String) : Obtained (averageOf names)
  | leastOf (names : List String) : Obtained (leastOf names)
  | greatestOf (names : List String) : Obtained (greatestOf names)
  | weightedSumOf (weights : List (String × Float)) : Obtained (weightedSumOf weights)
  | thresholdOf (name : String) (bound : Float) (comparison : Comparison) : Obtained (thresholdOf name bound comparison)
  | compiled {known : Metric.Registry} {text : String} {c : Expression.Compiled}
      (h : Expression.compile known text = .ok c) : Obtained c.formula
  | read {d : Document} {f : Formula} (h : ofDocument? d = some f) : Obtained f

/-- The document gives the fields of a shape, by their names or by their places behind the name of the shape. -/
inductive Kind.Gives (kind : Kind) : Document → Fields → Prop
  | byName (fields : Fields) : kind.Gives (.object fields) fields
  | byPlace {items : List Document} (hleast : kind.leastItems ≤ items.length)
      (hmost : items.length ≤ kind.fieldNames.length + 1) :
      kind.Gives (.array items) (("type" :: kind.fieldNames).zip items)

/-- The formula that the constructor of the shape makes of the fields of a document. Of weights that the
document gives to one spelling of a metric the last counts, before any name is brought into normal form. -/
inductive MadeOf (fields : Fields) : Formula → Prop
  | averageOf (names : List String) (shape : fields.lookup "type" = some (.string "average"))
      (metrics : fields.lookup "metrics" = some (.array (names.map .string))) : MadeOf fields (averageOf names)
  | leastOf (names : List String) (shape : fields.lookup "type" = some (.string "min"))
      (metrics : fields.lookup "metrics" = some (.array (names.map .string))) : MadeOf fields (leastOf names)
  | greatestOf (names : List String) (shape : fields.lookup "type" = some (.string "max"))
      (metrics : fields.lookup "metrics" = some (.array (names.map .string))) : MadeOf fields (greatestOf names)
  | weightedSumOf (numbers : List (String × Json.Number)) (shape : fields.lookup "type" = some (.string "weighted_sum"))
      (weights : fields.lookup "weights" = some (.object (numbers.map fun e => (e.1, .number e.2)))) :
      MadeOf fields (weightedSumOf (Table.ofList (numbers.map fun e => (e.1, e.2.toFloat))).entries)
  | thresholdOf (name : String) (number : Json.Number) (comparison : Comparison)
      (shape : fields.lookup "type" = some (.string "threshold"))
      (metric : fields.lookup "metric" = some (.string name))
      (bound : fields.lookup "threshold" = some (.number number))
      (word : ∃ d, fields.lookup "comparison" = some d ∧ Comparison.ofFieldDocument? d = some comparison) :
      MadeOf fields (thresholdOf name number.toFloat comparison)
  | thresholdOfDefault (name : String) (number : Json.Number)
      (shape : fields.lookup "type" = some (.string "threshold"))
      (metric : fields.lookup "metric" = some (.string name))
      (bound : fields.lookup "threshold" = some (.number number))
      (word : fields.lookup "comparison" = none) : MadeOf fields (thresholdOf name number.toFloat .atLeast)

theorem MadeOf.normal {fields : Fields} {f : Formula} (h : MadeOf fields f) : f.Normal := by
  cases h with
  | averageOf names => exact normal_averageOf names
  | leastOf names => exact normal_leastOf names
  | greatestOf names => exact normal_greatestOf names
  | weightedSumOf numbers => exact normal_weightedSumOf _
  | thresholdOf name number comparison => exact normal_thresholdOf name _ comparison
  | thresholdOfDefault name number => exact normal_thresholdOf name _ .atLeast

theorem Kind.tag_injective {kind kind' : Kind} (h : kind.tag = kind'.tag) : kind = kind' := by
  have htag := Kind.ofTag?_tag kind
  rw [h, Kind.ofTag?_tag] at htag
  exact (Option.some.inj htag).symm

theorem MadeOf.lookup_type {fields : Fields} {f : Formula} (h : MadeOf fields f) :
    fields.lookup "type" = some (.string f.kind.tag) := by
  cases h with
  | averageOf _ shape | leastOf _ shape | greatestOf _ shape | weightedSumOf _ shape => exact shape
  | thresholdOf _ _ _ shape | thresholdOfDefault _ _ shape => exact shape

theorem required_names {fields : Fields} {names : List String}
    (h : fields.lookup "metrics" = some (.array (names.map .string))) :
    fields.required "metrics" (·.list? (·.string?)) = some names := by
  have hitems : (names.map Document.string).mapM (·.string?) = some (names.map id) := Json.mapM_map_of_forall fun _ _ => rfl
  rw [Json.Fields.required, h, Option.bind_some, Document.list?, hitems, List.map_id]

theorem required_weights {fields : Fields} {numbers : List (String × Json.Number)}
    (h : fields.lookup "weights" = some (.object (numbers.map fun e => (e.1, .number e.2)))) :
    fields.required "weights" (·.table? (·.float?)) = some (Table.ofList (numbers.map fun e => (e.1, e.2.toFloat))) := by
  have hmembers : (numbers.map fun e => (e.1, Document.number e.2)).mapM (fun m => m.2.float?.map (m.1, ·)) =
      some (numbers.map fun e => (e.1, e.2.toFloat)) := Json.mapM_map_of_forall fun _ _ => rfl
  rw [Json.Fields.required, h, Option.bind_some, Document.table?, hmembers, Option.map_some]

theorem ofFields?_threshold {fields : Fields} {name : String} {number : Json.Number} {comparison : Comparison}
    (hmetric : fields.lookup "metric" = some (.string name)) (hbound : fields.lookup "threshold" = some (.number number))
    (hcomparison : fields.withDefault "comparison" .atLeast Comparison.ofFieldDocument? = some comparison) :
    ofFields? .threshold fields = some (thresholdOf name number.toFloat comparison) := by
  have hname : fields.required "metric" (·.string?) = some name := by
    rw [Json.Fields.required, hmetric]
    rfl
  have hnumber : fields.required "threshold" (·.float?) = some number.toFloat := by
    rw [Json.Fields.required, hbound]
    rfl
  simp only [ofFields?, hname, hnumber, hcomparison, Option.bind_eq_bind, Option.bind_some, Option.pure_def]

/-- What is made of fields is read from them. -/
theorem MadeOf.ofFields?_eq {fields : Fields} {f : Formula} (h : MadeOf fields f) : ofFields? f.kind fields = some f := by
  cases h with
  | averageOf names _ metrics => exact congrArg (Option.map Formula.averageOf) (required_names metrics)
  | leastOf names _ metrics => exact congrArg (Option.map Formula.leastOf) (required_names metrics)
  | greatestOf names _ metrics => exact congrArg (Option.map Formula.greatestOf) (required_names metrics)
  | weightedSumOf numbers _ weights =>
      exact congrArg (Option.map fun weights : Table Float => Formula.weightedSumOf weights.entries) (required_weights weights)
  | thresholdOf name number comparison _ metric bound word =>
      obtain ⟨d, hword, hread⟩ := word
      have hcomparison : fields.withDefault "comparison" .atLeast Comparison.ofFieldDocument? = some comparison := by
        rw [Json.Fields.withDefault, hword]
        exact hread
      exact ofFields?_threshold metric bound hcomparison
  | thresholdOfDefault name number _ metric bound word =>
      have hcomparison : fields.withDefault "comparison" .atLeast Comparison.ofFieldDocument? = some .atLeast := by
        rw [Json.Fields.withDefault, word]
      exact ofFields?_threshold metric bound hcomparison

/-- The fields determine the formula. -/
theorem MadeOf.unique {fields : Fields} {f g : Formula} (hf : MadeOf fields f) (hg : MadeOf fields g) : f = g := by
  have htag := hf.lookup_type.symm.trans hg.lookup_type
  have hkind : f.kind = g.kind := Kind.tag_injective (Document.string.inj (Option.some.inj htag))
  have hread := hf.ofFields?_eq
  rw [hkind, hg.ofFields?_eq] at hread
  exact (Option.some.inj hread).symm

theorem names_of_list? {d : Document} {names : List String} (h : d.list? (·.string?) = some names) :
    d = .array (names.map .string) := by
  obtain ⟨names', rfl, hnames⟩ := Json.exists_of_list? (fun _ s hs => ⟨s, Json.string?_eq_some hs, rfl⟩) h
  rw [hnames, List.map_id']

theorem numbers_of_table? {d : Document} {weights : Table Float} (h : d.table? (·.float?) = some weights) :
    ∃ numbers : List (String × Json.Number), d = .object (numbers.map fun e => (e.1, .number e.2)) ∧
      weights = Table.ofList (numbers.map fun e => (e.1, e.2.toFloat)) :=
  Json.exists_of_table? (fun _ _ hx => Json.float?_eq_some hx) h

/-- What is read from fields is what the constructor of the shape makes of them. -/
theorem madeOf_of_ofFields? {kind : Kind} {fields : Fields} {f : Formula}
    (htag : fields.lookup "type" = some (.string kind.tag)) (h : ofFields? kind fields = some f) : MadeOf fields f := by
  have hrequired {α : Type} {name : String} {read : Document → Option α} {a : α}
      (h : fields.required name read = some a) : ∃ d, fields.lookup name = some d ∧ read d = some a :=
    Option.bind_eq_some_iff.mp h
  cases kind with
  | average =>
      obtain ⟨names, hnames, rfl⟩ := Option.map_eq_some_iff.mp h
      obtain ⟨d, hlookup, hread⟩ := hrequired hnames
      exact .averageOf names htag (names_of_list? hread ▸ hlookup)
  | least =>
      obtain ⟨names, hnames, rfl⟩ := Option.map_eq_some_iff.mp h
      obtain ⟨d, hlookup, hread⟩ := hrequired hnames
      exact .leastOf names htag (names_of_list? hread ▸ hlookup)
  | greatest =>
      obtain ⟨names, hnames, rfl⟩ := Option.map_eq_some_iff.mp h
      obtain ⟨d, hlookup, hread⟩ := hrequired hnames
      exact .greatestOf names htag (names_of_list? hread ▸ hlookup)
  | weightedSum =>
      obtain ⟨weights, hweights, rfl⟩ := Option.map_eq_some_iff.mp h
      obtain ⟨d, hlookup, hread⟩ := hrequired hweights
      obtain ⟨numbers, rfl, rfl⟩ := numbers_of_table? hread
      exact .weightedSumOf numbers htag hlookup
  | threshold =>
      obtain ⟨name, hname, h⟩ := Option.bind_eq_some_iff.mp h
      obtain ⟨x, hx, h⟩ := Option.bind_eq_some_iff.mp h
      obtain ⟨comparison, hcomparison, h⟩ := Option.bind_eq_some_iff.mp h
      obtain rfl := Option.some.inj h
      obtain ⟨d, hmetric, hread⟩ := hrequired hname
      obtain rfl := Json.string?_eq_some hread
      obtain ⟨d, hbound, hread⟩ := hrequired hx
      obtain ⟨n, rfl, rfl⟩ := Json.float?_eq_some hread
      rw [Json.Fields.withDefault] at hcomparison
      cases hword : fields.lookup "comparison" with
      | none =>
          rw [hword] at hcomparison
          obtain rfl := Option.some.inj hcomparison
          exact .thresholdOfDefault name n htag hmetric hbound hword
      | some d =>
          rw [hword] at hcomparison
          exact .thresholdOf name n comparison htag hmetric hbound ⟨d, hword, hcomparison⟩

theorem Kind.tag_of_ofTag? {tag : String} {kind : Kind} (h : Kind.ofTag? tag = some kind) : tag = kind.tag := by
  unfold Kind.ofTag? at h
  split at h
  all_goals cases h
  all_goals rfl

theorem Kind.gives_of_fields? {kind : Kind} {d : Document} {fields : Fields}
    (h : d.fields? ("type" :: kind.fieldNames) kind.leastItems = some fields) : kind.Gives d fields := by
  rcases Json.cases_of_fields? h with rfl | ⟨items, rfl, hleast, hmost, rfl⟩
  · exact .byName fields
  · exact .byPlace hleast hmost

/-- Given either way, the field of the type names the shape. -/
theorem Kind.Gives.lookup_type {kind : Kind} {d : Document} {fields : Fields} (h : kind.Gives d fields) :
    fields.lookup "type" = tag? d := by
  cases h with
  | byName => rfl
  | @byPlace items => cases items <;> rfl

/-- A formula that is read is made of the fields that the document gives. -/
theorem madeOf_of_ofDocument? {d : Document} {f : Formula} (h : ofDocument? d = some f) :
    ∃ fields, f.kind.Gives d fields ∧ MadeOf fields f := by
  rw [ofDocument?] at h
  split at h
  · obtain ⟨kind, hkind, h⟩ := Option.bind_eq_some_iff.mp h
    obtain ⟨fields, hfields, hread⟩ := Option.bind_eq_some_iff.mp h
    obtain ⟨tag, htag, hkind⟩ := Option.bind_eq_some_iff.mp hkind
    obtain ⟨word, hword, hkind⟩ := Option.bind_eq_some_iff.mp hkind
    obtain rfl := Json.string?_eq_some hword
    obtain rfl := Kind.tag_of_ofTag? hkind
    have hgives := Kind.gives_of_fields? hfields
    have hlookup := hgives.lookup_type.trans htag
    have hmade := madeOf_of_ofFields? hlookup hread
    obtain rfl : f.kind = kind := by
      rw [hmade.lookup_type] at hlookup
      exact Kind.tag_injective (Document.string.inj (Option.some.inj hlookup))
    exact ⟨fields, hgives, hmade⟩
  · cases h

theorem Obtained.normal {f : Formula} (h : Obtained f) : f.Normal := by
  cases h with
  | averageOf names => exact normal_averageOf names
  | leastOf names => exact normal_leastOf names
  | greatestOf names => exact normal_greatestOf names
  | weightedSumOf weights => exact normal_weightedSumOf weights
  | thresholdOf name bound comparison => exact normal_thresholdOf name bound comparison
  | compiled h =>
      obtain ⟨hspelled, -⟩ := Expression.spelled_of_compile h
      exact fun name hname => Expression.normalize_of_isIdentifier (hspelled.names name hname)
  | read h =>
      obtain ⟨fields, -, hmade⟩ := madeOf_of_ofDocument? h
      exact hmade.normal

/-- However a formula came about, storing it and reading it gives it back, if its constants are finite. And
every formula that is read has its metrics in normal form and is the one that the constructor of its shape
makes of the fields of the document, be they given by name or by place, so that it has the score of that one
on every table. -/
theorem stored_and_read :
    (∀ f, Obtained f → (∀ x ∈ f.constants, x.isFinite = true) → ofDocument? f.toJson.toDocument = some f) ∧
      ∀ d f, ofDocument? d = some f → f.Normal ∧ ∃ fields, f.kind.Gives d fields ∧ MadeOf fields f ∧
        ∀ g, MadeOf fields g → f = g ∧ ∀ values, f.evaluate values = g.evaluate values := by
  constructor
  · intro f hobtained hfinite
    exact ofDocument?_toDocument hobtained.normal hfinite
  · intro d f h
    obtain ⟨fields, hgives, hmade⟩ := madeOf_of_ofDocument? h
    refine ⟨hmade.normal, fields, hgives, hmade, fun g hg => ?_⟩
    obtain rfl := hmade.unique hg
    exact ⟨rfl, fun _ => rfl⟩

/-- Two spellings of one metric in a document come down to the later one in the order of the spellings, and
the formula that is read is stored under the normal form. -/
theorem stored_and_read_of_spellings :
    let d := Document.object [("type", .string "weighted_sum"),
      ("weights", .object [("bleu ", .number (.integer 1 (by decide))), ("BLEU", .number (.float 0.5 (by decide)))])]
    let f := weightedSumOf [("BLEU", 1)]
    ofDocument? d = some f ∧ ofDocument? f.toJson.toDocument = some f ∧
      f.Normal ∧ ∃ fields, f.kind.Gives d fields ∧ MadeOf fields f ∧
        ∀ g, MadeOf fields g → f = g ∧ ∀ values, f.evaluate values = g.evaluate values := by
  intro d f
  have hread : ofDocument? d = some f := by decide +kernel
  exact ⟨hread, stored_and_read.1 f (.read hread) (by decide +kernel), stored_and_read.2 d f hread⟩

example :
    ofDocument? (.array [.string "threshold", .string " bleu", .number (.integer 1 (by decide))]) =
      some (.threshold "BLEU" 1 .atLeast) := by
  decide +kernel

end Scorecard.Formula
