import Scorecard.Kpi.Basic

/-!
Benchmarks: what is run, and the indicators that are scored on it, in order.
-/
namespace Scorecard

structure Benchmark where
  id : String
  metadata : Option String
  datasetRef : Option String
  taskDefinition : Option String
  protocolVersion : Option String
  runName : Option String
  measures : List Kpi

namespace Benchmark

def new (id : String) : Benchmark :=
  { id, metadata := none, datasetRef := none, taskDefinition := none, protocolVersion := none, runName := none,
    measures := [] }

def withKpi (b : Benchmark) (k : Kpi) : Benchmark := { b with measures := b.measures ++ [k] }

def toJson (b : Benchmark) : Json :=
  .object [("id", .string b.id), ("metadata", .ofOption .string b.metadata),
    ("dataset_ref", .ofOption .string b.datasetRef), ("task_def", .ofOption .string b.taskDefinition),
    ("protocol_version", .ofOption .string b.protocolVersion), ("run_name", .ofOption .string b.runName),
    ("measures", .ofList (·.toJson) b.measures)]

def ofDocument? (supply : Supply) (d : Json.Document) : Option Benchmark := do
  let fields ← d.fields? ["id", "metadata", "dataset_ref", "task_def", "protocol_version", "run_name",
    "measures"] 1
  return {
    id := ← fields.required "id" (·.string?)
    metadata := ← fields.optional "metadata" (·.string?)
    datasetRef := ← fields.optional "dataset_ref" (·.string?)
    taskDefinition := ← fields.optional "task_def" (·.string?)
    protocolVersion := ← fields.optional "protocol_version" (·.string?)
    runName := ← fields.optional "run_name" (·.string?)
    measures := ← fields.withDefault "measures" [] (supply.list? Kpi.ofDocument?) }

end Benchmark

end Scorecard
