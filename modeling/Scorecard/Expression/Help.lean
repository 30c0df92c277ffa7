import Scorecard.Metric.Registry

/-!
The reference text of the expression language, which ends with the metrics that are known.
-/
namespace Scorecard.Expression

def helpLines : List String :=
  ["KPI Formula DSL Syntax",
    "======================",
    "",
    "Function names and metric names are case-insensitive.",
    "",
    "1. AVERAGE(metric1, metric2, ...)",
    "   Arithmetic mean of the metrics that are present.",
    "   Example: AVERAGE(ROUGE, BLEU, F1_SCORE)",
    "",
    "2. WEIGHTED_SUM(metric1: weight1, metric2: weight2, ...)",
    "   Weighted sum; every metric must be present.",
    "   Example: WEIGHTED_SUM(ROUGE: 0.6, BLEU: 0.4)",
    "",
    "3. MIN(metric1, metric2, ...)",
    "   Smallest value among the metrics that are present.",
    "   Example: MIN(ROUGE, BLEU)",
    "",
    "4. MAX(metric1, metric2, ...)",
    "   Largest value among the metrics that are present.",
    "   Example: MAX(ROUGE, BLEU)",
    "",
    "5. THRESHOLD(metric, value)",
    "   1.0 if metric >= value, 0.0 otherwise.",
    "   Example: THRESHOLD(ROUGE, 0.7)",
    "",
    "Available Metrics:"]

def help (known : Metric.Registry) : String :=
  let metrics := ", ".intercalate known.toList
  let last := ["- " ++ metrics, "- Custom metrics can be registered at runtime."]
  String.join ((helpLines ++ last).map (· ++ "\n"))

end Scorecard.Expression
