import ObjectLedger.Json.Record
import ObjectLedger.Number.Decimal

/-!
# Metrics

Counters, gauges and histograms of builds and executions, and their text for a collector: families
sorted by name, each with its help and type, labelled counters sorted by label, buckets cumulative.
-/

namespace ObjectLedger

/-- Counts by label, sorted by label. -/
abbrev LabelledCounts := List (String × Nat)

def LabelledCounts.bump (label : String) : LabelledCounts → LabelledCounts
  | [] => [(label, 1)]
  | (l, n) :: rest =>
    if label < l then (label, 1) :: (l, n) :: rest
    else if label = l then (l, n + 1) :: rest
    else (l, n) :: bump label rest

def LabelledCounts.count (label : String) (counts : LabelledCounts) : Nat :=
  ((counts.lookup label).getD 0)

/-- Observations by the first bound they do not exceed, with their number and sum. -/
structure Histogram where
  bounds : List Double
  buckets : List Nat
  sum : Double
  count : Nat

namespace Histogram

/-- No observations yet, with bounds in thousandths. -/
def ofMillis (bounds : List Nat) : Histogram where
  bounds := bounds.map fun n => Double.ofRatio false n 1000
  buckets := bounds.map fun _ => 0
  sum := Double.zero
  count := 0

/-- Counts an observation in the first bucket that holds it. -/
def place (value : Double) : List Double → List Nat → List Nat
  | bound :: bounds, n :: rest =>
    if value.le bound then (n + 1) :: rest else n :: place value bounds rest
  | _, rest => rest

def observe (h : Histogram) (value : Double) : Histogram :=
  { h with
    buckets := place value h.bounds h.buckets
    sum := h.sum.add value
    count := h.count + 1 }

end Histogram

/-- All counters, gauges and histograms. -/
structure Metrics where
  buildsTotal : Nat := 0
  buildsFailed : LabelledCounts := []
  executionsTotal : Nat := 0
  executionsSuccess : Nat := 0
  executionsFailedStatus : Nat := 0
  submissionErrors : LabelledCounts := []
  cacheResets : Nat := 0
  namesResolved : Nat := 0
  objectsFetched : Nat := 0
  inclusionPolls : Nat := 0
  inclusionPollErrors : Nat := 0
  queueDepth : Int := 0
  cacheEntries : Int := 0
  buildLatency : Histogram := .ofMillis [1, 5, 10, 50, 100, 500, 1000]
  executeLatency : Histogram := .ofMillis [10, 50, 100, 500, 1000, 2000, 5000]
  inclusionWait : Histogram := .ofMillis [100, 500, 1000, 2000, 5000, 10000, 30000, 60000]

namespace Metrics

/-- Every count under the name it goes by, labels after a slash. -/
def counts (m : Metrics) : List (String × Nat) :=
  [("builds_total", m.buildsTotal), ("executions_total", m.executionsTotal),
   ("executions_success", m.executionsSuccess),
   ("executions_failed_status", m.executionsFailedStatus), ("cache_resets", m.cacheResets),
   ("names_resolved", m.namesResolved), ("objects_fetched", m.objectsFetched),
   ("inclusion_polls", m.inclusionPolls), ("inclusion_poll_errors", m.inclusionPollErrors),
   ("build_latency/count", m.buildLatency.count), ("execute_latency/count", m.executeLatency.count),
   ("inclusion_wait/count", m.inclusionWait.count)] ++
  m.buildsFailed.map (fun entry => ("builds_failed/" ++ entry.1, entry.2)) ++
  m.submissionErrors.map fun entry => ("submission_errors/" ++ entry.1, entry.2)

/-- A counter raised by an amount, by its name; an unknown name changes nothing. -/
def raise (m : Metrics) (name : String) (n : Nat) : Metrics :=
  match name with
  | "builds_total" => { m with buildsTotal := m.buildsTotal + n }
  | "executions_total" => { m with executionsTotal := m.executionsTotal + n }
  | "executions_success" => { m with executionsSuccess := m.executionsSuccess + n }
  | "executions_failed_status" => { m with executionsFailedStatus := m.executionsFailedStatus + n }
  | "cache_resets" => { m with cacheResets := m.cacheResets + n }
  | "names_resolved" => { m with namesResolved := m.namesResolved + n }
  | "objects_fetched" => { m with objectsFetched := m.objectsFetched + n }
  | "inclusion_polls" => { m with inclusionPolls := m.inclusionPolls + n }
  | "inclusion_poll_errors" => { m with inclusionPollErrors := m.inclusionPollErrors + n }
  | _ => m

def failBuild (m : Metrics) (category : String) : Metrics :=
  { m with buildsFailed := m.buildsFailed.bump category }

def failSubmission (m : Metrics) (category : String) : Metrics :=
  { m with submissionErrors := m.submissionErrors.bump category }

/-- A change by its name: a counter raised by a number or by one, one more failure of a category, a gauge
set, or an observation taken in. -/
def change? (m : Metrics) (name : String) (value : Json) : Option Metrics := do
  match name, value with
  | "build_failure", .text category => return m.failBuild category
  | "submission_error", .text category => return m.failSubmission category
  | "queue_depth", .integer n => return { m with queueDepth := n }
  | "cache_entries", .integer n => return { m with cacheEntries := n }
  | "build_latency", x => return { m with buildLatency := m.buildLatency.observe (← ofJson? x) }
  | "execute_latency", x =>
    return { m with executeLatency := m.executeLatency.observe (← ofJson? x) }
  | "inclusion_wait", x => return { m with inclusionWait := m.inclusionWait.observe (← ofJson? x) }
  | name, .null => return m.raise name 1
  | name, .integer n => return m.raise name n.toNat
  | _, _ => none

/-- A family of samples in the text for a collector. -/
structure Family where
  name : String
  help : String
  type : String
  /-- What stands after the family's name, and the value. -/
  samples : List (String × String)

/-- A counter's value, which is kept in 64 bits. -/
def counterText (n : Nat) : String := (Double.ofNat (n % UInt64.size)).plainText

def counterFamily (name help : String) (n : Nat) : Family :=
  ⟨name, help, "counter", [("", counterText n)]⟩

def gaugeFamily (name help : String) (n : Int) : Family :=
  ⟨name, help, "gauge", [("", (Double.ofInt n).plainText)]⟩

def labelChar (c : Char) : List Char :=
  if c = '\\' then ['\\', '\\']
  else if c = '"' then ['\\', '"']
  else if c = '\n' then ['\\', 'n']
  else [c]

def labelText (name value : String) : String :=
  String.ofList ('\x7b' :: (name.toList ++ '=' :: '"' :: (value.toList.flatMap labelChar ++
    ['"', '\x7d'])))

def labelledFamily (name help : String) (counts : LabelledCounts) : Family :=
  ⟨name, help, "counter",
    counts.map fun entry => (labelText "category" entry.1, counterText entry.2)⟩

/-- Buckets from a running total on. -/
def bucketSamples (total : Nat) : List Double → List Nat → List (String × String)
  | bound :: bounds, n :: rest =>
    ("_bucket" ++ labelText "le" bound.plainText, counterText (total + n)) ::
      bucketSamples (total + n) bounds rest
  | _, _ => []

def histogramFamily (name help : String) (h : Histogram) : Family :=
  ⟨name, help, "histogram",
    bucketSamples 0 h.bounds h.buckets ++
      [("_bucket" ++ labelText "le" "+Inf", counterText h.count), ("_sum", h.sum.plainText),
       ("_count", counterText h.count)]⟩

/-- All families, sorted by name. -/
def families (m : Metrics) : List Family :=
  [histogramFamily "build_latency_seconds" "Transaction build latency" m.buildLatency,
   labelledFamily "builds_failed_total" "Failed builds by error category" m.buildsFailed,
   counterFamily "builds_total" "Transaction builds attempted" m.buildsTotal,
   gaugeFamily "cache_entries" "Entries in the object cache" m.cacheEntries,
   counterFamily "cache_resets_total" "Object cache resets after a failed execution" m.cacheResets,
   histogramFamily "execute_latency_seconds" "Sign, submit and apply latency" m.executeLatency,
   counterFamily "executions_failed_status_total"
     "Executions whose effects report an execution failure" m.executionsFailedStatus,
   counterFamily "executions_success_total" "Executions whose effects report success"
     m.executionsSuccess,
   counterFamily "executions_total" "Transactions handed to the ledger" m.executionsTotal,
   gaugeFamily "executor_queue_depth" "Operations waiting on or holding the serial executor"
     m.queueDepth,
   counterFamily "inclusion_poll_errors_total" "Transient errors while polling for inclusion"
     m.inclusionPollErrors,
   counterFamily "inclusion_polls_total" "Inclusion poll attempts" m.inclusionPolls,
   histogramFamily "inclusion_wait_seconds" "Time until a transaction was found" m.inclusionWait,
   counterFamily "names_resolved_total" "Named packages resolved through the lookup client"
     m.namesResolved,
   counterFamily "objects_fetched_total" "Objects fetched through the lookup client"
     m.objectsFetched,
   labelledFamily "submission_errors_total" "Executor errors by category" m.submissionErrors]

/-- The lines of a family; one without samples has none. -/
def Family.lines (f : Family) : List String :=
  if f.samples.isEmpty then []
  else
    s!"# HELP {f.name} {f.help}" :: s!"# TYPE {f.name} {f.type}" ::
      f.samples.map fun sample => s!"{f.name}{sample.1} {sample.2}"

def text (m : Metrics) : String :=
  String.join ((m.families.flatMap Family.lines).map (· ++ "\n"))

end Metrics

end ObjectLedger
