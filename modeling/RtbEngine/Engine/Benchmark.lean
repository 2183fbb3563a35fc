import Mathlib.Algebra.Order.Ring.Rat
import RtbEngine.Engine.Request

/-!
# The benchmark report

`benchmark.cc`: the summary of the recorded timings and the report written
from it. The rounding of double and of long double arithmetic are arguments,
and so is the time. A count of the elements of a vector is a natural number.
-/

namespace RtbEngine

open Lib

/-! ## Summaries -/

/-- Reading past the end is undefined; 0 stands for it. -/
def percentileValue (fl : Double → Double) (values : List UInt64) (percentile : Double) : UInt64 :=
  if values.isEmpty then 0
  else
    let sorted := values.mergeSort
    let index := (fl (percentile * fl (values.length - 1 : Nat))).floor.toNat
    sorted[index]?.getD 0

structure BenchmarkPhaseSummary where
  count : Nat := 0
  minNs : UInt64 := 0
  maxNs : UInt64 := 0
  avgNs : Double := 0
  p50Ns : UInt64 := 0
  p95Ns : UInt64 := 0
  p99Ns : UInt64 := 0

/-- What the loop of `summarize_phase` keeps. -/
structure PhaseTotals where
  values : List UInt64 := []
  minValue : UInt64
  maxValue : UInt64
  total : Double := 0

def PhaseTotals.add (lfl : Double → Double) (t : PhaseTotals) (value : UInt64) : PhaseTotals :=
  { values := t.values ++ [value]
    minValue := min t.minValue value
    maxValue := max t.maxValue value
    total := lfl (t.total + lfl value.toNat) }

def summarizePhase (fl lfl : Double → Double) (requests : List RequestTimingBreakdown)
    (accessor : RequestTimingBreakdown → UInt64) : BenchmarkPhaseSummary :=
  match requests with
  | [] => {}
  | front :: _ =>
      let start : PhaseTotals := { minValue := accessor front, maxValue := accessor front }
      let t := requests.foldl (fun t request => t.add lfl (accessor request)) start
      { count := t.values.length
        minNs := t.minValue
        maxNs := t.maxValue
        -- the total is a `long double`; only the average is cut back to `double`
        avgNs := fl (lfl (t.total / lfl t.values.length))
        p50Ns := percentileValue fl t.values (fl (50 / 100))
        p95Ns := percentileValue fl t.values (fl (95 / 100))
        p99Ns := percentileValue fl t.values (fl (99 / 100)) }

structure BenchmarkSummary where
  requestCount : Nat := 0
  parse : BenchmarkPhaseSummary := {}
  normalizeValidate : BenchmarkPhaseSummary := {}
  retrieve : BenchmarkPhaseSummary := {}
  decide : BenchmarkPhaseSummary := {}
  responseBuild : BenchmarkPhaseSummary := {}
  responseStage : BenchmarkPhaseSummary := {}
  totalInternal : BenchmarkPhaseSummary := {}

def BenchmarkRecorder.summarize (fl lfl : Double → Double) (r : BenchmarkRecorder) :
    BenchmarkSummary :=
  { requestCount := r.requests.length
    parse := summarizePhase fl lfl r.requests (·.parseNs)
    normalizeValidate := summarizePhase fl lfl r.requests (·.normalizeValidateNs)
    retrieve := summarizePhase fl lfl r.requests (·.retrieveNs)
    decide := summarizePhase fl lfl r.requests (·.decideNs)
    responseBuild := summarizePhase fl lfl r.requests (·.responseBuildNs)
    responseStage := summarizePhase fl lfl r.requests (·.responseStageNs)
    totalInternal := summarizePhase fl lfl r.requests (·.totalInternalNs) }

/-! ## Numbers as a stream writes them -/

def decimal (n : Nat) : Bytes :=
  if n = 0 then [48] else (Nat.digits 10 n).reverse.map fun d => UInt8.ofNat (48 + d)

def signedDecimal (i : Int) : Bytes :=
  if i < 0 then 45 :: decimal i.natAbs else decimal i.natAbs

def twoDigits (n : Nat) : Bytes := [UInt8.ofNat (48 + n / 10), UInt8.ofNat (48 + n % 10)]

/-- The nearest number of hundredths, the even one of two. -/
def hundredths (q : Double) : Nat :=
  let scaled := |q| * 100
  let whole := scaled.floor.toNat
  let rest := scaled - whole
  if rest < 1 / 2 ∨ rest = 1 / 2 ∧ whole % 2 = 0 then whole else whole + 1

/-- `std::fixed << std::setprecision(2)`. -/
def fixedTwo (q : Double) : Bytes :=
  (if q < 0 then [45] else []) ++ decimal (hundredths q / 100) ++
    46 :: twoDigits (hundredths q % 100)

/-! ## The report -/

/-- A broken-down time; `month` counts from 1. -/
structure UtcTime where
  year : Nat
  month : Fin 100
  day : Fin 100
  hour : Fin 100
  minute : Fin 100
  second : Fin 100

/-- `timestamp_now_utc`. -/
def timestampUtc (now : UtcTime) : Bytes :=
  decimal now.year ++ ascii "-" ++ twoDigits now.month ++ ascii "-" ++ twoDigits now.day ++
    ascii "T" ++ twoDigits now.hour ++ ascii ":" ++ twoDigits now.minute ++ ascii ":" ++
    twoDigits now.second ++ ascii "Z"

structure BenchmarkMetadata where
  timestampUtc : Bytes := []
  port : UInt16 := 0
  workers : Int32 := 0
  requestLimit : UInt64 := 0
  durationMs : UInt64 := 0
  completedRequests : Nat := 0
  campaignDataPath : Bytes := []

def phaseJson (name : Bytes) (phase : BenchmarkPhaseSummary) : Bytes :=
  ascii "    \"" ++ name ++ ascii "\": \x7b\n" ++
    (ascii "      \"count\": " ++ decimal phase.count ++ ascii ",\n") ++
    (ascii "      \"min_ns\": " ++ decimal phase.minNs.toNat ++ ascii ",\n") ++
    (ascii "      \"max_ns\": " ++ decimal phase.maxNs.toNat ++ ascii ",\n") ++
    (ascii "      \"avg_ns\": " ++ fixedTwo phase.avgNs ++ ascii ",\n") ++
    (ascii "      \"p50_ns\": " ++ decimal phase.p50Ns.toNat ++ ascii ",\n") ++
    (ascii "      \"p95_ns\": " ++ decimal phase.p95Ns.toNat ++ ascii ",\n") ++
    (ascii "      \"p99_ns\": " ++ decimal phase.p99Ns.toNat ++ ascii "\n") ++
    ascii "    \x7d"

/-- What `write_json` writes: the lines of the metadata, then the phases. -/
def reportText (metadata : BenchmarkMetadata) (summary : BenchmarkSummary) : Bytes :=
  ascii "\x7b\n" ++ ascii "  \"metadata\": \x7b\n" ++
    (ascii "    \"timestamp_utc\": \"" ++ metadata.timestampUtc ++ ascii "\",\n") ++
    (ascii "    \"port\": " ++ decimal metadata.port.toNat ++ ascii ",\n") ++
    (ascii "    \"workers\": " ++ signedDecimal metadata.workers.toInt ++ ascii ",\n") ++
    (ascii "    \"request_limit\": " ++ decimal metadata.requestLimit.toNat ++ ascii ",\n") ++
    (ascii "    \"duration_ms\": " ++ decimal metadata.durationMs.toNat ++ ascii ",\n") ++
    (ascii "    \"completed_requests\": " ++ decimal metadata.completedRequests ++ ascii ",\n") ++
    (ascii "    \"campaign_data_path\": \"" ++ metadata.campaignDataPath ++ ascii "\"\n") ++
    ascii "  \x7d,\n" ++ ascii "  \"phases\": \x7b\n" ++
    (phaseJson (ascii "parse") summary.parse ++ ascii ",\n") ++
    (phaseJson (ascii "normalize_validate") summary.normalizeValidate ++ ascii ",\n") ++
    (phaseJson (ascii "retrieve") summary.retrieve ++ ascii ",\n") ++
    (phaseJson (ascii "decide") summary.decide ++ ascii ",\n") ++
    (phaseJson (ascii "response_build") summary.responseBuild ++ ascii ",\n") ++
    (phaseJson (ascii "response_stage") summary.responseStage ++ ascii ",\n") ++
    (phaseJson (ascii "total_internal") summary.totalInternal ++ ascii "\n") ++
    ascii "  \x7d\n" ++ ascii "\x7d\n"

/-- A line of `print_summary`. -/
def printPhase (name : Bytes) (phase : BenchmarkPhaseSummary) : Bytes :=
  ascii "  " ++ name ++ ascii ": avg=" ++ fixedTwo phase.avgNs ++
    ascii "ns p50=" ++ decimal phase.p50Ns.toNat ++
    ascii "ns p95=" ++ decimal phase.p95Ns.toNat ++
    ascii "ns p99=" ++ decimal phase.p99Ns.toNat ++
    ascii "ns max=" ++ decimal phase.maxNs.toNat ++ ascii "ns\n"

/-- What `print_summary` prints. -/
def BenchmarkRecorder.printSummary (fl lfl : Double → Double) (r : BenchmarkRecorder) : Bytes :=
  let summary := r.summarize fl lfl
  ascii "Engine internal benchmark summary\n" ++
    (ascii "requests=" ++ decimal summary.requestCount ++ ascii "\n") ++
    printPhase (ascii "parse") summary.parse ++
    printPhase (ascii "normalize_validate") summary.normalizeValidate ++
    printPhase (ascii "retrieve") summary.retrieve ++
    printPhase (ascii "decide") summary.decide ++
    printPhase (ascii "response_build") summary.responseBuild ++
    printPhase (ascii "response_stage") summary.responseStage ++
    printPhase (ascii "total_internal") summary.totalInternal

/-- The text of the file, or `none` when it cannot be opened. -/
def BenchmarkRecorder.writeJson (fl lfl : Double → Double) (now : UtcTime) (isOpen : Bool)
    (r : BenchmarkRecorder) (metadata : BenchmarkMetadata) : Option Bytes :=
  if isOpen then
    let summary := r.summarize fl lfl
    let finalMetadata : BenchmarkMetadata :=
      { metadata with
        timestampUtc :=
          if metadata.timestampUtc.isEmpty then timestampUtc now else metadata.timestampUtc
        completedRequests := summary.requestCount }
    -- the count in the metadata is the recorder's, whatever the caller filled in
    some (reportText finalMetadata summary)
  else none

end RtbEngine
