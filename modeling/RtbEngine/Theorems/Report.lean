import RtbEngine.Logic.Decimal

/-!
# The benchmark report as JSON

What `write_json` writes is a JSON text of the summary if nothing in the two
strings of the metadata has to be escaped, and only then.
-/

namespace RtbEngine

open Lib Lib.Json

/-! ## What the report says -/

def phaseValue (phase : BenchmarkPhaseSummary) : Value :=
  .obj [(ascii "count", .num phase.count), (ascii "min_ns", .num phase.minNs.toNat),
    (ascii "max_ns", .num phase.maxNs.toNat), (ascii "avg_ns", .num (roundedTwo phase.avgNs)),
    (ascii "p50_ns", .num phase.p50Ns.toNat), (ascii "p95_ns", .num phase.p95Ns.toNat),
    (ascii "p99_ns", .num phase.p99Ns.toNat)]

def metadataValue (timestamp : Bytes) (metadata : BenchmarkMetadata) : Value :=
  .obj [(ascii "timestamp_utc", .str timestamp), (ascii "port", .num metadata.port.toNat),
    (ascii "workers", .num metadata.workers.toInt),
    (ascii "request_limit", .num metadata.requestLimit.toNat),
    (ascii "duration_ms", .num metadata.durationMs.toNat),
    (ascii "completed_requests", .num metadata.completedRequests),
    (ascii "campaign_data_path", .str metadata.campaignDataPath)]

def phasesValue (summary : BenchmarkSummary) : Value :=
  .obj [(ascii "parse", phaseValue summary.parse),
    (ascii "normalize_validate", phaseValue summary.normalizeValidate),
    (ascii "retrieve", phaseValue summary.retrieve), (ascii "decide", phaseValue summary.decide),
    (ascii "response_build", phaseValue summary.responseBuild),
    (ascii "response_stage", phaseValue summary.responseStage),
    (ascii "total_internal", phaseValue summary.totalInternal)]

def reportValue (timestamp : Bytes) (metadata : BenchmarkMetadata) (summary : BenchmarkSummary) :
    Value :=
  .obj [(ascii "metadata", metadataValue timestamp metadata),
    (ascii "phases", phasesValue summary)]

/-! ## Lines -/

/-- The text in front of a value, with its name. -/
def Labels (label name : Bytes) : Prop := run .between label = some (.between, [.str name, .colon])

instance (label name : Bytes) : Decidable (Labels label name) :=
  inferInstanceAs (Decidable (_ = _))

section

variable {label name : Bytes} (hlabel : Labels label name)
include hlabel

/-- A number behind its name, and what stands behind it. -/
theorem Labels.number {text : Bytes} {more : List Token} (htext : NumberText text) (c : UInt8)
    (cs : Bytes) (hc : isNumberByte c = false) (hbehind : run .between (c :: cs) = some (.between, more)) :
    run .between (label ++ text ++ c :: cs) =
      some (.between, .str name :: .colon :: .num (numberValue text) :: more) := by
  rw [List.append_assoc]
  refine run_trans hlabel ?_
  rw [htext.run hc, hbehind]
  rfl

theorem Labels.nat (n : Nat) : run .between (label ++ decimal n ++ ascii ",\n") =
    some (.between, [.str name, .colon, .num n, .comma]) := by
  have h := hlabel.number (numberText_decimal n).1 44 [10] rfl rfl
  rwa [(numberValue_decimal n).1] at h

theorem Labels.natEnd (n : Nat) : run .between (label ++ decimal n ++ ascii "\n") =
    some (.between, [.str name, .colon, .num n]) := by
  have h := hlabel.number (numberText_decimal n).1 10 [] rfl rfl
  rwa [(numberValue_decimal n).1] at h

theorem Labels.int (i : Int) : run .between (label ++ signedDecimal i ++ ascii ",\n") =
    some (.between, [.str name, .colon, .num i, .comma]) := by
  have h := hlabel.number (numberText_signedDecimal i) 44 [10] rfl rfl
  rwa [numberValue_signedDecimal i] at h

theorem Labels.double (q : Double) : run .between (label ++ fixedTwo q ++ ascii ",\n") =
    some (.between, [.str name, .colon, .num (roundedTwo q), .comma]) := by
  have h := hlabel.number (numberText_fixedTwo q) 44 [10] rfl rfl
  rwa [numberValue_fixedTwo q] at h

end

/-- A phase is written as its name and its value. -/
theorem run_phaseJson {name : Bytes} (hname : isClean name = true) (phase : BenchmarkPhaseSummary) :
    run .between (phaseJson name phase) =
      some (.between, .str name :: .colon :: (phaseValue phase).tokens) := by
  obtain ⟨hbody, hself⟩ := clean_iff.mp hname
  have hhead : run .between (ascii "    \"" ++ name ++ ascii "\": \x7b\n") =
      some (.between, [.str name, .colon, .openBrace]) := by
    have hquote := run_trans (run_body hbody)
      (show run .between (ascii ": \x7b\n") = some (.between, [.colon, .openBrace]) by decide +kernel)
    rw [hself, List.append_assoc] at hquote
    rw [List.append_assoc]
    exact run_trans (show run .between (ascii "    \"") = some (.opened, []) by decide +kernel) hquote
  have hcount : Labels (ascii "      \"count\": ") (ascii "count") := by decide +kernel
  have hmin : Labels (ascii "      \"min_ns\": ") (ascii "min_ns") := by decide +kernel
  have hmax : Labels (ascii "      \"max_ns\": ") (ascii "max_ns") := by decide +kernel
  have havg : Labels (ascii "      \"avg_ns\": ") (ascii "avg_ns") := by decide +kernel
  have hp50 : Labels (ascii "      \"p50_ns\": ") (ascii "p50_ns") := by decide +kernel
  have hp95 : Labels (ascii "      \"p95_ns\": ") (ascii "p95_ns") := by decide +kernel
  have hp99 : Labels (ascii "      \"p99_ns\": ") (ascii "p99_ns") := by decide +kernel
  have hclose : run .between (ascii "    \x7d") = some (.between, [.closeBrace]) := by decide +kernel
  have h := run_trans (run_trans (run_trans (run_trans (run_trans (run_trans (run_trans
    (run_trans hhead (hcount.nat phase.count)) (hmin.nat phase.minNs.toNat))
    (hmax.nat phase.maxNs.toNat)) (havg.double phase.avgNs)) (hp50.nat phase.p50Ns.toNat))
    (hp95.nat phase.p95Ns.toNat)) (hp99.natEnd phase.p99Ns.toNat)) hclose
  refine h.trans ?_
  simp only [phaseValue, Value.tokens, moreMembers, List.cons_append, List.nil_append]

/-! ## The three parts -/

/-- Up to the time. -/
def reportFront : Bytes :=
  ascii "\x7b\n" ++ ascii "  \"metadata\": \x7b\n" ++ ascii "    \"timestamp_utc\": \""

/-- From the time to the path. -/
def reportMiddle (metadata : BenchmarkMetadata) : Bytes :=
  (ascii "    \"port\": " ++ decimal metadata.port.toNat ++ ascii ",\n") ++
    (ascii "    \"workers\": " ++ signedDecimal metadata.workers.toInt ++ ascii ",\n") ++
    (ascii "    \"request_limit\": " ++ decimal metadata.requestLimit.toNat ++ ascii ",\n") ++
    (ascii "    \"duration_ms\": " ++ decimal metadata.durationMs.toNat ++ ascii ",\n") ++
    (ascii "    \"completed_requests\": " ++ decimal metadata.completedRequests ++ ascii ",\n") ++
    ascii "    \"campaign_data_path\": \""

/-- From the path on. -/
def reportBack (summary : BenchmarkSummary) : Bytes :=
  ascii "  \x7d,\n" ++ ascii "  \"phases\": \x7b\n" ++
    (phaseJson (ascii "parse") summary.parse ++ ascii ",\n") ++
    (phaseJson (ascii "normalize_validate") summary.normalizeValidate ++ ascii ",\n") ++
    (phaseJson (ascii "retrieve") summary.retrieve ++ ascii ",\n") ++
    (phaseJson (ascii "decide") summary.decide ++ ascii ",\n") ++
    (phaseJson (ascii "response_build") summary.responseBuild ++ ascii ",\n") ++
    (phaseJson (ascii "response_stage") summary.responseStage ++ ascii ",\n") ++
    (phaseJson (ascii "total_internal") summary.totalInternal ++ ascii "\n") ++
    ascii "  \x7d\n" ++ ascii "\x7d\n"

theorem reportText_eq (metadata : BenchmarkMetadata) (summary : BenchmarkSummary) :
    reportText metadata summary = reportFront ++ (metadata.timestampUtc ++ (ascii "\",\n" ++
      (reportMiddle metadata ++ (metadata.campaignDataPath ++ (ascii "\"\n" ++
        reportBack summary))))) := by
  unfold reportText reportFront reportMiddle reportBack
  simp only [List.append_assoc]

/-- The tokens of the members between the strings, as the value has them. -/
def middleTokens (metadata : BenchmarkMetadata) : List Token :=
  [.comma, .str (ascii "port"), .colon, .num metadata.port.toNat,
    .comma, .str (ascii "workers"), .colon, .num metadata.workers.toInt,
    .comma, .str (ascii "request_limit"), .colon, .num metadata.requestLimit.toNat,
    .comma, .str (ascii "duration_ms"), .colon, .num metadata.durationMs.toNat,
    .comma, .str (ascii "completed_requests"), .colon, .num metadata.completedRequests,
    .comma, .str (ascii "campaign_data_path"), .colon]

def frontTokens : List Token :=
  [.openBrace, .str (ascii "metadata"), .colon, .openBrace, .str (ascii "timestamp_utc"), .colon]

def backTokens (summary : BenchmarkSummary) : List Token :=
  .closeBrace :: .comma :: .str (ascii "phases") :: .colon ::
    ((phasesValue summary).tokens ++ [.closeBrace])

theorem tokens_reportValue (timestamp : Bytes) (metadata : BenchmarkMetadata)
    (summary : BenchmarkSummary) : (reportValue timestamp metadata summary).tokens =
      frontTokens ++ .str timestamp :: (middleTokens metadata ++
        .str metadata.campaignDataPath :: backTokens summary) := by
  simp only [reportValue, metadataValue, frontTokens, middleTokens, backTokens, Value.tokens,
    moreMembers, List.cons_append, List.nil_append]

theorem run_reportFront : run .between reportFront = some (.opened, frontTokens) := by
  decide +kernel

theorem run_reportMiddle (metadata : BenchmarkMetadata) :
    run .between ([44, 10] ++ reportMiddle metadata) = some (.opened, middleTokens metadata) := by
  have hport : Labels (ascii "    \"port\": ") (ascii "port") := by decide +kernel
  have hworkers : Labels (ascii "    \"workers\": ") (ascii "workers") := by decide +kernel
  have hlimit : Labels (ascii "    \"request_limit\": ") (ascii "request_limit") := by
    decide +kernel
  have hduration : Labels (ascii "    \"duration_ms\": ") (ascii "duration_ms") := by
    decide +kernel
  have hcompleted : Labels (ascii "    \"completed_requests\": ") (ascii "completed_requests") := by
    decide +kernel
  have hpath : run .between (ascii "    \"campaign_data_path\": \"") =
      some (.opened, [.str (ascii "campaign_data_path"), .colon]) := by
    decide +kernel
  have hcomma : run .between [44, 10] = some (.between, [.comma]) := by decide +kernel
  have h := run_trans hcomma (run_trans (run_trans (run_trans (run_trans (run_trans
    (hport.nat metadata.port.toNat) (hworkers.int metadata.workers.toInt))
    (hlimit.nat metadata.requestLimit.toNat)) (hduration.nat metadata.durationMs.toNat))
    (hcompleted.nat metadata.completedRequests)) hpath)
  refine h.trans ?_
  simp only [middleTokens, List.cons_append, List.nil_append]

theorem run_phaseComma {name : Bytes} (hname : isClean name = true)
    (phase : BenchmarkPhaseSummary) : run .between (phaseJson name phase ++ ascii ",\n") =
      some (.between, .str name :: .colon :: ((phaseValue phase).tokens ++ [.comma])) :=
  run_trans (run_phaseJson hname phase)
    (show run .between (ascii ",\n") = some (.between, [.comma]) by decide +kernel)

theorem run_reportBack (summary : BenchmarkSummary) :
    run .between ([10] ++ reportBack summary) = some (.between, backTokens summary) := by
  have hopen : run .between ([10] ++ (ascii "  \x7d,\n" ++ ascii "  \"phases\": \x7b\n")) =
      some (.between, [.closeBrace, .comma, .str (ascii "phases"), .colon, .openBrace]) := by
    decide +kernel
  have hlast := run_trans (run_phaseJson (show isClean (ascii "total_internal") = true by decide)
    summary.totalInternal) (show run .between (ascii "\n") = some (.between, []) by decide +kernel)
  have hend : run .between (ascii "  \x7d\n" ++ ascii "\x7d\n") =
      some (.between, [.closeBrace, .closeBrace]) := by
    decide +kernel
  have h := run_trans (run_trans (run_trans (run_trans (run_trans (run_trans (run_trans (run_trans
    hopen (run_phaseComma (show isClean (ascii "parse") = true by decide) summary.parse))
    (run_phaseComma (show isClean (ascii "normalize_validate") = true by decide)
      summary.normalizeValidate))
    (run_phaseComma (show isClean (ascii "retrieve") = true by decide) summary.retrieve))
    (run_phaseComma (show isClean (ascii "decide") = true by decide) summary.decide))
    (run_phaseComma (show isClean (ascii "response_build") = true by decide) summary.responseBuild))
    (run_phaseComma (show isClean (ascii "response_stage") = true by decide) summary.responseStage))
    hlast) hend
  have htext : [10] ++ reportBack summary =
      [10] ++ (ascii "  \x7d,\n" ++ ascii "  \"phases\": \x7b\n") ++
        (phaseJson (ascii "parse") summary.parse ++ ascii ",\n") ++
        (phaseJson (ascii "normalize_validate") summary.normalizeValidate ++ ascii ",\n") ++
        (phaseJson (ascii "retrieve") summary.retrieve ++ ascii ",\n") ++
        (phaseJson (ascii "decide") summary.decide ++ ascii ",\n") ++
        (phaseJson (ascii "response_build") summary.responseBuild ++ ascii ",\n") ++
        (phaseJson (ascii "response_stage") summary.responseStage ++ ascii ",\n") ++
        (phaseJson (ascii "total_internal") summary.totalInternal ++ ascii "\n") ++
        (ascii "  \x7d\n" ++ ascii "\x7d\n") := by
    unfold reportBack
    simp only [List.append_assoc]
  rw [htext]
  refine h.trans ?_
  simp only [backTokens, phasesValue, Value.tokens, moreMembers, List.cons_append,
    List.nil_append, List.append_assoc]

/-! ## The report -/

/-- The text reads as the report, whatever the time in it, and as nothing else. -/
def ReadsAsReport (text : Bytes) (metadata : BenchmarkMetadata) (summary : BenchmarkSummary) :
    Prop :=
  ∃ timestamp, Reads text (reportValue timestamp metadata summary) ∧
    ∀ v, Reads text v → v = reportValue timestamp metadata summary

/-- The report reads back if and only if the time may stand between quotes and
the path stands for itself there. -/
theorem readsAsReport_iff (metadata : BenchmarkMetadata) (summary : BenchmarkSummary) :
    ReadsAsReport (reportText metadata summary) metadata summary ↔
      isStringBody metadata.timestampUtc = true ∧ isClean metadata.campaignDataPath = true := by
  have hcomma : ascii "\",\n" = 34 :: [44, 10] := by decide
  have hnewline : ascii "\"\n" = 34 :: [10] := by decide
  constructor
  · rintro ⟨timestamp, hreads, -⟩
    rw [Reads, lex, Option.bind_eq_some_iff] at hreads
    obtain ⟨⟨q, out⟩, hrun, hfinish⟩ := hreads
    rw [reportText_eq, hcomma, hnewline] at hrun
    -- the machine is in step again behind each of the two strings
    obtain ⟨out1, hrun1, rfl⟩ := run_append_cancel run_reportFront hrun
    obtain ⟨raw1, silent1, out2, rfl, hrun2, hbody1⟩ :=
      @run_between_quotes _ [44, 10] _ _ _ (fun _ => rfl) hrun1
    rw [← List.append_assoc] at hrun2
    obtain ⟨out3, hrun3, rfl⟩ := run_append_cancel (run_reportMiddle metadata) hrun2
    obtain ⟨raw2, silent2, out4, rfl, hrun4, hbody2⟩ :=
      @run_between_quotes _ [10] _ _ _ (fun _ => rfl) hrun3
    rw [run_reportBack] at hrun4
    obtain ⟨rfl, rfl⟩ := Prod.mk.inj (Option.some.inj hrun4)
    simp only [finish, Option.map_some, List.append_nil, Option.some.injEq] at hfinish
    rw [tokens_reportValue] at hfinish
    -- so nothing else was emitted, as there are no more tokens than that
    have hlength := congrArg List.length hfinish
    simp only [List.length_append, List.length_cons] at hlength
    have hsilent1 : silent1 = [] := List.length_eq_zero_iff.mp (by omega)
    have hsilent2 : silent2 = [] := List.length_eq_zero_iff.mp (by omega)
    obtain ⟨hbody, rfl⟩ := hbody1 hsilent1
    obtain ⟨hpath, rfl⟩ := hbody2 hsilent2
    refine ⟨hbody, clean_iff.mpr ⟨hpath, ?_⟩⟩
    rw [hsilent1, hsilent2, List.append_cancel_left_eq, List.nil_append, List.nil_append,
      List.cons.injEq, List.append_cancel_left_eq, List.cons.injEq] at hfinish
    exact Token.str.inj hfinish.2.1
  · rintro ⟨hbody, hclean⟩
    obtain ⟨hpath, hself⟩ := clean_iff.mp hclean
    have hreads : Reads (reportText metadata summary)
        (reportValue (unescape metadata.timestampUtc) metadata summary) := by
      rw [Reads, reportText_eq, hcomma, hnewline, tokens_reportValue]
      apply lex_of_run
      have htail := run_trans (run_body hpath) (run_reportBack summary)
      rw [hself] at htail
      have hmiddle := run_trans (run_body hbody) (run_trans (run_reportMiddle metadata) htail)
      have h := run_trans run_reportFront hmiddle
      simp only [List.append_assoc, List.cons_append, List.nil_append] at h ⊢
      exact h
    exact ⟨_, hreads, fun v hv => hv.unique hreads⟩

/-- The time of the clock has nothing to escape. -/
theorem isStringBody_timestampUtc (now : UtcTime) : isStringBody (timestampUtc now) = true := by
  have hdigit : ∀ c, isDigit c = true → 32 ≤ c ∧ c < 0x80 ∧ c ≠ 34 ∧ c ≠ 92 := by
    intro c hc
    unfold isDigit at hc
    rw [Bool.and_eq_true, decide_eq_true_iff, decide_eq_true_iff] at hc
    refine ⟨UInt8.le_trans (by decide) hc.1, UInt8.lt_of_le_of_lt hc.2 (by decide), ?_, ?_⟩
    · rintro rfl
      exact absurd hc.1 (by decide)
    · rintro rfl
      exact absurd hc.2 (by decide)
  have htwo : ∀ n : Fin 100, ∀ c ∈ twoDigits n, 32 ≤ c ∧ c < 0x80 ∧ c ≠ 34 ∧ c ≠ 92 := by
    intro n c hc
    have htext : twoDigits n = [digitByte (n / 10), digitByte (n % 10)] := rfl
    rw [htext, List.mem_cons, List.mem_singleton] at hc
    rcases hc with rfl | rfl
    · exact hdigit _ (isDigit_digitByte (by omega))
    · exact hdigit _ (isDigit_digitByte (by omega))
  apply isStringBody_of_clean
  apply isClean_of_ascii
  intro c hc
  unfold timestampUtc at hc
  simp only [List.mem_append] at hc
  rcases hc with ((((((((((hc | hc) | hc) | hc) | hc) | hc) | hc) | hc) | hc) | hc) | hc) | hc
  · exact hdigit c (isDigit_of_mem_decimal hc)
  · revert c
    decide +kernel
  · exact htwo _ c hc
  · revert c
    decide +kernel
  · exact htwo _ c hc
  · revert c
    decide +kernel
  · exact htwo _ c hc
  · revert c
    decide +kernel
  · exact htwo _ c hc
  · revert c
    decide +kernel
  · exact htwo _ c hc
  · revert c
    decide +kernel

/-- **The report** is JSON that preserves what it was written from if and only
if the path needs no escape, and a time that was given may stand in a string. -/
theorem write_json_iff (fl lfl : Double → Double) (now : UtcTime) (r : BenchmarkRecorder)
    (metadata : BenchmarkMetadata) :
    (∃ text, r.writeJson fl lfl now true metadata = some text ∧
      ReadsAsReport text { metadata with completedRequests := r.requests.length }
        (r.summarize fl lfl)) ↔
      isStringBody metadata.timestampUtc = true ∧ isClean metadata.campaignDataPath = true := by
  obtain ⟨stamp, hstamp⟩ : ∃ stamp, stamp =
      if metadata.timestampUtc.isEmpty then timestampUtc now else metadata.timestampUtc := ⟨_, rfl⟩
  have hwrite : r.writeJson fl lfl now true metadata =
      some (reportText { metadata with timestampUtc := stamp, completedRequests := r.requests.length }
        (r.summarize fl lfl)) := by
    rw [hstamp]
    rfl
  have hiff := readsAsReport_iff
    { metadata with timestampUtc := stamp, completedRequests := r.requests.length }
    (r.summarize fl lfl)
  have hbody : isStringBody stamp = isStringBody metadata.timestampUtc := by
    rw [hstamp]
    split
    · rename_i hempty
      rw [List.isEmpty_iff.mp hempty, isStringBody_timestampUtc]
      rfl
    · rfl
  simp only [hbody] at hiff
  rw [← hiff, hwrite]
  constructor
  · rintro ⟨text, htext, hreads⟩
    rw [← Option.some.inj htext] at hreads
    exact hreads
  · exact fun hreads => ⟨_, rfl, hreads⟩

/-- The report preserves what it was written from, whatever that is. -/
def ReportsPreserve : Prop :=
  ∀ fl lfl now (r : BenchmarkRecorder) (metadata : BenchmarkMetadata),
    ∃ text, r.writeJson fl lfl now true metadata = some text ∧
      ReadsAsReport text { metadata with completedRequests := r.requests.length }
        (r.summarize fl lfl)

/-- A path with a quote in it does not read back. -/
theorem not_reportsPreserve : ¬ ReportsPreserve := by
  intro hpreserve
  obtain ⟨text, htext, hreads⟩ := hpreserve id id ⟨2026, 4, 27, 0, 0, 0⟩ {}
    { campaignDataPath := ascii "a\"b" }
  rw [← Option.some.inj htext] at hreads
  obtain ⟨-, hclean⟩ := (readsAsReport_iff
    { timestampUtc := timestampUtc ⟨2026, 4, 27, 0, 0, 0⟩, campaignDataPath := ascii "a\"b" }
    (({} : BenchmarkRecorder).summarize id id)).mp hreads
  have hquote : isClean (ascii "a\"b") = false := by decide
  rw [hquote] at hclean
  cases hclean

end RtbEngine
