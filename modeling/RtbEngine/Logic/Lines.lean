import RtbEngine.Logic.Rows

/-!
# Lines of a campaign file

What the loader makes of a line whatever it has read before: blanks at the end
of a line are trimmed with its last field, and whether a line is accepted does
not depend on the store.
-/

namespace RtbEngine

open Lib

/-! ## Blanks -/

theorem rdropWhile_append_of_all {p : UInt8 → Bool} {bs tail : Bytes} (h : ∀ c ∈ tail, p c = true) :
    (bs ++ tail).rdropWhile p = bs.rdropWhile p := by
  unfold List.rdropWhile
  rw [List.reverse_append, List.dropWhile_append_of_pos]
  intro c hc
  exact h c (List.mem_reverse.mp hc)

theorem trimCopy_blank_append {blank bs : Bytes} (h : ∀ c ∈ blank, isBlank c = true) :
    trimCopy (blank ++ bs) = trimCopy bs := by
  rw [trimCopy, List.dropWhile_append_of_pos h]
  rfl

theorem trimCopy_append_blank {bs blank : Bytes} (h : ∀ c ∈ blank, isBlank c = true) :
    trimCopy (bs ++ blank) = trimCopy bs := by
  unfold trimCopy
  rw [List.dropWhile_append]
  split
  · -- nothing but blanks on either side
    rename_i hempty
    rw [List.isEmpty_iff] at hempty
    rw [hempty, List.dropWhile_eq_nil_iff.mpr h]
  · exact rdropWhile_append_of_all h

theorem findDelimiter_append {c : UInt8} {tail : Bytes} (h : c ∉ tail) (bs : Bytes) :
    findDelimiter c (bs ++ tail) =
      (findDelimiter c bs).map fun (before, after) => (before, after ++ tail) := by
  induction bs with
  | nil =>
      show findDelimiter c tail = none
      cases hfind : findDelimiter c tail with
      | none => rfl
      | some p =>
          obtain ⟨before, after⟩ := p
          obtain ⟨rfl, -⟩ := findDelimiter_eq_some hfind
          exact absurd (List.mem_append_right before List.mem_cons_self) h
  | cons b bs ih =>
      rw [List.cons_append]
      unfold findDelimiter
      split
      · rfl
      · rw [ih]
        cases findDelimiter c bs <;> rfl

theorem splitCsvLine_of_none {line : Bytes} (h : findDelimiter kCsvDelimiter line = none) :
    splitCsvLine line = [trimCopy line] := by
  rw [splitCsvLine_eq, splitOn_of_no_delimiter h]
  rfl

theorem splitCsvLine_of_some {line field rest : Bytes}
    (h : findDelimiter kCsvDelimiter line = some (field, rest)) :
    splitCsvLine line = trimCopy field :: splitCsvLine rest := by
  rw [splitCsvLine_eq, splitOn_of_findDelimiter h, List.map_cons, ← splitCsvLine_eq]

/-- Blanks at the end of a line do not show in its fields. -/
theorem splitCsvLine_append_blank {blank : Bytes} (h : ∀ c ∈ blank, isBlank c = true)
    (line : Bytes) : splitCsvLine (line ++ blank) = splitCsvLine line := by
  have hcomma : kCsvDelimiter ∉ blank := by
    intro hin
    exact absurd (h _ hin) (by decide)
  induction line using splitCsvLine.induct with
  | case1 line hfind =>
      have hfind' : findDelimiter kCsvDelimiter (line ++ blank) = none := by
        rw [findDelimiter_append hcomma, hfind]
        rfl
      rw [splitCsvLine_of_none hfind, splitCsvLine_of_none hfind', trimCopy_append_blank h]
  | case2 line field rest hfind ih =>
      have hfind' : findDelimiter kCsvDelimiter (line ++ blank) = some (field, rest ++ blank) := by
        rw [findDelimiter_append hcomma, hfind]
        rfl
      rw [splitCsvLine_of_some hfind, splitCsvLine_of_some hfind', ih]

/-- The start of the header. -/
def isHeader (line : Bytes) : Bool := (ascii "campaign_id,").isPrefixOf line

/-! ## Lines that are rejected -/

section

variable {extract : Bytes → Option (Double × Bytes)}

/-- Whether a field of creatives is accepted does not depend on the creatives
there are. -/
theorem parseCreativeSpecs_fst (value : Bytes) (adSlotKey : AdSlotKey)
    (creatives creatives' : List CreativeRecord) :
    (parseCreativeSpecs value adSlotKey creatives).1 =
      (parseCreativeSpecs value adSlotKey creatives').1 := by
  have h := parseCreativeTokens_eq adSlotKey value creatives 0
  have h' := parseCreativeTokens_eq adSlotKey value creatives' 0
  cases hids : listedCreatives value with
  | none =>
      rw [hids] at h h'
      simp only [parseCreativeSpecs, h, h', Bool.false_and]
  | some ids =>
      rw [hids] at h h'
      simp only at h h'
      simp only [parseCreativeSpecs, h, h']

theorem appendCampaignLine_fst (fields : List Bytes) (s s' : CampaignStoreSnapshot) :
    (appendCampaignLine extract fields s).1 = (appendCampaignLine extract fields s').1 := by
  unfold appendCampaignLine
  split
  · rename_i f0 f1 f2 f3 f4 f5 f6 f7
    split
    · simp only
      split
      · rfl
      · have hspecs := parseCreativeSpecs_fst f7 (normalizeAdSlotKey f3) s.creatives s'.creatives
        -- of both results only the flag decides whether the line is accepted
        generalize parseCreativeSpecs f7 (normalizeAdSlotKey f3) s.creatives = specs at hspecs
        generalize parseCreativeSpecs f7 (normalizeAdSlotKey f3) s'.creatives = specs' at hspecs
        obtain ⟨ok, _, _, _⟩ := specs
        obtain ⟨ok', _, _, _⟩ := specs'
        simp only at hspecs
        subst hspecs
        cases ok <;> rfl
    · rfl
  · rfl

/-- A line that `append_campaign_line` does not take. -/
def rejectsLine (extract : Bytes → Option (Double × Bytes)) (line : Bytes) : Bool :=
  !(appendCampaignLine extract (splitCsvLine line) {}).1

/-- Some line from the first `n` on is read and rejected. -/
def RejectsFrom (extract : Bytes → Option (Double × Bytes)) (n : Nat) (lines : List Bytes) : Prop :=
  ∃ i line, lines[i]? = some line ∧ isSkipped (n + i + 1) line = false ∧
    rejectsLine extract line = true

theorem not_rejectsFrom_nil (n : Nat) : ¬ RejectsFrom extract n [] := by
  rintro ⟨i, line, hline, -⟩
  cases hline

theorem rejectsFrom_cons {n : Nat} {line : Bytes} {lines : List Bytes} :
    RejectsFrom extract n (line :: lines) ↔
      (isSkipped (n + 1) line = false ∧ rejectsLine extract line = true) ∨
        RejectsFrom extract (n + 1) lines := by
  constructor
  · rintro ⟨i, l, hl, hskip, hrej⟩
    cases i with
    | zero =>
        cases hl
        exact .inl ⟨hskip, hrej⟩
    | succ i =>
        refine .inr ⟨i, l, hl, ?_, hrej⟩
        rw [show n + 1 + i + 1 = n + (i + 1) + 1 by omega]
        exact hskip
  · rintro (⟨hskip, hrej⟩ | ⟨i, l, hl, hskip, hrej⟩)
    · exact ⟨0, line, rfl, hskip, hrej⟩
    · refine ⟨i + 1, l, hl, ?_, hrej⟩
      rw [show n + (i + 1) + 1 = n + 1 + i + 1 by omega]
      exact hskip

/-- **The loader** fails where a line is rejected, and only there. -/
theorem loadLines_eq_none_iff (n : Nat) (lines : List Bytes) (s : CampaignStoreSnapshot) :
    loadLines extract n lines s = none ↔ RejectsFrom extract n lines := by
  induction lines generalizing n s with
  | nil =>
      constructor
      · nofun
      · exact fun h => absurd h (not_rejectsFrom_nil n)
  | cons line lines ih =>
      have hfst := @appendCampaignLine_fst extract (splitCsvLine line) s {}
      rw [rejectsFrom_cons]
      unfold loadLines rejectsLine
      rw [← hfst]
      cases hskip : isSkipped (n + 1) line with
      | true =>
          rw [if_pos rfl, ih]
          exact ⟨.inr, fun h => h.resolve_left fun hl => Bool.noConfusion hl.1⟩
      | false =>
          rw [if_neg (by decide)]
          cases happend : appendCampaignLine extract (splitCsvLine line) s with
          | mk ok s1 =>
              cases ok with
              | false => exact ⟨fun _ => .inl ⟨rfl, rfl⟩, fun _ => rfl⟩
              | true =>
                  show loadLines extract (n + 1) lines s1 = none ↔ _
                  rw [ih]
                  exact ⟨.inr, fun h => h.resolve_left fun hl => Bool.noConfusion hl.2⟩

/-- The message about a load that failed is about the first line that is
rejected. -/
theorem refusedLine_of_rejected {n : Nat} {lines : List Bytes} {s : CampaignStoreSnapshot}
    (h : loadLines extract n lines s = none) :
    ∃ i line, refusedLine extract n lines s = some (n + i + 1) ∧ lines[i]? = some line ∧
      isSkipped (n + i + 1) line = false ∧ rejectsLine extract line = true ∧
      ¬ RejectsFrom extract n (lines.take i) := by
  induction lines generalizing n s with
  | nil => cases h
  | cons line lines ih =>
      have hfst := @appendCampaignLine_fst extract (splitCsvLine line) s {}
      -- the line is passed, and the load stops behind it
      have hpassed : ∀ s1, loadLines extract (n + 1) lines s1 = none →
          refusedLine extract n (line :: lines) s = refusedLine extract (n + 1) lines s1 →
          ¬ (isSkipped (n + 1) line = false ∧ rejectsLine extract line = true) →
          ∃ i l, refusedLine extract n (line :: lines) s = some (n + i + 1) ∧
            (line :: lines)[i]? = some l ∧ isSkipped (n + i + 1) l = false ∧
            rejectsLine extract l = true ∧ ¬ RejectsFrom extract n ((line :: lines).take i) := by
        intro s1 hnone hsame hline
        obtain ⟨i, l, hrefused, hl, hskip, hrej, hfirst⟩ := ih hnone
        have hnumber : n + 1 + i + 1 = n + (i + 1) + 1 := by omega
        rw [hnumber] at hrefused hskip
        refine ⟨i + 1, l, hsame.trans hrefused, hl, hskip, hrej, ?_⟩
        rw [List.take_succ_cons, rejectsFrom_cons, not_or]
        exact ⟨hline, hfirst⟩
      unfold loadLines at h
      split at h
      · rename_i hskip
        refine hpassed s h ?_ fun hline => ?_
        · rw [refusedLine, if_pos hskip]
        · rw [hskip] at hline
          cases hline.1
      · rename_i hskip
        split at h
        · rename_i s1 happend
          rw [happend] at hfst
          refine hpassed s1 h ?_ fun hline => ?_
          · rw [refusedLine, if_neg hskip, happend]
          · rw [rejectsLine, ← hfst] at hline
            cases hline.2
        · rename_i s1 happend
          rw [happend] at hfst
          refine ⟨0, line, ?_, rfl, Bool.eq_false_iff.mpr hskip, ?_, ?_⟩
          · rw [refusedLine, if_neg hskip, happend]
          · rw [rejectsLine, ← hfst]
            rfl
          · rw [List.take_zero]
            exact not_rejectsFrom_nil n

end

end RtbEngine
