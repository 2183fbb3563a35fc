import RtbEngine.Logic.Decimal

/-!
# Campaign rows

What a campaign file says, apart from how the store keeps it: a list of rows,
each with its targeting texts and the ids it lists. A row that could not be
loaded cannot be built.

* `splitCsvLine_eq`, `getLines_eq` — the scanners as splits at a delimiter;
* `appendCampaignLine_true`, `appendCampaignLine_of_row` — the line parser
  accepts the rows;
* `loadCampaignStoreSnapshot_some`, `loadCampaignStoreSnapshot_of_rows` — the
  loader adds them one by one.
-/

namespace RtbEngine

open Lib

/-! ## Scanners -/

theorem findDelimiter_eq_some {c : UInt8} {bs before after : Bytes}
    (h : findDelimiter c bs = some (before, after)) : bs = before ++ c :: after ∧ c ∉ before := by
  induction bs generalizing before with
  | nil => cases h
  | cons b bs ih =>
      unfold findDelimiter at h
      split at h
      · rename_i hb
        cases h
        exact ⟨by rw [hb]; rfl, List.not_mem_nil⟩
      · rename_i hb
        cases hf : findDelimiter c bs with
        | none => simp [hf] at h
        | some p =>
            simp only [hf, Option.map_some, Option.some.injEq, Prod.mk.injEq] at h
            obtain ⟨rfl, rfl⟩ := h
            obtain ⟨heq, hmem⟩ := ih hf
            refine ⟨by rw [List.cons_append, ← heq], ?_⟩
            rw [List.mem_cons]
            rintro (rfl | hin)
            · exact hb rfl
            · exact hmem hin

theorem findDelimiter_eq_none {c : UInt8} {bs : Bytes} (h : findDelimiter c bs = none) :
    c ∉ bs := by
  induction bs with
  | nil => exact List.not_mem_nil
  | cons b bs ih =>
      unfold findDelimiter at h
      split at h
      · cases h
      · rename_i hb
        rw [List.mem_cons]
        rintro (rfl | hin)
        · exact hb rfl
        · exact ih (Option.map_eq_none_iff.mp h) hin

/-- What stands before the first delimiter is the first part of the split. -/
theorem splitOn_of_findDelimiter {c : UInt8} {bs before after : Bytes}
    (h : findDelimiter c bs = some (before, after)) : bs.splitOn c = before :: after.splitOn c := by
  obtain ⟨rfl, hmem⟩ := findDelimiter_eq_some h
  exact List.splitOn_append_cons_self_of_not_mem hmem _

theorem splitOn_of_no_delimiter {c : UInt8} {bs : Bytes} (h : findDelimiter c bs = none) :
    bs.splitOn c = [bs] := List.splitOn_eq_singleton (findDelimiter_eq_none h)

theorem splitCsvLine_eq (line : Bytes) :
    splitCsvLine line = (line.splitOn kCsvDelimiter).map trimCopy := by
  induction line using splitCsvLine.induct with
  | case1 line h =>
      rw [splitCsvLine, splitOn_of_no_delimiter h]
      split
      · rfl
      · rename_i h'
        rw [h] at h'
        cases h'
  | case2 line field rest h ih =>
      rw [splitCsvLine, splitOn_of_findDelimiter h, List.map_cons, ← ih]
      split
      · rename_i h'
        rw [h] at h'
        cases h'
      · rename_i field' rest' h'
        rw [h] at h'
        cases h'
        rfl

/-- A last line that is empty is not one. -/
def dropLastEmpty (lines : List Bytes) : List Bytes :=
  if lines.getLast? = some [] then lines.dropLast else lines

theorem getLines_eq (text : Bytes) : getLines text = dropLastEmpty (text.splitOn 10) := by
  induction text using getLines.induct with
  | case1 text h =>
      rw [List.isEmpty_iff] at h
      subst h
      rw [getLines]
      rfl
  | case2 text hne h =>
      have hnil : text ≠ [] := fun he => hne (by rw [he]; rfl)
      rw [getLines, if_neg hne, splitOn_of_no_delimiter h, dropLastEmpty, if_neg (by simpa using hnil)]
      split
      · rfl
      · rename_i h'
        rw [h] at h'
        cases h'
  | case3 text hne line rest h ih =>
      -- whether the last line counts is decided behind the newline
      have hcons : dropLastEmpty (line :: rest.splitOn 10) = line :: dropLastEmpty (rest.splitOn 10) := by
        have hrest := List.splitOn_ne_nil 10 rest
        unfold dropLastEmpty
        rw [List.getLast?_cons_of_ne_nil hrest, List.dropLast_cons_of_ne_nil hrest]
        split <;> rfl
      rw [getLines, if_neg hne, splitOn_of_findDelimiter h, hcons, ← ih]
      split
      · rename_i h'
        rw [h] at h'
        cases h'
      · rename_i line' rest' h'
        rw [h] at h'
        cases h'
        rfl

/-! ## Rows -/

/-- One row, with the texts as they stand in the file. -/
structure CampaignRow where
  campaignId : UInt64
  country : Bytes
  deviceType : Bytes
  adSlot : Bytes
  valuePerAction : Double
  aggressiveness : Double
  active : Bool
  creativeIds : List UInt64
  countryKnown : (normalizeCountryKey country).value ≠ 0
  deviceTypeKnown : normalizeDeviceTypeKey deviceType ≠ .unknown
  adSlotKnown : (normalizeAdSlotKey adSlot).value ≠ 0
  offersCreative : creativeIds ≠ []

/-- The ids a creative field lists; empty places are passed over. -/
def listedCreatives (field : Bytes) : Option (List UInt64) :=
  ((field.splitOn kCreativeDelimiter).filter fun token => !token.isEmpty).mapM decimalNumber

/-- Read with `parse_u64`. -/
theorem listedCreatives_eq (field : Bytes) : listedCreatives field =
    ((field.splitOn kCreativeDelimiter).filter fun token => !token.isEmpty).mapM parseU64 := by
  rw [parseU64_eq_decimalNumber, listedCreatives]

def parseRow (extract : Bytes → Option (Double × Bytes)) (fields : List Bytes) :
    Option CampaignRow :=
  match fields with
  | [f0, f1, f2, f3, f4, f5, f6, f7] =>
      match decimalNumber f0, parseDoubleValue extract f4, parseDoubleValue extract f5,
          parseBoolValue f6, listedCreatives f7 with
      | some campaignId, some valuePerAction, some aggressiveness, some active,
          some creativeIds =>
          if h : (normalizeCountryKey f1).value ≠ 0 ∧ normalizeDeviceTypeKey f2 ≠ .unknown ∧
              (normalizeAdSlotKey f3).value ≠ 0 ∧ creativeIds ≠ [] then
            some
              { campaignId, country := f1, deviceType := f2, adSlot := f3, valuePerAction
                aggressiveness, active, creativeIds, countryKnown := h.1
                deviceTypeKnown := h.2.1, adSlotKnown := h.2.2.1, offersCreative := h.2.2.2 }
          else none
      | _, _, _, _, _ => none
  | _ => none

/-- Eight fields that read make a row, if its keys are known and it lists a
creative. -/
theorem parseRow_of_fields {extract : Bytes → Option (Double × Bytes)}
    {f0 f1 f2 f3 f4 f5 f6 f7 : Bytes} {campaignId : UInt64} {valuePerAction aggressiveness : Double}
    {active : Bool} {creativeIds : List UInt64} (h0 : parseU64 f0 = some campaignId)
    (h4 : parseDoubleValue extract f4 = some valuePerAction)
    (h5 : parseDoubleValue extract f5 = some aggressiveness)
    (h6 : parseBoolValue f6 = some active) (h7 : listedCreatives f7 = some creativeIds)
    (hcountry : (normalizeCountryKey f1).value ≠ 0)
    (hdevice : normalizeDeviceTypeKey f2 ≠ .unknown) (hslot : (normalizeAdSlotKey f3).value ≠ 0)
    (hne : creativeIds ≠ []) :
    parseRow extract [f0, f1, f2, f3, f4, f5, f6, f7] =
      some
        { campaignId, country := f1, deviceType := f2, adSlot := f3, valuePerAction
          aggressiveness, active, creativeIds, countryKnown := hcountry
          deviceTypeKnown := hdevice, adSlotKnown := hslot, offersCreative := hne } := by
  rw [parseU64_eq_decimalNumber] at h0
  simp only [parseRow, h0, h4, h5, h6, h7]
  rw [dif_pos ⟨hcountry, hdevice, hslot, hne⟩]

/-- The creatives of a row carry the key of its slot. -/
def CampaignRow.creatives (row : CampaignRow) : List CreativeRecord :=
  row.creativeIds.map fun creativeId => { creativeId, adSlotKey := normalizeAdSlotKey row.adSlot }

/-- The record of a row whose creatives start at `offset`. -/
def CampaignRow.record (row : CampaignRow) (offset : Nat) : CampaignRecord :=
  { campaignId := row.campaignId
    countryKey := normalizeCountryKey row.country
    deviceTypeKey := normalizeDeviceTypeKey row.deviceType
    adSlotKey := normalizeAdSlotKey row.adSlot
    valuePerAction := row.valuePerAction
    aggressiveness := row.aggressiveness
    creativeOffset := UInt32.ofNat offset
    creativeCount := UInt32.ofNat row.creativeIds.length
    active := row.active }

/-- The store with one more row. -/
def CampaignStoreSnapshot.addRow (s : CampaignStoreSnapshot) (row : CampaignRow) :
    CampaignStoreSnapshot :=
  { campaigns := s.campaigns ++ [row.record s.creatives.length]
    creatives := s.creatives ++ row.creatives
    campaignsByCountry := pushIndex s.campaignsByCountry (normalizeCountryKey row.country).value
      (UInt32.ofNat s.campaigns.length)
    campaignsByAdSlot := pushIndex s.campaignsByAdSlot (normalizeAdSlotKey row.adSlot).value
      (UInt32.ofNat s.campaigns.length) }

/-- The rows of the lines behind the first `n`. -/
def rowsFrom (extract : Bytes → Option (Double × Bytes)) : Nat → List Bytes →
    Option (List CampaignRow)
  | _, [] => some []
  | n, line :: lines =>
      if isSkipped (n + 1) line then rowsFrom extract (n + 1) lines
      else
        match parseRow extract (splitCsvLine line), rowsFrom extract (n + 1) lines with
        | some row, some rows => some (row :: rows)
        | _, _ => none

/-- The rows of a file. -/
def campaignRows (extract : Bytes → Option (Double × Bytes)) (text : Bytes) :
    Option (List CampaignRow) := rowsFrom extract 0 (getLines text)

/-! ## The line parser -/

theorem listedCreatives_nil : listedCreatives [] = some [] := rfl

/-- The token in front of a delimiter. -/
theorem listedCreatives_of_findDelimiter {value token rest : Bytes}
    (h : findDelimiter kCreativeDelimiter value = some (token, rest)) :
    listedCreatives value =
      if token.isEmpty then listedCreatives rest
      else (parseU64 token).bind fun id => (listedCreatives rest).map (id :: ·) := by
  rw [listedCreatives_eq, listedCreatives_eq, splitOn_of_findDelimiter h]
  cases htoken : token.isEmpty with
  | true => simp [htoken]
  | false =>
      simp only [List.filter_cons, htoken, Bool.not_false, if_true, List.mapM_cons]
      cases parseU64 token with
      | none => rfl
      | some id =>
          cases ((rest.splitOn kCreativeDelimiter).filter fun token => !token.isEmpty).mapM
            parseU64 <;> rfl

/-- The only token. -/
theorem listedCreatives_of_no_delimiter {value : Bytes} (hne : value.isEmpty = false)
    (h : findDelimiter kCreativeDelimiter value = none) :
    listedCreatives value = (parseU64 value).map fun id => [id] := by
  rw [listedCreatives_eq, splitOn_of_no_delimiter h]
  simp only [List.filter_cons, hne, Bool.not_false, if_true, List.filter_nil, List.mapM_cons,
    List.mapM_nil]
  cases parseU64 value <;> rfl

/-- One round of the token loop: it goes on unless the token is no number. -/
theorem parseCreativeTokens_of_findDelimiter {adSlotKey : AdSlotKey} {value token rest : Bytes}
    {creatives : List CreativeRecord} {count : UInt32} (hne : ¬ value.isEmpty = true)
    (h : findDelimiter kCreativeDelimiter value = some (token, rest)) :
    parseCreativeTokens adSlotKey value creatives count =
      match pushCreative adSlotKey token creatives count with
      | (false, creatives, count) => (false, creatives, count)
      | (true, creatives, count) => parseCreativeTokens adSlotKey rest creatives count := by
  rw [parseCreativeTokens, if_neg hne]
  split
  · rename_i h'
    rw [h] at h'
    cases h'
  · rename_i token' rest' h'
    rw [h] at h'
    cases h'
    rfl

/-- The token loop reads the listed ids, or fails where one is no number. -/
theorem parseCreativeTokens_eq (adSlotKey : AdSlotKey) (value : Bytes)
    (creatives : List CreativeRecord) (count : UInt32) :
    match listedCreatives value with
    | some ids => parseCreativeTokens adSlotKey value creatives count =
        (true, creatives ++ ids.map (fun creativeId => { creativeId, adSlotKey }),
          count + UInt32.ofNat ids.length)
    | none => (parseCreativeTokens adSlotKey value creatives count).1 = false := by
  induction value, creatives, count using parseCreativeTokens.induct adSlotKey with
  | case1 value creatives count hempty =>
      rw [List.isEmpty_iff] at hempty
      subst hempty
      rw [listedCreatives_nil]
      simp [parseCreativeTokens]
  | case2 value creatives count hempty hfind =>
      have hne : value.isEmpty = false := by simpa using hempty
      have hstep : parseCreativeTokens adSlotKey value creatives count =
          pushCreative adSlotKey value creatives count := by
        rw [parseCreativeTokens, if_neg hempty]
        split
        · rfl
        · rename_i h'
          rw [hfind] at h'
          cases h'
      rw [hstep, listedCreatives_of_no_delimiter hne hfind]
      unfold pushCreative
      rw [if_neg hempty]
      cases parseU64 value with
      | none => rfl
      | some id => rfl
  | case3 value creatives count hempty token rest hfind creatives' count' hpush =>
      have hstep : parseCreativeTokens adSlotKey value creatives count =
          (false, creatives', count') := by
        rw [parseCreativeTokens_of_findDelimiter hempty hfind, hpush]
      rw [hstep, listedCreatives_of_findDelimiter hfind]
      unfold pushCreative at hpush
      split at hpush
      · cases hpush
      · rename_i htoken
        rw [if_neg htoken]
        cases hid : parseU64 token with
        | none => rfl
        | some id => simp [hid] at hpush
  | case4 value creatives count hempty token rest hfind creatives' count' hpush ih =>
      have hstep : parseCreativeTokens adSlotKey value creatives count =
          parseCreativeTokens adSlotKey rest creatives' count' := by
        rw [parseCreativeTokens_of_findDelimiter hempty hfind, hpush]
      rw [hstep, listedCreatives_of_findDelimiter hfind]
      unfold pushCreative at hpush
      split at hpush
      · rename_i htoken
        rw [if_pos htoken]
        cases hpush
        exact ih
      · rename_i htoken
        rw [if_neg htoken]
        cases hid : parseU64 token with
        | none => simp [hid] at hpush
        | some id =>
            simp only [hid, Prod.mk.injEq, true_and] at hpush
            obtain ⟨rfl, rfl⟩ := hpush
            cases hrest : listedCreatives rest with
            | none =>
                rw [hrest] at ih
                exact ih
            | some ids =>
                rw [hrest] at ih
                simp only [Option.bind_some, Option.map_some]
                rw [ih]
                simp only [List.append_assoc, List.singleton_append, List.map_cons,
                  List.length_cons, Prod.mk.injEq, true_and]
                -- the count wraps as the number of ids does
                rw [UInt32.add_assoc, UInt32.add_comm 1, UInt32.ofNat_add]
                rfl

/-- A field of creatives that is accepted lists some. -/
theorem parseCreativeSpecs_true {value : Bytes} {adSlotKey : AdSlotKey}
    {creatives creatives' : List CreativeRecord} {offset count : UInt32}
    (h : parseCreativeSpecs value adSlotKey creatives = (true, creatives', offset, count)) :
    ∃ ids, listedCreatives value = some ids ∧ ids ≠ [] ∧
      creatives' = creatives ++ ids.map (fun creativeId => ({ creativeId, adSlotKey } : CreativeRecord)) ∧
      offset = UInt32.ofNat creatives.length ∧ count = UInt32.ofNat ids.length := by
  have htokens := parseCreativeTokens_eq adSlotKey value creatives 0
  unfold parseCreativeSpecs at h
  simp only [Prod.mk.injEq, Bool.and_eq_true, decide_eq_true_eq] at h
  obtain ⟨⟨hfinished, hcount⟩, hcreatives, hoffset, hcount'⟩ := h
  cases hids : listedCreatives value with
  | none =>
      rw [hids] at htokens
      rw [htokens] at hfinished
      cases hfinished
  | some ids =>
      rw [hids] at htokens
      simp only at htokens
      rw [htokens] at hcount hcreatives hcount'
      refine ⟨ids, rfl, ?_, hcreatives.symm, hoffset.symm, by rw [← hcount', UInt32.zero_add]⟩
      rintro rfl
      exact absurd hcount (by simp)

theorem parseCreativeSpecs_of_listed {value : Bytes} {adSlotKey : AdSlotKey}
    {creatives : List CreativeRecord} {ids : List UInt64} (h : listedCreatives value = some ids)
    (hcount : 0 < UInt32.ofNat ids.length) :
    parseCreativeSpecs value adSlotKey creatives =
      (true, creatives ++ ids.map (fun creativeId => ({ creativeId, adSlotKey } : CreativeRecord)),
        UInt32.ofNat creatives.length, UInt32.ofNat ids.length) := by
  have htokens := parseCreativeTokens_eq adSlotKey value creatives 0
  rw [h] at htokens
  simp only at htokens
  unfold parseCreativeSpecs
  rw [htokens]
  simp [hcount]

/-- **One line.** What is accepted is a row, and it is added to the store. -/
theorem appendCampaignLine_true {extract : Bytes → Option (Double × Bytes)} {fields : List Bytes}
    {s s' : CampaignStoreSnapshot} (h : appendCampaignLine extract fields s = (true, s')) :
    ∃ row, parseRow extract fields = some row ∧ s' = s.addRow row := by
  unfold appendCampaignLine at h
  split at h
  · rename_i f0 f1 f2 f3 f4 f5 f6 f7
    split at h
    · rename_i campaignId valuePerAction aggressiveness active h0 h4 h5 h6
      simp only at h
      split at h
      · cases h
      · rename_i hkeys
        split at h
        · cases h
        · rename_i creatives offset count hspecs
          obtain ⟨ids, hids, hne, rfl, rfl, rfl⟩ := parseCreativeSpecs_true hspecs
          have hvalid : (normalizeCountryKey f1).value ≠ 0 ∧
              normalizeDeviceTypeKey f2 ≠ .unknown ∧ (normalizeAdSlotKey f3).value ≠ 0 ∧
              ids ≠ [] := by
            simp only [not_or] at hkeys
            exact ⟨hkeys.1, hkeys.2.1, hkeys.2.2, hne⟩
          rw [parseU64_eq_decimalNumber] at h0
          simp only [parseRow, h0, h4, h5, h6, hids, dif_pos hvalid]
          refine ⟨_, rfl, ?_⟩
          cases h
          rfl
    · cases h
  · cases h

/-- A row is accepted, provided that the count of its creatives does not come
out as 0. -/
theorem appendCampaignLine_of_row {extract : Bytes → Option (Double × Bytes)}
    {fields : List Bytes} {s : CampaignStoreSnapshot} {row : CampaignRow}
    (h : parseRow extract fields = some row) (hcount : 0 < UInt32.ofNat row.creativeIds.length) :
    appendCampaignLine extract fields s = (true, s.addRow row) := by
  unfold parseRow at h
  split at h
  · rename_i f0 f1 f2 f3 f4 f5 f6 f7
    split at h
    · rename_i campaignId valuePerAction aggressiveness active ids h0 h4 h5 h6 hids
      split at h
      · rename_i hvalid
        cases h
        have hkeys : ¬ ((normalizeCountryKey f1).value = 0 ∨
            normalizeDeviceTypeKey f2 = .unknown ∨ (normalizeAdSlotKey f3).value = 0) := by
          simp only [not_or]
          exact ⟨hvalid.1, hvalid.2.1, hvalid.2.2.1⟩
        have hspecs := @parseCreativeSpecs_of_listed f7 (normalizeAdSlotKey f3) s.creatives ids
          hids hcount
        rw [← parseU64_eq_decimalNumber] at h0
        simp only [appendCampaignLine, h0, h4, h5, h6, hspecs, if_neg hkeys]
        rfl
      · cases h
    · cases h
  · cases h

/-! ## The loader -/

/-- **The loader** adds the rows one by one. -/
theorem loadLines_some {extract : Bytes → Option (Double × Bytes)} {n : Nat} {lines : List Bytes}
    {s s' : CampaignStoreSnapshot} (h : loadLines extract n lines s = some s') :
    ∃ rows, rowsFrom extract n lines = some rows ∧ s' = rows.foldl .addRow s := by
  induction lines generalizing n s with
  | nil =>
      cases h
      exact ⟨[], rfl, rfl⟩
  | cons line lines ih =>
      unfold loadLines at h
      unfold rowsFrom
      split at h
      · rename_i hskip
        rw [if_pos hskip]
        exact ih h
      · rename_i hskip
        rw [if_neg hskip]
        cases happend : appendCampaignLine extract (splitCsvLine line) s with
        | mk ok s1 =>
            rw [happend] at h
            cases ok with
            | false => cases h
            | true =>
                obtain ⟨row, hrow, rfl⟩ := appendCampaignLine_true happend
                obtain ⟨rows, hrows, hs'⟩ := ih h
                rw [hrow, hrows]
                exact ⟨row :: rows, rfl, hs'⟩

/-- A file of rows is loaded, under the same proviso for each one. -/
theorem loadLines_of_rows {extract : Bytes → Option (Double × Bytes)} {n : Nat}
    {lines : List Bytes} {s : CampaignStoreSnapshot} {rows : List CampaignRow}
    (h : rowsFrom extract n lines = some rows)
    (hcount : ∀ row ∈ rows, 0 < UInt32.ofNat row.creativeIds.length) :
    loadLines extract n lines s = some (rows.foldl .addRow s) := by
  induction lines generalizing n s rows with
  | nil =>
      cases h
      rfl
  | cons line lines ih =>
      unfold rowsFrom at h
      unfold loadLines
      split at h
      · rename_i hskip
        rw [if_pos hskip]
        exact ih h hcount
      · rename_i hskip
        rw [if_neg hskip]
        cases hrow : parseRow extract (splitCsvLine line) with
        | none => simp [hrow] at h
        | some row =>
            cases hrows : rowsFrom extract (n + 1) lines with
            | none => simp [hrow, hrows] at h
            | some rest =>
                simp only [hrow, hrows, Option.some.injEq] at h
                subst h
                rw [appendCampaignLine_of_row hrow (hcount row List.mem_cons_self)]
                exact ih hrows fun r hr => hcount r (List.mem_cons_of_mem _ hr)

/-- The store of a file is what its rows add up to. -/
theorem loadCampaignStoreSnapshot_some {extract : Bytes → Option (Double × Bytes)}
    {input : Option Bytes} {store : CampaignStoreSnapshot}
    (h : loadCampaignStoreSnapshot extract input = some store) :
    ∃ text rows, input = some text ∧ campaignRows extract text = some rows ∧
      store = rows.foldl .addRow {} := by
  cases input with
  | none => cases h
  | some text =>
      obtain ⟨rows, hrows, hstore⟩ := loadLines_some h
      exact ⟨text, rows, rfl, hrows, hstore⟩

theorem loadCampaignStoreSnapshot_of_rows {extract : Bytes → Option (Double × Bytes)}
    {text : Bytes} {rows : List CampaignRow} (h : campaignRows extract text = some rows)
    (hcount : ∀ row ∈ rows, 0 < UInt32.ofNat row.creativeIds.length) :
    loadCampaignStoreSnapshot extract (some text) = some (rows.foldl .addRow {}) :=
  loadLines_of_rows h hcount

/-! ## Writing a file -/

/-- A field that reads back: no delimiter in it, and nothing to trim. -/
def CsvField (field : Bytes) : Prop :=
  kCsvDelimiter ∉ field ∧ 10 ∉ field ∧ trimCopy field = field

instance (field : Bytes) : Decidable (CsvField field) :=
  inferInstanceAs (Decidable (_ ∧ _ ∧ _))

def csvLine (fields : List Bytes) : Bytes := [kCsvDelimiter].intercalate fields

/-- The fields of a line that is neither empty nor a comment nor a header. -/
structure CsvRow (fields : List Bytes) : Prop where
  reads : ∀ field ∈ fields, CsvField field
  starts : (csvLine fields).head?.any isDigit = true

def csvText (lines : List (List Bytes)) : Bytes := [10].intercalate (lines.map csvLine)

theorem not_mem_csvLine {fields : List Bytes} (h : ∀ field ∈ fields, CsvField field) :
    10 ∉ csvLine fields := by
  induction fields with
  | nil => exact List.not_mem_nil
  | cons field fields ih =>
      obtain ⟨-, hnewline, -⟩ := h field List.mem_cons_self
      have hrest := ih fun f hf => h f (List.mem_cons_of_mem _ hf)
      unfold csvLine at hrest ⊢
      cases fields with
      | nil => simpa using hnewline
      | cons next fields =>
          rw [List.intercalate_cons_cons]
          simp only [List.mem_append, List.mem_singleton, not_or]
          exact ⟨⟨hnewline, by decide⟩, hrest⟩

/-- A line that starts neither like a comment nor like the header. -/
theorem isSkipped_of_head {c : UInt8} (hhash : c ≠ 35) (hc : c ≠ 99) (n : Nat) (rest : Bytes) :
    isSkipped n (c :: rest) = false := by
  have hheader : (ascii "campaign_id,").isPrefixOf (c :: rest) = false := by
    have hname : ascii "campaign_id," = 99 :: ascii "ampaign_id," := by decide
    rw [hname, List.isPrefixOf_cons_cons, beq_eq_false_iff_ne.mpr hc.symm, Bool.false_and]
  unfold isSkipped
  rw [hheader]
  simp [hhash]

/-- The lines of a text that was joined from them. -/
theorem getLines_intercalate {lines : List Bytes} (h : ∀ line ∈ lines, 10 ∉ line)
    (hlast : lines.getLast? ≠ some []) : getLines ([10].intercalate lines) = lines := by
  rw [getLines_eq]
  cases lines with
  | nil => rfl
  | cons line lines =>
      rw [List.splitOn_intercalate _ h (List.cons_ne_nil _ _), dropLastEmpty, if_neg hlast]

section

variable {fields : List Bytes} (h : CsvRow fields)
include h

theorem CsvRow.ne_nil : fields ≠ [] := by
  rintro rfl
  exact absurd h.starts (by decide)

theorem CsvRow.split : splitCsvLine (csvLine fields) = fields := by
  rw [splitCsvLine_eq, csvLine, List.splitOn_intercalate _ (fun f hf => (h.reads f hf).1) h.ne_nil]
  exact (List.map_congr_left fun f hf => (h.reads f hf).2.2).trans (List.map_id' _)

theorem CsvRow.not_skipped (n : Nat) : isSkipped n (csvLine fields) = false := by
  have hstarts := h.starts
  cases hline : csvLine fields with
  | nil =>
      rw [hline] at hstarts
      cases hstarts
  | cons c rest =>
      rw [hline] at hstarts
      have hdigit : isDigit c = true := hstarts
      apply isSkipped_of_head
      · rintro rfl
        cases hdigit
      · rintro rfl
        cases hdigit

end

/-- What was written is read back. -/
theorem campaignRows_csvText {extract : Bytes → Option (Double × Bytes)}
    {lines : List (List Bytes)} {rows : List CampaignRow}
    (hlines : ∀ fields ∈ lines, CsvRow fields)
    (hrows : lines.mapM (parseRow extract) = some rows) :
    campaignRows extract (csvText lines) = some rows := by
  have hnewline : ∀ line ∈ lines.map csvLine, 10 ∉ line := by
    intro line hline
    obtain ⟨fields, hfields, rfl⟩ := List.mem_map.mp hline
    exact not_mem_csvLine (hlines fields hfields).reads
  have hlast : (lines.map csvLine).getLast? ≠ some [] := by
    intro hlast
    obtain ⟨fields, hfields, hline⟩ := List.mem_map.mp (List.mem_of_getLast? hlast)
    have hstarts := (hlines fields hfields).starts
    rw [hline] at hstarts
    cases hstarts
  unfold campaignRows csvText
  rw [getLines_intercalate hnewline hlast]
  clear hnewline hlast
  generalize 0 = n
  induction lines generalizing n rows with
  | nil => exact hrows
  | cons fields lines ih =>
      have hrow := hlines fields List.mem_cons_self
      rw [List.map_cons, rowsFrom, hrow.not_skipped, if_neg (by decide), hrow.split]
      rw [List.mapM_cons] at hrows
      cases hfirst : parseRow extract fields with
      | none =>
          rw [hfirst] at hrows
          cases hrows
      | some row =>
          cases hrest : lines.mapM (parseRow extract) with
          | none =>
              rw [hfirst, hrest] at hrows
              cases hrows
          | some rest =>
              rw [hfirst, hrest] at hrows
              rw [ih (fun f hf => hlines f (List.mem_cons_of_mem _ hf)) hrest]
              exact hrows

end RtbEngine
