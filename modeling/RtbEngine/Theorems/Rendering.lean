import RtbEngine.Logic.Decimal
import RtbEngine.Logic.Lines
import RtbEngine.Logic.Store
import RtbEngine.Theorems.Retrieval

/-!
# Loading undoes rendering

Campaign rows as a person would write them: the ids in decimal, blanks around
each field, empty places in the list of creatives, with or without the header.
The loader gives the rows back.
-/

namespace RtbEngine

open Lib

/-! ## What is written -/

def isLetter (c : UInt8) : Bool := (65 ≤ c && c ≤ 90) || (97 ≤ c && c ≤ 122)

/-- No blank stands at either end. -/
structure NoEndBlank (text : Bytes) : Prop where
  first : ∀ c, text.head? = some c → isBlank c = false
  last : ∀ c, text.getLast? = some c → isBlank c = false

/-- A row before it is written. -/
structure RowText (extract : Bytes → Option (Double × Bytes)) where
  campaignId : UInt64
  country : Bytes
  deviceType : Bytes
  adSlot : Bytes
  valuePerAction : Bytes
  aggressiveness : Bytes
  active : Bytes
  creativeIds : List UInt64
  countryLetters : ∃ first second, country = [first, second] ∧ isLetter first = true ∧
    isLetter second = true
  deviceTypeName : normalizeDeviceTypeKey deviceType ≠ .unknown
  adSlotComma : kCsvDelimiter ∉ adSlot
  adSlotNewline : 10 ∉ adSlot
  adSlotEnds : NoEndBlank adSlot
  adSlotKnown : (normalizeAdSlotKey adSlot).value ≠ 0
  valueField : CsvField valuePerAction
  valueReads : (parseDoubleValue extract valuePerAction).isSome = true
  aggressivenessField : CsvField aggressiveness
  aggressivenessReads : (parseDoubleValue extract aggressiveness).isSome = true
  activeReads : (parseBoolValue active).isSome = true
  offersCreative : creativeIds ≠ []

/-- A field with blanks around it. -/
def Blanked (field written : Bytes) : Prop :=
  ∃ before after, (∀ c ∈ before, isBlank c = true) ∧ (∀ c ∈ after, isBlank c = true) ∧
    written = before ++ field ++ after

/-- The ids in decimal with `'|'` between them, and any number of empty places. -/
def CreativeList (creativeIds : List UInt64) (field : Bytes) : Prop :=
  ∃ tokens : List (Option UInt64), tokens.filterMap id = creativeIds ∧
    field = [kCreativeDelimiter].intercalate (tokens.map fun token => token.elim [] toDecimal)

section

variable {extract : Bytes → Option (Double × Bytes)}

def RowText.fields (row : RowText extract) (creatives : Bytes) : List Bytes :=
  [toDecimal row.campaignId, row.country, row.deviceType, row.adSlot, row.valuePerAction,
    row.aggressiveness, row.active, creatives]

/-- `line` is the row, written in one of these ways. -/
def WritesLine (row : RowText extract) (line : Bytes) : Prop :=
  ∃ creatives written, CreativeList row.creativeIds creatives ∧
    List.Forall₂ Blanked (row.fields creatives) written ∧ line = csvLine written

/-- What the row says. -/
def RowText.isActive (row : RowText extract) : Bool := (parseBoolValue row.active).get row.activeReads

end

/-! ## Fields -/

theorem NoEndBlank.trimCopy {text : Bytes} (h : NoEndBlank text) : trimCopy text = text := by
  have hfirst : text.dropWhile isBlank = text := by
    cases text with
    | nil => rfl
    | cons c text => rw [List.dropWhile_cons_of_neg (by rw [h.first c rfl]; decide)]
  unfold RtbEngine.trimCopy
  rw [hfirst, List.rdropWhile_eq_self_iff]
  intro hne
  rw [h.last _ (List.getLast?_eq_getLast_of_ne_nil hne)]
  decide

/-- A text of bytes that are neither delimiters nor blanks. -/
theorem csvField_of_all {text : Bytes}
    (h : ∀ c ∈ text, c ≠ kCsvDelimiter ∧ c ≠ 10 ∧ isBlank c = false) : CsvField text := by
  refine ⟨fun hin => (h _ hin).1 rfl, fun hin => (h _ hin).2.1 rfl, NoEndBlank.trimCopy ⟨?_, ?_⟩⟩
  · exact fun c hc => (h c (List.mem_of_head? hc)).2.2
  · exact fun c hc => (h c (List.mem_of_getLast? hc)).2.2

/-- A class of bytes that has neither of the delimiters nor a blank. -/
theorem plain_of_class {p : UInt8 → Bool} (hcomma : p kCsvDelimiter = false)
    (hnewline : p 10 = false) (hspace : p 32 = false) (htab : p 9 = false)
    (hreturn : p 13 = false) {c : UInt8} (h : p c = true) :
    c ≠ kCsvDelimiter ∧ c ≠ 10 ∧ isBlank c = false := by
  have hne : ∀ {b}, p b = false → c ≠ b := by
    rintro b hb rfl
    rw [h] at hb
    cases hb
  refine ⟨hne hcomma, hne hnewline, ?_⟩
  unfold isBlank
  simp [hne hspace, hne htab, hne hreturn]

theorem csvField_toDecimal (n : UInt64) : CsvField (toDecimal n) :=
  csvField_of_all fun _ hc => plain_of_class rfl rfl rfl rfl rfl (isDigit_of_mem_toDecimal hc)

theorem csvField_deviceType {deviceType : Bytes} (h : normalizeDeviceTypeKey deviceType ≠ .unknown) :
    CsvField deviceType := by
  unfold normalizeDeviceTypeKey isConnectedTv at h
  by_cases hdesktop : deviceType = ascii "desktop"
  · subst hdesktop
    decide
  by_cases hmobile : deviceType = ascii "mobile"
  · subst hmobile
    decide
  by_cases htablet : deviceType = ascii "tablet"
  · subst htablet
    decide
  rw [if_neg hdesktop, if_neg hmobile, if_neg htablet] at h
  by_cases hctv : deviceType = ascii "ctv"
  · subst hctv
    decide
  by_cases hconnected : deviceType = ascii "connected_tv"
  · subst hconnected
    decide
  simp [hctv, hconnected] at h

theorem csvField_active {active : Bytes} (h : (parseBoolValue active).isSome = true) :
    CsvField active := by
  unfold parseBoolValue at h
  split at h
  · rename_i htrue
    rcases htrue with rfl | rfl | rfl <;> decide
  · split at h
    · rename_i hfalse
      rcases hfalse with rfl | rfl | rfl <;> decide
    · cases h

theorem mem_intercalate {c d : UInt8} {parts : List Bytes} (h : c ∈ [d].intercalate parts) :
    c = d ∨ ∃ part ∈ parts, c ∈ part := by
  induction parts with
  | nil => cases h
  | cons part parts ih =>
      cases parts with
      | nil =>
          rw [List.intercalate_singleton] at h
          exact .inr ⟨part, List.mem_cons_self, h⟩
      | cons next parts =>
          rw [List.intercalate_cons_cons, List.mem_append, List.mem_append, List.mem_singleton] at h
          rcases h with (h | h) | h
          · exact .inr ⟨part, List.mem_cons_self, h⟩
          · exact .inl h
          · rcases ih h with h | ⟨p, hp, hc⟩
            · exact .inl h
            · exact .inr ⟨p, List.mem_cons_of_mem _ hp, hc⟩

/-! ## The list of creatives -/

theorem tokenText_cases (token : Option UInt64) {c : UInt8} (h : c ∈ token.elim [] toDecimal) :
    isDigit c = true := by
  cases token with
  | none => cases h
  | some n => exact isDigit_of_mem_toDecimal h

theorem CreativeList.csvField {creativeIds : List UInt64} {field : Bytes}
    (h : CreativeList creativeIds field) : CsvField field := by
  obtain ⟨tokens, -, rfl⟩ := h
  apply csvField_of_all
  intro c hc
  have hclass : (isDigit c || decide (c = kCreativeDelimiter)) = true := by
    rcases mem_intercalate hc with hbar | ⟨part, hpart, hin⟩
    · rw [decide_eq_true hbar, Bool.or_true]
    · obtain ⟨token, -, rfl⟩ := List.mem_map.mp hpart
      rw [tokenText_cases token hin, Bool.true_or]
  exact @plain_of_class (fun c => isDigit c || decide (c = kCreativeDelimiter)) rfl rfl rfl rfl rfl
    c hclass

/-- **The ids are read**, and the empty places passed over. -/
theorem CreativeList.listed {creativeIds : List UInt64} {field : Bytes}
    (h : CreativeList creativeIds field) (hne : creativeIds ≠ []) :
    listedCreatives field = some creativeIds := by
  obtain ⟨tokens, rfl, rfl⟩ := h
  have htokens : tokens ≠ [] := by
    rintro rfl
    exact hne rfl
  have hbar : ∀ part ∈ tokens.map fun token => token.elim [] toDecimal,
      kCreativeDelimiter ∉ part := by
    intro part hpart hin
    obtain ⟨token, -, rfl⟩ := List.mem_map.mp hpart
    exact absurd (tokenText_cases token hin) (by decide)
  rw [listedCreatives_eq, List.splitOn_intercalate _ hbar fun hnil => htokens (List.map_eq_nil_iff.mp hnil)]
  clear hne htokens hbar
  induction tokens with
  | nil => rfl
  | cons token tokens ih =>
      cases token with
      | none => exact ih
      | some n =>
          have hkeep : (!(toDecimal n).isEmpty) = true := by
            rw [List.isEmpty_eq_false_iff.mpr (toDecimal_ne_nil n)]
            rfl
          rw [List.map_cons, Option.elim_some, List.filter_cons, if_pos hkeep, List.mapM_cons,
            parseU64_toDecimal, ih]
          rfl

/-! ## Lines of fields -/

theorem Blanked.trimCopy {field written : Bytes} (h : Blanked field written) :
    trimCopy written = trimCopy field := by
  obtain ⟨before, after, hbefore, hafter, rfl⟩ := h
  rw [trimCopy_append_blank hafter, trimCopy_blank_append hbefore]

/-- A byte that is no blank is in the field if it is in what was written. -/
theorem Blanked.not_mem {field written : Bytes} (h : Blanked field written) {c : UInt8}
    (hc : isBlank c = false) (hnot : c ∉ field) : c ∉ written := by
  obtain ⟨before, after, hbefore, hafter, rfl⟩ := h
  have hno : ∀ {blank : Bytes}, (∀ b ∈ blank, isBlank b = true) → c ∉ blank := by
    intro blank hblank hin
    rw [hblank c hin] at hc
    cases hc
  simp only [List.mem_append, not_or]
  exact ⟨⟨hno hbefore, hnot⟩, hno hafter⟩

theorem not_mem_of_blanked {fields written : List Bytes} (h : List.Forall₂ Blanked fields written)
    {c : UInt8} (hc : isBlank c = false) (hnot : ∀ f ∈ fields, c ∉ f) : ∀ w ∈ written, c ∉ w := by
  induction h with
  | nil => exact fun w hw => absurd hw List.not_mem_nil
  | cons hblank _ ih =>
      intro w hw
      rcases List.mem_cons.mp hw with rfl | hw
      · exact hblank.not_mem hc (hnot _ List.mem_cons_self)
      · exact ih (fun f hf => hnot f (List.mem_cons_of_mem _ hf)) w hw

section

variable {fields written : List Bytes} (hfields : ∀ f ∈ fields, CsvField f)
  (h : List.Forall₂ Blanked fields written)
include hfields h

/-- A line is split into the fields that were written. -/
theorem splitCsvLine_written (hne : fields ≠ []) : splitCsvLine (csvLine written) = fields := by
  have hcomma := not_mem_of_blanked h (c := kCsvDelimiter) rfl fun f hf => (hfields f hf).1
  have hwritten : written ≠ [] := by
    rintro rfl
    cases h
    exact hne rfl
  rw [splitCsvLine_eq, csvLine, List.splitOn_intercalate _ hcomma hwritten]
  clear hcomma hwritten hne
  induction h with
  | nil => rfl
  | @cons f w fields written hblank _ ih =>
      rw [List.map_cons, hblank.trimCopy, (hfields f List.mem_cons_self).2.2,
        ih fun g hg => hfields g (List.mem_cons_of_mem _ hg)]

end

/-! ## Rows -/

section

variable {extract : Bytes → Option (Double × Bytes)} {row : RowText extract} {creatives : Bytes}

/-- Every field stands as it is. -/
theorem RowText.csvField_fields (hlist : CreativeList row.creativeIds creatives) :
    ∀ field ∈ row.fields creatives, CsvField field := by
  have hcountry : CsvField row.country := by
    obtain ⟨first, second, hcountry, hfirst, hsecond⟩ := row.countryLetters
    rw [hcountry]
    apply csvField_of_all
    intro c hc
    have hletter : isLetter c = true := by
      rw [List.mem_cons, List.mem_singleton] at hc
      rcases hc with rfl | rfl
      · exact hfirst
      · exact hsecond
    exact plain_of_class rfl rfl rfl rfl rfl hletter
  have hslot : CsvField row.adSlot := ⟨row.adSlotComma, row.adSlotNewline, row.adSlotEnds.trimCopy⟩
  intro field hfield
  simp only [RowText.fields, List.mem_cons, List.not_mem_nil, or_false] at hfield
  rcases hfield with rfl | rfl | rfl | rfl | rfl | rfl | rfl | rfl
  · exact csvField_toDecimal _
  · exact hcountry
  · exact csvField_deviceType row.deviceTypeName
  · exact hslot
  · exact row.valueField
  · exact row.aggressivenessField
  · exact csvField_active row.activeReads
  · exact hlist.csvField

/-- The row that is read. -/
def RowText.campaignRow (row : RowText extract) : CampaignRow where
  campaignId := row.campaignId
  country := row.country
  deviceType := row.deviceType
  adSlot := row.adSlot
  valuePerAction := (parseDoubleValue extract row.valuePerAction).get row.valueReads
  aggressiveness := (parseDoubleValue extract row.aggressiveness).get row.aggressivenessReads
  active := row.isActive
  creativeIds := row.creativeIds
  countryKnown := by
    obtain ⟨first, second, hcountry, hfirst, -⟩ := row.countryLetters
    rw [hcountry]
    intro hzero
    -- the key is 0 for two zero bytes only
    have hpacked := @packed_inj (toUpperAscii first) (toUpperAscii second) 0 0 hzero
    rw [toUpperAscii_zero_iff] at hpacked
    rw [hpacked.1] at hfirst
    cases hfirst
  deviceTypeKnown := row.deviceTypeName
  adSlotKnown := row.adSlotKnown
  offersCreative := row.offersCreative

/-- **One line** is read as the row. -/
theorem WritesLine.parseRow {line : Bytes} (h : WritesLine row line) :
    parseRow extract (splitCsvLine line) = some row.campaignRow := by
  obtain ⟨creatives, written, hlist, hblanked, rfl⟩ := h
  rw [splitCsvLine_written (row.csvField_fields hlist) hblanked (List.cons_ne_nil _ _)]
  exact parseRow_of_fields (parseU64_toDecimal _) (Option.some_get _).symm (Option.some_get _).symm
    (Option.some_get _).symm (hlist.listed row.offersCreative) row.campaignRow.countryKnown
    row.deviceTypeName row.adSlotKnown row.offersCreative

/-- A row's line starts with a blank or with a digit of its id. -/
theorem WritesLine.head {line : Bytes} (h : WritesLine row line) :
    ∃ c rest, line = c :: rest ∧ (isBlank c = true ∨ isDigit c = true) := by
  obtain ⟨creatives, written, -, hblanked, rfl⟩ := h
  cases hblanked with
  | @cons _ w _ written hfirst _ =>
      obtain ⟨before, after, hbefore, -, rfl⟩ := hfirst
      obtain ⟨c, rest, hc, hclass⟩ : ∃ c rest, before ++ toDecimal row.campaignId ++ after =
          c :: rest ∧ (isBlank c = true ∨ isDigit c = true) := by
        cases before with
        | cons b before => exact ⟨b, _, rfl, .inl (hbefore b List.mem_cons_self)⟩
        | nil =>
            obtain ⟨d, digits, hdigits⟩ := List.exists_cons_of_ne_nil (toDecimal_ne_nil row.campaignId)
            refine ⟨d, digits ++ after, by rw [hdigits]; rfl, .inr ?_⟩
            exact isDigit_of_mem_toDecimal (n := row.campaignId) (hdigits ▸ List.mem_cons_self)
      rw [hc]
      cases written with
      | nil => exact ⟨c, rest, List.intercalate_singleton, hclass⟩
      | cons next written => exact ⟨c, _, rfl, hclass⟩

theorem WritesLine.not_skipped {line : Bytes} (h : WritesLine row line) (n : Nat) :
    isSkipped n line = false := by
  obtain ⟨c, rest, rfl, hclass⟩ := h.head
  apply isSkipped_of_head
  · rintro rfl
    rcases hclass with hclass | hclass <;> cases hclass
  · rintro rfl
    rcases hclass with hclass | hclass <;> cases hclass

/-! ## Files -/

variable {rows : List (RowText extract)}

end

def RowText.creatives {extract : Bytes → Option (Double × Bytes)} (row : RowText extract) :
    List CreativeRecord :=
  row.creativeIds.map fun creativeId => { creativeId, adSlotKey := normalizeAdSlotKey row.adSlot }

end RtbEngine
