import RtbEngine.Logic.Lines
import RtbEngine.Theorems.Retrieval

/-!
# Line ends and lines that say nothing

A file loads the same with carriage returns before its newlines, as long as
it has no empty line; and comments and empty lines may be put anywhere but
before the header.
-/

namespace RtbEngine

open Lib

/-! ## Line ends -/

/-- A text with `"\r\n"` for each `"\n"`. -/
def crlf (text : Bytes) : Bytes := text.flatMap fun c => if c = 10 then [13, 10] else [c]

theorem crlf_append (bs bs' : Bytes) : crlf (bs ++ bs') = crlf bs ++ crlf bs' :=
  List.flatMap_append

theorem crlf_of_not_mem {bs : Bytes} (h : 10 ∉ bs) : crlf bs = bs := by
  induction bs with
  | nil => rfl
  | cons b bs ih =>
      rw [List.mem_cons, not_or] at h
      show (if b = 10 then [13, 10] else [b]) ++ crlf bs = b :: bs
      rw [if_neg (Ne.symm h.1), ih h.2]
      rfl

theorem findDelimiter_of_not_mem {c : UInt8} {before : Bytes} (h : c ∉ before) (after : Bytes) :
    findDelimiter c (before ++ c :: after) = some (before, after) := by
  induction before with
  | nil =>
      show findDelimiter c (c :: after) = _
      rw [findDelimiter, if_pos rfl]
  | cons b before ih =>
      rw [List.mem_cons, not_or] at h
      rw [List.cons_append, findDelimiter, if_neg (Ne.symm h.1), ih h.2]
      rfl

theorem getLines_nil : getLines [] = [] := by
  rw [getLines]
  rfl

theorem getLines_of_none {text : Bytes} (hne : text ≠ []) (h : 10 ∉ text) :
    getLines text = [text] := by
  have hnone : findDelimiter 10 text = none := by
    cases hfind : findDelimiter 10 text with
    | none => rfl
    | some p =>
        obtain ⟨before, after⟩ := p
        obtain ⟨rfl, -⟩ := findDelimiter_eq_some hfind
        exact absurd (List.mem_append_right before List.mem_cons_self) h
  rw [getLines_eq, splitOn_of_no_delimiter hnone, dropLastEmpty, if_neg (by simpa using hne)]

theorem getLines_line {line : Bytes} (h : 10 ∉ line) (rest : Bytes) :
    getLines (line ++ 10 :: rest) = line :: getLines rest := by
  have hsplit := splitOn_of_findDelimiter (findDelimiter_of_not_mem h rest)
  have hrest := List.splitOn_ne_nil 10 rest
  rw [getLines_eq, getLines_eq, hsplit, dropLastEmpty, dropLastEmpty,
    List.getLast?_cons_of_ne_nil hrest, List.dropLast_cons_of_ne_nil hrest]
  split <;> rfl

/-- The lines of the two texts: a carriage return at the end of each but an
unterminated last one. -/
inductive Returned : List Bytes → List Bytes → Prop where
  | nil : Returned [] []
  | last {line : Bytes} : line ≠ [] → Returned [line] [line]
  | cons {line : Bytes} {lines lines' : List Bytes} :
      Returned lines lines' → Returned (line :: lines) ((line ++ [13]) :: lines')

theorem returned_getLines (text : Bytes) : Returned (getLines text) (getLines (crlf text)) := by
  induction text using getLines.induct with
  | case1 text hempty =>
      rw [List.isEmpty_iff] at hempty
      subst hempty
      show Returned (getLines []) (getLines [])
      rw [getLines_nil]
      exact .nil
  | case2 text hempty hfind =>
      have hne : text ≠ [] := fun he => hempty (by rw [he]; rfl)
      have hmem := findDelimiter_eq_none hfind
      rw [crlf_of_not_mem hmem, getLines_of_none hne hmem]
      exact .last hne
  | case3 text hempty line rest hfind ih =>
      obtain ⟨rfl, hmem⟩ := findDelimiter_eq_some hfind
      have hcrlf : crlf (line ++ 10 :: rest) = (line ++ [13]) ++ 10 :: crlf rest := by
        rw [crlf_append, crlf_of_not_mem hmem, List.append_assoc]
        rfl
      have hmem' : 10 ∉ line ++ [13] := by
        rw [List.mem_append, not_or]
        exact ⟨hmem, by decide⟩
      rw [hcrlf, getLines_line hmem, getLines_line hmem']
      exact .cons ih

/-- The header is found with or without what follows it. -/
theorem isPrefixOf_append_of_not_mem {name line : Bytes} {c : UInt8} (h : c ∉ name) :
    name.isPrefixOf (line ++ [c]) = name.isPrefixOf line := by
  induction name generalizing line with
  | nil => rfl
  | cons b name ih =>
      rw [List.mem_cons, not_or] at h
      cases line with
      | nil =>
          rw [List.nil_append, List.isPrefixOf_cons_cons, beq_eq_false_iff_ne.mpr (Ne.symm h.1)]
          rfl
      | cons a line =>
          rw [List.cons_append, List.isPrefixOf_cons_cons, List.isPrefixOf_cons_cons, ih h.2]

theorem isSkipped_return (n : Nat) {line : Bytes} (hne : line ≠ []) :
    isSkipped n (line ++ [13]) = isSkipped n line := by
  cases line with
  | nil => exact absurd rfl hne
  | cons c line =>
      have hheader := @isPrefixOf_append_of_not_mem (ascii "campaign_id,") (c :: line) 13 (by decide)
      unfold isSkipped
      rw [hheader]
      rfl

theorem isSkipped_lone_return (n : Nat) : isSkipped n [13] = false := by
  have hheader : (ascii "campaign_id,").isPrefixOf [13] = false := by decide
  unfold isSkipped
  rw [hheader, Bool.and_false]
  rfl

theorem splitCsvLine_return (line : Bytes) : splitCsvLine (line ++ [13]) = splitCsvLine line :=
  splitCsvLine_append_blank (by decide +kernel) line

section

variable {extract : Bytes → Option (Double × Bytes)}

/-- A line that was empty is read as one field. -/
theorem rejectsLine_lone_return : rejectsLine extract [13] = true := by
  have hfields : splitCsvLine [13] = [[]] := by
    rw [← List.nil_append [13], splitCsvLine_return, splitCsvLine_of_none rfl]
    rfl
  unfold rejectsLine
  rw [hfields]
  rfl

/-- **Carriage returns** do not show where no line is empty. -/
theorem Returned.loadLines_eq {lines lines' : List Bytes} (h : Returned lines lines')
    (hne : [] ∉ lines) (n : Nat) (s : CampaignStoreSnapshot) :
    loadLines extract n lines' s = loadLines extract n lines s := by
  induction h generalizing n s with
  | nil => rfl
  | last _ => rfl
  | @cons line lines lines' _ ih =>
      rw [List.mem_cons, not_or] at hne
      unfold loadLines
      rw [isSkipped_return _ (Ne.symm hne.1), splitCsvLine_return]
      split
      · exact ih hne.2 _ _
      · cases appendCampaignLine extract (splitCsvLine line) s with
        | mk ok s1 =>
            cases ok with
            | false => rfl
            | true => exact ih hne.2 _ _

/-- Where a line is empty, the other text is rejected. -/
theorem Returned.rejects {lines lines' : List Bytes} (h : Returned lines lines') (hin : [] ∈ lines)
    (n : Nat) : RejectsFrom extract n lines' := by
  induction h generalizing n with
  | nil => cases hin
  | last hne =>
      rw [List.mem_singleton] at hin
      exact absurd hin.symm hne
  | @cons line lines lines' _ ih =>
      rw [rejectsFrom_cons]
      by_cases hline : line = []
      · subst hline
        exact .inl ⟨isSkipped_lone_return _, rejectsLine_lone_return⟩
      · rw [List.mem_cons] at hin
        exact .inr (ih (hin.resolve_left (Ne.symm hline)) _)

end

/-- **Line ends.** A text and the one with carriage returns load alike if and
only if the text has no empty line or is rejected for another one. -/
theorem load_crlf_iff (extract : Bytes → Option (Double × Bytes)) (text : Bytes) :
    loadCampaignStoreSnapshot extract (some (crlf text)) =
        loadCampaignStoreSnapshot extract (some text) ↔
      [] ∉ getLines text ∨ RejectsFrom extract 0 (getLines text) := by
  have hlines := returned_getLines text
  show loadLines extract 0 (getLines (crlf text)) {} = loadLines extract 0 (getLines text) {} ↔ _
  rw [← loadLines_eq_none_iff 0 (getLines text) {}]
  by_cases hin : [] ∈ getLines text
  · have hnone : loadLines extract 0 (getLines (crlf text)) {} = none :=
      (loadLines_eq_none_iff 0 _ {}).mpr (hlines.rejects hin 0)
    rw [hnone]
    constructor
    · exact fun heq => .inr heq.symm
    · rintro (hno | heq)
      · exact absurd hin hno
      · exact heq.symm
  · exact ⟨fun _ => .inl hin, fun _ => hlines.loadLines_eq hin 0 {}⟩

/-- Line ends make no difference, whatever the text. -/
def LineEndsAlike : Prop :=
  ∀ extract text, loadCampaignStoreSnapshot extract (some (crlf text)) =
    loadCampaignStoreSnapshot extract (some text)

/-- A comment, and an empty line after it. -/
theorem not_lineEndsAlike : ¬ LineEndsAlike := by
  intro halike
  have hlines : getLines (ascii "# campaigns\n\n") = [ascii "# campaigns", []] := by
    rw [getLines_eq]
    decide
  have hsome : loadCampaignStoreSnapshot (fun _ => none) (some (ascii "# campaigns\n\n")) =
      some {} := by
    unfold loadCampaignStoreSnapshot
    simp only
    rw [hlines]
    rfl
  have hnone : loadCampaignStoreSnapshot (fun _ => none) (some (crlf (ascii "# campaigns\n\n"))) =
      none := by
    refine (loadLines_eq_none_iff 0 _ {}).mpr ((returned_getLines _).rejects ?_ 0)
    rw [hlines]
    decide
  rw [halike, hsome] at hnone
  cases hnone

/-! ## Lines that say nothing -/

/-- An empty line or a comment. -/
def Ignorable (line : Bytes) : Prop := line = [] ∨ line.head? = some 35

/-- The second list is the first with ignorable lines put anywhere. -/
inductive Inserted : List Bytes → List Bytes → Prop where
  | nil : Inserted [] []
  | keep {line : Bytes} {lines lines' : List Bytes} :
      Inserted lines lines' → Inserted (line :: lines) (line :: lines')
  | insert {line : Bytes} {lines lines' : List Bytes} :
      Ignorable line → Inserted lines lines' → Inserted lines (line :: lines')

theorem Inserted.refl (lines : List Bytes) : Inserted lines lines := by
  induction lines with
  | nil => exact .nil
  | cons line lines ih => exact .keep ih

theorem Inserted.append_left {lines lines' : List Bytes} (h : Inserted lines lines')
    (front : List Bytes) : Inserted (front ++ lines) (front ++ lines') := by
  induction front with
  | nil => exact h
  | cons line front ih => exact .keep ih

/-- The lines of a text cut behind a newline. -/
theorem getLines_append_newline (before after : Bytes) :
    getLines (before ++ 10 :: after) = getLines (before ++ [10]) ++ getLines after := by
  induction before using getLines.induct with
  | case1 before hempty =>
      rw [List.isEmpty_iff] at hempty
      subst hempty
      have hline := @getLines_line [] List.not_mem_nil
      rw [hline, hline, getLines_nil]
      rfl
  | case2 before hempty hfind =>
      have hmem := findDelimiter_eq_none hfind
      rw [getLines_line hmem, getLines_line hmem, getLines_nil]
      rfl
  | case3 before hempty line rest hfind ih =>
      obtain ⟨rfl, hmem⟩ := findDelimiter_eq_some hfind
      rw [List.append_assoc, List.append_assoc, List.cons_append, List.cons_append,
        getLines_line hmem, getLines_line hmem, ih]
      rfl

/-- A line put at the front of a text, or behind one of its newlines. -/
theorem inserted_of_text {line : Bytes} (hline : Ignorable line) (hmem : 10 ∉ line)
    (before after : Bytes) :
    Inserted (getLines after) (getLines (line ++ 10 :: after)) ∧
      Inserted (getLines (before ++ 10 :: after))
        (getLines (before ++ 10 :: (line ++ 10 :: after))) := by
  have hfront : Inserted (getLines after) (getLines (line ++ 10 :: after)) := by
    rw [getLines_line hmem]
    exact .insert hline (.refl _)
  refine ⟨hfront, ?_⟩
  rw [getLines_append_newline before after, getLines_append_newline before (line ++ 10 :: after)]
  exact hfront.append_left _

theorem isSkipped_of_ignorable {line : Bytes} (h : Ignorable line) (n : Nat) :
    isSkipped n line = true := by
  unfold isSkipped
  rcases h with rfl | hhash
  · rfl
  · rw [hhash]
    simp

theorem not_ignorable_of_isHeader {line : Bytes} (h : isHeader line = true) : ¬ Ignorable line := by
  cases line with
  | nil => cases h
  | cons c line =>
      have hname : ascii "campaign_id," = 99 :: ascii "ampaign_id," := by decide
      unfold isHeader at h
      rw [hname, List.isPrefixOf_cons_cons, Bool.and_eq_true, beq_iff_eq] at h
      rintro (hnil | hhash)
      · cases hnil
      · rw [← h.1] at hhash
        cases hhash

/-- Behind the first line the number of a line does not matter. -/
theorem isSkipped_of_pos {n m : Nat} (hn : 1 ≤ n) (hm : 1 ≤ m) (line : Bytes) :
    isSkipped (n + 1) line = isSkipped (m + 1) line := by
  have hn1 : (n + 1 == 1) = false := by simp; omega
  have hm1 : (m + 1 == 1) = false := by simp; omega
  rw [isSkipped, isSkipped, hn1, hm1]

theorem isSkipped_of_not_header {line : Bytes} (h : isHeader line = false) (n m : Nat) :
    isSkipped n line = isSkipped m line := by
  unfold isHeader at h
  rw [isSkipped, isSkipped, h, Bool.and_false, Bool.and_false]

section

variable {extract : Bytes → Option (Double × Bytes)}

/-- One step of the loader on a line that is skipped under either number. -/
theorem loadLines_congr {n m : Nat} {line : Bytes} {lines lines' : List Bytes}
    {s : CampaignStoreSnapshot} (hskip : isSkipped (m + 1) line = isSkipped (n + 1) line)
    (h : ∀ s, loadLines extract (m + 1) lines' s = loadLines extract (n + 1) lines s) :
    loadLines extract m (line :: lines') s = loadLines extract n (line :: lines) s := by
  unfold loadLines
  rw [hskip]
  split
  · exact h s
  · cases appendCampaignLine extract (splitCsvLine line) s with
    | mk ok s1 =>
        cases ok with
        | false => rfl
        | true => exact h s1

theorem loadLines_ignorable {n : Nat} {line : Bytes} (h : Ignorable line) (lines : List Bytes)
    (s : CampaignStoreSnapshot) :
    loadLines extract n (line :: lines) s = loadLines extract (n + 1) lines s := by
  rw [loadLines, if_pos (isSkipped_of_ignorable h _)]

/-- **Behind the first line** anything may be put in. -/
theorem Inserted.loadLines_eq {lines lines' : List Bytes} (h : Inserted lines lines') {n m : Nat}
    (hn : 1 ≤ n) (hm : 1 ≤ m) (s : CampaignStoreSnapshot) :
    loadLines extract m lines' s = loadLines extract n lines s := by
  induction h generalizing n m s with
  | nil => rfl
  | keep _ ih =>
      exact loadLines_congr (isSkipped_of_pos hm hn _) fun s1 => ih (by omega) (by omega) s1
  | insert hline _ ih =>
      rw [loadLines_ignorable hline]
      exact ih hn (by omega) s

end

/-- **Ignorable lines** make no difference, unless they come before a header
on the first line. -/
theorem load_inserted (extract : Bytes → Option (Double × Bytes)) (text text' : Bytes)
    (hins : Inserted (getLines text) (getLines text'))
    (hheader : ∀ line, (getLines text).head? = some line → isHeader line = true →
      (getLines text').head? = some line) :
    loadCampaignStoreSnapshot extract (some text') =
      loadCampaignStoreSnapshot extract (some text) := by
  show loadLines extract 0 (getLines text') {} = loadLines extract 0 (getLines text) {}
  generalize getLines text = lines at hins hheader
  generalize getLines text' = lines' at hins hheader
  cases hins with
  | nil => rfl
  | keep hrest =>
      exact loadLines_congr rfl fun s1 => hrest.loadLines_eq (Nat.le_refl 1) (Nat.le_refl 1) s1
  | insert hline hrest =>
      rw [loadLines_ignorable hline, hrest.loadLines_eq (Nat.le_refl 1) (Nat.le_refl 1)]
      cases lines with
      | nil => rfl
      | cons first lines =>
          -- with a line before it, the first line is no header
          have hfirst : isHeader first = false := by
            by_contra hf
            rw [Bool.not_eq_false] at hf
            have hhead := hheader first rfl hf
            rw [List.head?_cons, Option.some.injEq] at hhead
            subst hhead
            exact not_ignorable_of_isHeader hf hline
          refine loadLines_congr (isSkipped_of_not_header hfirst _ _) fun s1 => ?_
          exact (Inserted.refl lines).loadLines_eq (Nat.le_refl 1) (by decide) s1

/-- A header before the rows of `sampleLines`. -/
def sampleHeaded : Bytes := ascii "campaign_id,country\n" ++ csvText sampleLines

/-- A comment behind the first row. -/
def sampleCommented : Bytes :=
  ascii "campaign_id,country\n" ++ csvText (sampleLines.take 1) ++ ascii "\n# rows\n" ++
    csvText (sampleLines.drop 1)

/-- The comment makes no difference, and all three rows are loaded. -/
theorem load_inserted_sample :
    loadCampaignStoreSnapshot extractDecimal (some sampleCommented) =
        loadCampaignStoreSnapshot extractDecimal (some sampleHeaded) ∧
      loadCampaignStoreSnapshot extractDecimal (some sampleCommented) = some sampleStore := by
  have hline : (10 : UInt8) ∉ ascii "campaign_id,country" := by decide
  have hheaded : sampleHeaded = ascii "campaign_id,country" ++ 10 :: csvText sampleLines := by
    decide +kernel
  have hcommented : sampleCommented = ascii "campaign_id,country" ++
      10 :: (csvText (sampleLines.take 1) ++ ascii "\n# rows\n" ++ csvText (sampleLines.drop 1)) := by
    decide +kernel
  have hlines := (congrArg getLines hheaded).trans (getLines_line hline _)
  have hsame : loadCampaignStoreSnapshot extractDecimal (some sampleCommented) =
      loadCampaignStoreSnapshot extractDecimal (some sampleHeaded) := by
    apply load_inserted
    · have hbefore : sampleHeaded = (ascii "campaign_id,country\n" ++ csvText (sampleLines.take 1)) ++
          10 :: csvText (sampleLines.drop 1) := by decide +kernel
      have hafter : sampleCommented =
          (ascii "campaign_id,country\n" ++ csvText (sampleLines.take 1)) ++
            10 :: (ascii "# rows" ++ 10 :: csvText (sampleLines.drop 1)) := by decide +kernel
      rw [hbefore, hafter]
      exact (inserted_of_text (.inr rfl) (by decide) _ _).2
    · intro line hfirst _
      rw [hlines] at hfirst
      rw [hcommented, getLines_line hline]
      exact hfirst
  refine ⟨hsame, hsame.trans ?_⟩
  -- behind the header the rows are read as they are without it
  show loadLines extractDecimal 0 (getLines sampleHeaded) {} = some sampleStore
  rw [hlines, loadLines, if_pos (by decide)]
  refine Eq.trans ?_ load_sampleStore
  show loadLines extractDecimal 1 (getLines (csvText sampleLines)) {} =
    loadLines extractDecimal 0 (getLines (csvText sampleLines)) {}
  obtain ⟨first, rest, hrows, hfirst⟩ : ∃ first rest, getLines (csvText sampleLines) = first :: rest ∧
      isHeader first = false := by
    have hrows : csvText sampleLines =
        csvText (sampleLines.take 1) ++ 10 :: csvText (sampleLines.drop 1) := by decide +kernel
    rw [hrows, getLines_line (by decide +kernel)]
    exact ⟨_, _, rfl, by decide +kernel⟩
  rw [hrows]
  refine loadLines_congr (isSkipped_of_not_header hfirst _ _) fun s => ?_
  exact (Inserted.refl rest).loadLines_eq (by decide) (by decide) s

/-- Ignorable lines may be put anywhere. -/
def IgnorableAnywhere : Prop :=
  ∀ extract text text' store, Inserted (getLines text) (getLines text') →
    loadCampaignStoreSnapshot extract (some text) = some store →
    loadCampaignStoreSnapshot extract (some text') = some store

/-- A comment before the header: the header is on line 2, and is read as a row. -/
theorem not_ignorableAnywhere : ¬ IgnorableAnywhere := by
  intro hany
  have hlines : getLines (ascii "campaign_id,country\n") = [ascii "campaign_id,country"] := by
    rw [getLines_eq]
    decide
  have hlines' : getLines (ascii "# rows\ncampaign_id,country\n") =
      [ascii "# rows", ascii "campaign_id,country"] := by
    rw [getLines_eq]
    decide
  have hsome : loadCampaignStoreSnapshot (fun _ => none) (some (ascii "campaign_id,country\n")) =
      some {} := by
    unfold loadCampaignStoreSnapshot
    simp only
    rw [hlines]
    rfl
  have hrejects : rejectsLine (fun _ => none) (ascii "campaign_id,country") = true := by
    unfold rejectsLine
    rw [splitCsvLine_eq]
    decide
  have hnone : loadCampaignStoreSnapshot (fun _ => none)
      (some (ascii "# rows\ncampaign_id,country\n")) = none := by
    refine (loadLines_eq_none_iff 0 _ {}).mpr ?_
    rw [hlines']
    exact ⟨1, ascii "campaign_id,country", rfl, by decide, hrejects⟩
  have hinserted : Inserted (getLines (ascii "campaign_id,country\n"))
      (getLines (ascii "# rows\ncampaign_id,country\n")) := by
    have htext : ascii "# rows\ncampaign_id,country\n" =
        ascii "# rows" ++ 10 :: ascii "campaign_id,country\n" := by decide
    rw [htext]
    exact (inserted_of_text (.inr rfl) (by decide) [] (ascii "campaign_id,country\n")).1
  rw [hany _ _ _ _ hinserted hsome] at hnone
  cases hnone

end RtbEngine
