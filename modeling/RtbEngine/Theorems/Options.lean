import Mathlib.Data.List.Perm.Basic
import Mathlib.Tactic.SplitIfs
import RtbEngine.Engine.Server
import RtbEngine.Logic.Decimal

/-!
# The command line

`parse_server_config` accepts the argument lists that are made of option
groups, and reads the groups one after the other.
-/

namespace RtbEngine

open Lib

/-! ## Numbers -/

theorem IsDecimal.head_ne_minus {text : Bytes} {n : Nat} (h : IsDecimal text n) :
    text.head? ≠ some 45 := by
  intro hhead
  have hminus := h.digits 45 (List.mem_of_mem_head? hhead)
  cases hminus

/-- What `parse_int_arg` accepts, as far as it is positive. -/
theorem parseIntArg_positive_iff {text : Bytes} {v : Int32} :
    parseIntArg text = some v ∧ ¬ v ≤ 0 ↔
      ∃ n, IsDecimal text n ∧ 1 ≤ n ∧ n < 2 ^ 31 ∧ v = Int32.ofNat n := by
  constructor
  · rintro ⟨h, hpos⟩
    rw [Int32.le_iff_toInt_le] at hpos
    have hzero : (0 : Int32).toInt = 0 := rfl
    unfold parseIntArg at h
    split at h
    · rename_i out hread
      cases h
      unfold fromCharsInt at hread
      by_cases hminus : text.head? = some 45
      · -- a minus sign and digits: at most 0
        simp only [hminus, if_true] at hread
        split at hread
        · cases hread
        · split at hread
          · rename_i hrange
            rw [Option.some.injEq, Prod.mk.injEq] at hread
            obtain ⟨rfl, -⟩ := hread
            rw [Int32.toInt_ofInt_of_le hrange.1 hrange.2] at hpos
            omega
          · cases hread
      · simp only [hminus, if_false] at hread
        split at hread
        · cases hread
        · rename_i hne
          split at hread
          · rename_i hrange
            rw [Option.some.injEq, Prod.mk.injEq] at hread
            obtain ⟨rfl, hrest⟩ := hread
            rw [Int32.toInt_ofInt_of_le hrange.1 hrange.2] at hpos
            -- nothing is left behind the digits: the text is decimal
            refine ⟨_, isDecimal_of_dropWhile (Bool.eq_false_iff.mpr hne) hrest, ?_, ?_, ?_⟩
            · omega
            · omega
            · exact Int32.ofInt_eq_ofNat
          · cases hread
    · cases h
  · rintro ⟨n, h, hone, hlt, rfl⟩
    have hempty : text.isEmpty = false := List.isEmpty_eq_false_iff.mpr h.ne_nil
    have hrange : -2 ^ 31 ≤ (n : Int) ∧ (n : Int) < 2 ^ 31 := by omega
    have hread : fromCharsInt text = some (Int32.ofNat n, []) := by
      unfold fromCharsInt
      simp only [h.head_ne_minus, if_false, h.takeWhile, h.dropWhile, hempty, h.value,
        Bool.false_eq_true, if_pos hrange, Int32.ofInt_eq_ofNat]
    have hvalue : parseIntArg text = some (Int32.ofNat n) := by
      unfold parseIntArg
      rw [hread]
    refine ⟨hvalue, ?_⟩
    rw [Int32.le_iff_toInt_le, Int32.toInt_ofNat_of_lt hlt]
    have hzero : (0 : Int32).toInt = 0 := rfl
    omega

theorem parsePortArg_eq_some_iff {text : Bytes} {port : UInt16} :
    parsePortArg text = some port ↔
      ∃ n, IsDecimal text n ∧ 1 ≤ n ∧ n ≤ 65535 ∧ port = UInt16.ofNat n := by
  have hlimit : (65535 : Int32).toInt = 65535 := rfl
  constructor
  · intro h
    unfold parsePortArg at h
    split at h
    · cases h
    · rename_i value hvalue
      split at h
      · cases h
      · rename_i hrange
        rw [not_or] at hrange
        cases h
        obtain ⟨n, hn, hone, hlt, rfl⟩ := parseIntArg_positive_iff.mp ⟨hvalue, hrange.1⟩
        refine ⟨n, hn, hone, ?_, ?_⟩
        · have hsmall := hrange.2
          rw [gt_iff_lt, Int32.lt_iff_toInt_lt, Int32.toInt_ofNat_of_lt hlt, hlimit] at hsmall
          omega
        · rw [Int32.toUInt32_ofNat', UInt32.toUInt16_ofNat']
  · rintro ⟨n, h, hone, hle, rfl⟩
    obtain ⟨hvalue, hpos⟩ :=
      parseIntArg_positive_iff.mpr ⟨n, h, hone, by omega, rfl⟩
    have hsmall : ¬ Int32.ofNat n > 65535 := by
      rw [gt_iff_lt, Int32.lt_iff_toInt_lt, Int32.toInt_ofNat_of_lt (by omega), hlimit]
      omega
    unfold parsePortArg
    simp only [hvalue, if_neg (not_or.mpr ⟨hpos, hsmall⟩)]
    rw [Option.some.injEq]
    rw [Int32.toUInt32_ofNat', UInt32.toUInt16_ofNat']

/-! ## The grammar -/

/-- An option with what belongs to it. -/
inductive OptionGroup where
  | benchmark
  | valued (option : ValueOption) (value : Bytes)
  deriving DecidableEq

/-- The values an option takes: any text, or a decimal in a range. -/
def ValueOption.Accepts (value : Bytes) : ValueOption → Prop
  | .port => ∃ n, IsDecimal value n ∧ 1 ≤ n ∧ n ≤ 65535
  | .workers => ∃ n, IsDecimal value n ∧ 1 ≤ n ∧ n < 2 ^ 31
  | .campaignDataPath => True
  | .benchmarkJson => True
  | .benchmarkRequests => ∃ n, IsDecimal value n ∧ 1 ≤ n ∧ n < 2 ^ 64
  | .benchmarkDurationMs => ∃ n, IsDecimal value n ∧ 1 ≤ n ∧ n < 2 ^ 64

/-- The field an option overrides, and the flag some of them set. -/
def ValueOption.override (config : ServerConfig) (value : Bytes) : ValueOption → ServerConfig
  | .port => { config with port := UInt16.ofNat (digitsValue value) }
  | .workers => { config with workers := Int32.ofNat (digitsValue value) }
  | .campaignDataPath => { config with campaignDataPath := value }
  | .benchmarkJson => { config with benchmark := true, benchmarkJsonPath := value }
  | .benchmarkRequests =>
      { config with benchmark := true, benchmarkRequests := UInt64.ofNat (digitsValue value) }
  | .benchmarkDurationMs =>
      { config with benchmark := true, benchmarkDurationMs := UInt64.ofNat (digitsValue value) }

/-- The options about the benchmark. -/
def ValueOption.isBenchmark : ValueOption → Bool
  | .port => false
  | .workers => false
  | .campaignDataPath => false
  | .benchmarkJson => true
  | .benchmarkRequests => true
  | .benchmarkDurationMs => true

namespace OptionGroup

def name : OptionGroup → Bytes
  | .benchmark => ascii "--benchmark"
  | .valued option _ => option.name

def tokens : OptionGroup → List Bytes
  | .benchmark => [ascii "--benchmark"]
  | .valued option value => [option.name, value]

def Valid : OptionGroup → Prop
  | .benchmark => True
  | .valued option value => option.Accepts value

def isBenchmark : OptionGroup → Bool
  | .benchmark => true
  | .valued option _ => option.isBenchmark

def override (config : ServerConfig) : OptionGroup → ServerConfig
  | .benchmark => { config with benchmark := true }
  | .valued option value => option.override config value

end OptionGroup

/-- The tokens of groups, one group after the other. -/
def groupTokens (groups : List OptionGroup) : List Bytes := groups.flatMap OptionGroup.tokens

/-- Later groups override earlier ones. -/
def overrideAll (config : ServerConfig) (groups : List OptionGroup) : ServerConfig :=
  groups.foldl OptionGroup.override config

/-! ## One group -/

theorem serverArg_name (option : ValueOption) : serverArg option.name = .valued option := by
  cases option <;> decide +kernel

theorem serverArg_benchmark : serverArg (ascii "--benchmark") = .benchmark := by decide +kernel

/-- A branch is taken for one name only. -/
theorem serverArg_spec (arg : Bytes) :
    match serverArg arg with
    | .help => arg = ascii "--help"
    | .benchmark => arg = ascii "--benchmark"
    | .valued option => arg = option.name
    | .unknown => True := by
  unfold serverArg
  split_ifs <;> first | assumption | trivial

theorem parseU64Arg_of_positive {value : Bytes}
    (h : ∃ n, IsDecimal value n ∧ 1 ≤ n ∧ n < 2 ^ 64) :
    parseU64Arg value = some (UInt64.ofNat (digitsValue value)) ∧
      UInt64.ofNat (digitsValue value) ≠ 0 := by
  obtain ⟨n, hn, hone, hlt⟩ := h
  rw [hn.value]
  have hnat : (UInt64.ofNat n).toNat = n := UInt64.toNat_ofNat_of_lt' hlt
  constructor
  · exact parseU64_eq_some_iff.mpr (hnat.symm ▸ hn)
  · intro hzero
    rw [hzero] at hnat
    have h0 : (0 : UInt64).toNat = 0 := rfl
    omega

theorem positive_of_parseU64Arg {value : Bytes} {number : UInt64}
    (hread : parseU64Arg value = some number) (hpos : ¬ number = 0) :
    ∃ n, IsDecimal value n ∧ 1 ≤ n ∧ n < 2 ^ 64 := by
  refine ⟨_, parseU64_eq_some_iff.mp hread, ?_, number.toNat_lt⟩
  by_contra hzero
  exact hpos (UInt64.toNat_inj.mp (by show number.toNat = 0; omega))

/-- An accepted value is read and overrides the field. -/
theorem ValueOption.read_of_accepts {option : ValueOption} {value : Bytes} (out : ServerConfig)
    (h : option.Accepts value) : option.read out value = .ok (option.override out value) := by
  cases option with
  | port =>
      obtain ⟨n, hn, hrange⟩ := h
      have hread := parsePortArg_eq_some_iff.mpr ⟨n, hn, hrange.1, hrange.2, rfl⟩
      simp only [ValueOption.read, hread, ValueOption.override, hn.value]
  | workers =>
      obtain ⟨n, hn, hrange⟩ := h
      obtain ⟨hread, hpos⟩ := parseIntArg_positive_iff.mpr ⟨n, hn, hrange.1, hrange.2, rfl⟩
      simp only [ValueOption.read, hread, if_neg hpos, ValueOption.override, hn.value]
  | campaignDataPath => rfl
  | benchmarkJson => rfl
  | benchmarkRequests =>
      obtain ⟨hread, hpos⟩ := parseU64Arg_of_positive h
      simp only [ValueOption.read, hread, if_neg hpos, ValueOption.override]
  | benchmarkDurationMs =>
      obtain ⟨hread, hpos⟩ := parseU64Arg_of_positive h
      simp only [ValueOption.read, hread, if_neg hpos, ValueOption.override]

/-- Another value is an error. -/
theorem ValueOption.accepts_of_read {option : ValueOption} {value : Bytes}
    {out out' : ServerConfig} (h : option.read out value = .ok out') : option.Accepts value := by
  cases option with
  | port =>
      simp only [ValueOption.read] at h
      split at h
      · cases h
      · rename_i number hread
        obtain ⟨n, hn, hone, hle, -⟩ := parsePortArg_eq_some_iff.mp hread
        exact ⟨n, hn, hone, hle⟩
  | workers =>
      simp only [ValueOption.read] at h
      split at h
      · cases h
      · rename_i number hread
        split at h
        · cases h
        · rename_i hpos
          obtain ⟨n, hn, hone, hlt, -⟩ := parseIntArg_positive_iff.mp ⟨hread, hpos⟩
          exact ⟨n, hn, hone, hlt⟩
  | campaignDataPath => exact trivial
  | benchmarkJson => exact trivial
  | benchmarkRequests =>
      simp only [ValueOption.read] at h
      split at h
      · cases h
      · rename_i number hread
        split at h
        · cases h
        · rename_i hpos
          exact positive_of_parseU64Arg hread hpos
  | benchmarkDurationMs =>
      simp only [ValueOption.read] at h
      split at h
      · cases h
      · rename_i number hread
        split at h
        · cases h
        · rename_i hpos
          exact positive_of_parseU64Arg hread hpos

/-- The tokens of a valid group are consumed, and its override is done. -/
theorem parseServerArgs_group {group : OptionGroup} (h : group.Valid) (rest : List Bytes)
    (out : ServerConfig) :
    parseServerArgs (group.tokens ++ rest) out = parseServerArgs rest (group.override out) := by
  cases group with
  | benchmark =>
      show parseServerArgs (ascii "--benchmark" :: rest) out = _
      rw [parseServerArgs, serverArg_benchmark]
      rfl
  | valued option value =>
      show parseServerArgs (option.name :: value :: rest) out = _
      rw [parseServerArgs, serverArg_name]
      simp only [ValueOption.read_of_accepts out h]
      rfl

/-- What is at fault where the parser stops, and the error. -/
inductive ArgFault : List Bytes → Bytes → Prop where
  | missing (option : ValueOption) :
      ArgFault [option.name] (ascii "missing value for " ++ option.name)
  | invalid (option : ValueOption) (value : Bytes) (rest : List Bytes)
      (h : ¬ option.Accepts value) :
      ArgFault (option.name :: value :: rest) (ascii "invalid value for " ++ option.name)
  | unknown (arg : Bytes) (rest : List Bytes) (hhelp : arg ≠ ascii "--help")
      (hbenchmark : arg ≠ ascii "--benchmark") (hvalued : ∀ option : ValueOption, arg ≠ option.name) :
      ArgFault (arg :: rest) (ascii "unknown argument: " ++ arg)

theorem argFault_unknown {arg : Bytes} (rest : List Bytes) (h : serverArg arg = .unknown) :
    ArgFault (arg :: rest) (ascii "unknown argument: " ++ arg) := by
  refine .unknown arg rest ?_ ?_ ?_
  · rintro rfl
    have hhelp : serverArg (ascii "--help") = .help := by decide +kernel
    rw [hhelp] at h
    cases h
  · rintro rfl
    rw [serverArg_benchmark] at h
    cases h
  · rintro option rfl
    rw [serverArg_name] at h
    cases h

/-- The parser is at the end, at `--help`, at a valid group or at a fault. -/
theorem parseServerArgs_cases (args : List Bytes) (out : ServerConfig) :
    (args = [] ∧ parseServerArgs args out = ⟨.ok, out, []⟩) ∨
      (∃ rest, args = ascii "--help" :: rest ∧
        parseServerArgs args out = ⟨.helpRequested, out, []⟩) ∨
      (∃ group rest, OptionGroup.Valid group ∧ args = group.tokens ++ rest ∧
        parseServerArgs args out = parseServerArgs rest (group.override out)) ∨
      ∃ out' error, ArgFault args error ∧
        parseServerArgs args out = ⟨.invalidArgument, out', error⟩ := by
  cases args with
  | nil => exact .inl ⟨rfl, rfl⟩
  | cons arg rest =>
      right
      -- the branch is chosen by the first argument alone
      have hspec := serverArg_spec arg
      cases hbranch : serverArg arg with
      | help =>
          rw [hbranch] at hspec
          exact .inl ⟨rest, congrArg (· :: rest) hspec, by rw [parseServerArgs, hbranch]⟩
      | benchmark =>
          rw [hbranch] at hspec
          obtain rfl : arg = ascii "--benchmark" := hspec
          exact .inr (.inl ⟨.benchmark, rest, trivial, rfl,
            parseServerArgs_group (show OptionGroup.benchmark.Valid from trivial) rest out⟩)
      | valued option =>
          rw [hbranch] at hspec
          obtain rfl : arg = option.name := hspec
          right
          cases rest with
          | nil =>
              refine .inr ⟨out, _, .missing option, ?_⟩
              rw [parseServerArgs, serverArg_name]
          | cons value rest =>
              cases hread : option.read out value with
              | ok out' =>
                  have haccepts := ValueOption.accepts_of_read hread
                  exact .inl ⟨.valued option value, rest, haccepts, rfl,
                    parseServerArgs_group (show (OptionGroup.valued option value).Valid from haccepts) rest out⟩
              | error out' =>
                  refine .inr ⟨out', _, .invalid option value rest ?_, ?_⟩
                  -- the value was not accepted, or it would have been read
                  · intro haccepts
                    rw [ValueOption.read_of_accepts out haccepts] at hread
                    cases hread
                  · rw [parseServerArgs, serverArg_name]
                    simp only [hread]
      | unknown =>
          exact .inr (.inr ⟨out, _, argFault_unknown rest hbranch, by rw [parseServerArgs, hbranch]⟩)

/-! ## Runs of groups -/

theorem groupTokens_cons (group : OptionGroup) (groups : List OptionGroup) :
    groupTokens (group :: groups) = group.tokens ++ groupTokens groups := rfl

/-- Valid groups in front are consumed one after the other. -/
theorem parseServerArgs_groups {groups : List OptionGroup} (h : ∀ g ∈ groups, g.Valid)
    (rest : List Bytes) (out : ServerConfig) :
    parseServerArgs (groupTokens groups ++ rest) out =
      parseServerArgs rest (overrideAll out groups) := by
  induction groups generalizing out with
  | nil => rfl
  | cons group groups ih =>
      rw [groupTokens_cons, List.append_assoc, parseServerArgs_group (h _ List.mem_cons_self)]
      exact ih (fun g hg => h g (List.mem_cons_of_mem _ hg)) _

/-- What stops the loop: nothing is left, `--help`, or a fault. -/
inductive ParseStop : List Bytes → ServerConfig → ParsedServerConfig → Prop where
  | ok (out : ServerConfig) : ParseStop [] out ⟨.ok, out, []⟩
  | help (rest : List Bytes) (out : ServerConfig) :
      ParseStop (ascii "--help" :: rest) out ⟨.helpRequested, out, []⟩
  | fault {args : List Bytes} {error : Bytes} (out out' : ServerConfig)
      (h : ArgFault args error) : ParseStop args out ⟨.invalidArgument, out', error⟩

/-- **The loop** consumes valid groups and stops behind them. -/
theorem parseServerArgs_run (args : List Bytes) (out : ServerConfig) :
    ∃ groups rest, (∀ g ∈ groups, OptionGroup.Valid g) ∧ args = groupTokens groups ++ rest ∧
      ParseStop rest (overrideAll out groups) (parseServerArgs args out) := by
  induction hlen : args.length using Nat.strong_induction_on generalizing args out with
  | _ n ih =>
      rcases parseServerArgs_cases args out with ⟨rfl, hend⟩ | ⟨rest, rfl, hhelp⟩ |
        ⟨group, rest, hvalid, rfl, hgroup⟩ | ⟨out', error, hfault, hstop⟩
      · exact ⟨[], [], nofun, rfl, hend ▸ .ok out⟩
      · exact ⟨[], _, nofun, rfl, hhelp ▸ .help rest out⟩
      -- a group has one token or two, so what follows is shorter
      · have hshort : rest.length < n := by
          have htokens : 0 < group.tokens.length := by
            cases group <;> exact Nat.succ_pos _
          rw [← hlen, List.length_append]
          omega
        obtain ⟨groups, rest', hall, rfl, hrun⟩ := ih _ hshort rest (group.override out) rfl
        refine ⟨group :: groups, rest', ?_, ?_, ?_⟩
        · exact List.forall_mem_cons.mpr ⟨hvalid, hall⟩
        · rw [groupTokens_cons, List.append_assoc]
        · rw [hgroup]
          exact hrun
      · exact ⟨[], args, nofun, rfl, hstop ▸ .fault out out' hfault⟩

/-! ## The order of the groups -/

/-- Options of different names override different things, or the same flag
alike. -/
theorem OptionGroup.override_comm {g g' : OptionGroup} (h : g.name ≠ g'.name)
    (config : ServerConfig) : g'.override (g.override config) = g.override (g'.override config) := by
  cases g with
  | benchmark =>
      cases g' with
      | benchmark => rfl
      | valued option' value' => cases option' <;> rfl
  | valued option value =>
      cases g' with
      | benchmark => cases option <;> rfl
      | valued option' value' =>
          -- two of one name are excluded; the others write to different fields
          cases option <;> cases option' <;> first | rfl | exact absurd rfl h

theorem overrideAll_swap (config : ServerConfig) (front back : List OptionGroup)
    {g g' : OptionGroup} (h : g.name ≠ g'.name) :
    overrideAll config (front ++ g :: g' :: back) = overrideAll config (front ++ g' :: g :: back) := by
  unfold overrideAll
  rw [List.foldl_append, List.foldl_append]
  show List.foldl _ (g'.override (g.override _)) back = List.foldl _ (g.override (g'.override _)) back
  rw [OptionGroup.override_comm h]

/-- Groups of pairwise different names may come in any order. -/
theorem overrideAll_perm (config : ServerConfig) {groups groups' : List OptionGroup}
    (hnodup : (groups.map OptionGroup.name).Nodup) (hperm : groups.Perm groups') :
    overrideAll config groups = overrideAll config groups' := by
  refine List.Perm.foldl_eq' hperm ?_ config
  intro g hg g' hg' c
  by_cases hname : g.name = g'.name
  -- equal names in a list without repetition: the same group
  · rw [List.inj_on_of_nodup_map hnodup hg hg' hname]
  · exact OptionGroup.override_comm hname c

/-! ## The configuration -/

theorem OptionGroup.override_benchmark (config : ServerConfig) (g : OptionGroup) :
    (g.override config).benchmark = (config.benchmark || g.isBenchmark) := by
  cases g with
  | benchmark => exact (Bool.or_true _).symm
  | valued option value =>
      cases option with
      | port => exact (Bool.or_false _).symm
      | workers => exact (Bool.or_false _).symm
      | campaignDataPath => exact (Bool.or_false _).symm
      | benchmarkJson => exact (Bool.or_true _).symm
      | benchmarkRequests => exact (Bool.or_true _).symm
      | benchmarkDurationMs => exact (Bool.or_true _).symm

theorem overrideAll_benchmark (config : ServerConfig) (groups : List OptionGroup) :
    (overrideAll config groups).benchmark =
      (config.benchmark || groups.any OptionGroup.isBenchmark) := by
  induction groups generalizing config with
  | nil => exact (Bool.or_false _).symm
  | cons g groups ih =>
      show (overrideAll (g.override config) groups).benchmark = _
      rw [ih, g.override_benchmark, List.any_cons, Bool.or_assoc]

theorem serverConfigError_eq_none_iff {config : ServerConfig} :
    serverConfigError config = none ↔ config.port ≠ 0 ∧ ¬ config.workers ≤ 0 := by
  unfold serverConfigError
  split_ifs with hport hworkers
  · exact iff_of_false nofun fun h => h.1 hport
  · exact iff_of_false nofun fun h => h.2 hworkers
  · exact iff_of_true rfl ⟨hport, hworkers⟩

/-- A valid group leaves nothing for `run_server` to object to. -/
theorem OptionGroup.Valid.override_noError {g : OptionGroup} (h : g.Valid) {config : ServerConfig}
    (hconfig : serverConfigError config = none) :
    serverConfigError (g.override config) = none := by
  rw [serverConfigError_eq_none_iff] at hconfig ⊢
  cases g with
  | benchmark => exact hconfig
  | valued option value =>
      cases option with
      | port =>
          obtain ⟨n, hn, hone, hle⟩ := h
          refine ⟨?_, hconfig.2⟩
          -- a port that is accepted fits 16 bits, so it does not wrap to 0
          show UInt16.ofNat (digitsValue value) ≠ 0
          intro hzero
          have hnat : (UInt16.ofNat n).toNat = n :=
            UInt16.toNat_ofNat_of_lt' (Nat.lt_of_le_of_lt hle (by decide))
          rw [hn.value] at hzero
          rw [hzero] at hnat
          have h0 : (0 : UInt16).toNat = 0 := rfl
          omega
      | workers =>
          obtain ⟨n, hn, hone, hlt⟩ := h
          refine ⟨hconfig.1, ?_⟩
          show ¬ Int32.ofNat (digitsValue value) ≤ 0
          rw [hn.value]
          exact (parseIntArg_positive_iff.mpr ⟨n, hn, hone, hlt, rfl⟩).2
      | campaignDataPath => exact hconfig
      | benchmarkJson => exact hconfig
      | benchmarkRequests => exact hconfig
      | benchmarkDurationMs => exact hconfig

theorem overrideAll_noError {groups : List OptionGroup} (h : ∀ g ∈ groups, g.Valid)
    {config : ServerConfig} (hconfig : serverConfigError config = none) :
    serverConfigError (overrideAll config groups) = none := by
  induction groups generalizing config with
  | nil => exact hconfig
  | cons g groups ih =>
      exact ih (fun g' hg' => h g' (List.mem_cons_of_mem _ hg'))
        ((h g List.mem_cons_self).override_noError hconfig)

/-! ## The command line -/

section

variable (projectSourceDir : Bytes)

theorem parseServerConfig_groups {groups : List OptionGroup} (h : ∀ g ∈ groups, g.Valid) :
    parseServerConfig projectSourceDir (groupTokens groups) =
      ⟨.ok, overrideAll (defaultServerConfig projectSourceDir) groups, []⟩ := by
  have hrun := parseServerArgs_groups h [] (defaultServerConfig projectSourceDir)
  rw [List.append_nil] at hrun
  exact hrun

/-- What is reported: success at the end of the groups, help at the first
`--help` behind them, and an error for the fault behind them. -/
theorem parseServerConfig_stop (args : List Bytes) :
    ∃ groups rest, (∀ g ∈ groups, OptionGroup.Valid g) ∧ args = groupTokens groups ++ rest ∧
      ParseStop rest (overrideAll (defaultServerConfig projectSourceDir) groups)
        (parseServerConfig projectSourceDir args) :=
  parseServerArgs_run args _

/-- **The grammar.** The status is `kOk` for the lists that are made of valid
groups, and those only. Then the configuration is the default one overridden
by the groups in order, its flag says whether a group is about the benchmark,
groups of different names may be exchanged, and `run_server` does not object. -/
theorem parseServerConfig_grammar (args : List Bytes) :
    ((parseServerConfig projectSourceDir args).status = .ok ↔
        ∃ groups, (∀ g ∈ groups, OptionGroup.Valid g) ∧ args = groupTokens groups) ∧
      (∀ groups, (∀ g ∈ groups, OptionGroup.Valid g) → args = groupTokens groups →
        (parseServerConfig projectSourceDir args).out =
            overrideAll (defaultServerConfig projectSourceDir) groups ∧
          ((parseServerConfig projectSourceDir args).out.benchmark = true ↔
            ∃ g ∈ groups, g.isBenchmark = true) ∧
          (∀ groups', groups.Perm groups' → (groups.map OptionGroup.name).Nodup →
            parseServerConfig projectSourceDir (groupTokens groups') =
              parseServerConfig projectSourceDir args) ∧
          (∀ front g g' back, groups = front ++ g :: g' :: back → g.name ≠ g'.name →
            parseServerConfig projectSourceDir (groupTokens (front ++ g' :: g :: back)) =
              parseServerConfig projectSourceDir args)) ∧
      ((parseServerConfig projectSourceDir args).status = .ok →
        serverConfigError (parseServerConfig projectSourceDir args).out = none) := by
  have hok : (parseServerConfig projectSourceDir args).status = .ok →
      ∃ groups, (∀ g ∈ groups, OptionGroup.Valid g) ∧ args = groupTokens groups := by
    intro hstatus
    obtain ⟨groups, rest, hvalid, rfl, hstop⟩ := parseServerConfig_stop projectSourceDir args
    generalize parseServerConfig projectSourceDir _ = result at hstatus hstop
    cases hstop with
    | ok => exact ⟨groups, hvalid, List.append_nil _⟩
    | help => cases hstatus
    | fault => cases hstatus
  refine ⟨⟨hok, ?_⟩, ?_, ?_⟩
  · rintro ⟨groups, hvalid, rfl⟩
    rw [parseServerConfig_groups _ hvalid]
  · rintro groups hvalid rfl
    rw [parseServerConfig_groups _ hvalid]
    refine ⟨rfl, ?_, ?_, ?_⟩
    · rw [overrideAll_benchmark]
      exact List.any_eq_true
    · intro groups' hperm hnodup
      have hvalid' : ∀ g ∈ groups', OptionGroup.Valid g := fun g hg => hvalid g (hperm.mem_iff.mpr hg)
      rw [parseServerConfig_groups _ hvalid', overrideAll_perm _ hnodup hperm]
    · rintro front g g' back rfl hname
      have hvalid' : ∀ x ∈ front ++ g' :: g :: back, OptionGroup.Valid x := by
        intro x hx
        have hperm : (front ++ g' :: g :: back).Perm (front ++ g :: g' :: back) :=
          (List.Perm.swap _ _ _).append_left front
        exact hvalid x (hperm.mem_iff.mp hx)
      rw [parseServerConfig_groups _ hvalid', overrideAll_swap _ _ _ hname]
  · intro hstatus
    obtain ⟨groups, hvalid, rfl⟩ := hok hstatus
    have hdefault : (8080 : UInt16) ≠ 0 ∧ ¬ (1 : Int32) ≤ 0 := by decide
    rw [parseServerConfig_groups _ hvalid]
    exact overrideAll_noError hvalid (serverConfigError_eq_none_iff.mpr hdefault)

end

/-- A value may look like an option, a number may have leading zeros, and the
last port counts. -/
theorem parseServerConfig_grammar_sample :
    (parseServerConfig (ascii "/srv") (["--port", "0443", "--benchmark-json", "--help",
        "--port", "9090"].map ascii)).out =
      { port := 9090, benchmark := true, benchmarkJsonPath := ascii "--help"
        campaignDataPath := ascii "/srv/data/sample_campaigns.csv" } := by
  have hvalid : ∀ g ∈ [OptionGroup.valued .port (ascii "0443"),
      .valued .benchmarkJson (ascii "--help"), .valued .port (ascii "9090")],
      OptionGroup.Valid g := by
    intro g hg
    rcases List.mem_cons.mp hg with rfl | hg
    · exact ⟨443, ⟨by decide +kernel, by decide +kernel, by decide +kernel⟩, by decide, by decide⟩
    rcases List.mem_cons.mp hg with rfl | hg
    · exact trivial
    rcases List.mem_cons.mp hg with rfl | hg
    · exact ⟨9090, ⟨by decide +kernel, by decide +kernel, by decide +kernel⟩, by decide, by decide⟩
    cases hg
  have h := ((parseServerConfig_grammar (ascii "/srv") _).2.1 _ hvalid rfl).1
  refine Eq.trans ?_ (h.trans ?_)
  · rfl
  · decide +kernel

end RtbEngine
