import Mathlib.Algebra.Group.Int.Defs
import RtbEngine.Engine.CampaignStore

/-!
# Server configuration

`server.h` and the parts of `server.cc` that read the command line and judge
the result: `parse_server_config` with its argument parsers, and the first two
tests of `run_server`. The build's `RTB_PROJECT_SOURCE_DIR` is an argument.
-/

namespace RtbEngine

open Lib

structure ServerConfig where
  port : UInt16 := 8080
  workers : Int32 := 1
  benchmark : Bool := false
  benchmarkRequests : UInt64 := 0
  benchmarkDurationMs : UInt64 := 0
  benchmarkJsonPath : Bytes := []
  campaignDataPath : Bytes := []
  deriving DecidableEq

inductive ParseServerConfigStatus where
  | ok
  | helpRequested
  | invalidArgument
  deriving DecidableEq

def defaultCampaignDataPath (projectSourceDir : Bytes) : Bytes :=
  projectSourceDir ++ ascii "/data/sample_campaigns.csv"

/-- `from_chars` for `int`: a minus sign, no plus sign, and at least one digit. -/
def fromCharsInt (text : Bytes) : Option (Int32 × Bytes) :=
  let negative := text.head? = some 45
  let magnitude := if negative then text.drop 1 else text
  let digits := magnitude.takeWhile isDigit
  let value : Int := if negative then -digitsValue digits else digitsValue digits
  -- `from_chars` takes no plus sign and no space, so neither is looked for
  if digits.isEmpty then none
  else if -2 ^ 31 ≤ value ∧ value < 2 ^ 31 then
    some (Int32.ofInt value, magnitude.dropWhile isDigit)
  else none

def parseIntArg (text : Bytes) : Option Int32 :=
  match fromCharsInt text with
  | some (value, []) => some value
  | _ => none

/-- The same text as `parse_u64` of the campaign store. -/
def parseU64Arg (text : Bytes) : Option UInt64 := parseU64 text

def parsePortArg (text : Bytes) : Option UInt16 :=
  match parseIntArg text with
  | none => none
  | some value => if value ≤ 0 ∨ value > 65535 then none else some value.toUInt32.toUInt16

/-- The status, with what `out` and `error` are left at. -/
structure ParsedServerConfig where
  status : ParseServerConfigStatus
  out : ServerConfig
  error : Bytes
  deriving DecidableEq

/-- The options that take a value. -/
inductive ValueOption where
  | port
  | workers
  | campaignDataPath
  | benchmarkJson
  | benchmarkRequests
  | benchmarkDurationMs
  deriving DecidableEq

def ValueOption.name : ValueOption → Bytes
  | .port => ascii "--port"
  | .workers => ascii "--workers"
  | .campaignDataPath => ascii "--campaign-data-path"
  | .benchmarkJson => ascii "--benchmark-json"
  | .benchmarkRequests => ascii "--benchmark-requests"
  | .benchmarkDurationMs => ascii "--benchmark-duration-ms"

/-- The branches of the loop over the arguments. -/
inductive ServerArg where
  | help
  | benchmark
  | valued (option : ValueOption)
  | unknown
  deriving DecidableEq

/-- The comparisons that choose the branch. -/
def serverArg (arg : Bytes) : ServerArg :=
  if arg = ascii "--help" then .help
  else if arg = ascii "--benchmark" then .benchmark
  else if arg = ascii "--port" then .valued .port
  else if arg = ascii "--workers" then .valued .workers
  else if arg = ascii "--campaign-data-path" then .valued .campaignDataPath
  else if arg = ascii "--benchmark-json" then .valued .benchmarkJson
  else if arg = ascii "--benchmark-requests" then .valued .benchmarkRequests
  else if arg = ascii "--benchmark-duration-ms" then .valued .benchmarkDurationMs
  else .unknown

/-- The branch of an option, once there is a value: the configuration to go on
with, or the one that is left when the value is invalid. A number is stored
before it is compared with 0. -/
def ValueOption.read (out : ServerConfig) (value : Bytes) :
    ValueOption → Except ServerConfig ServerConfig
  | .port =>
      match parsePortArg value with
      | none => .error out
      | some number => .ok { out with port := number }
  | .workers =>
      match parseIntArg value with
      | none => .error out
      | some number =>
          let out := { out with workers := number }
          if number ≤ 0 then .error out else .ok out
  | .campaignDataPath => .ok { out with campaignDataPath := value }
  | .benchmarkJson => .ok { out with benchmark := true, benchmarkJsonPath := value }
  | .benchmarkRequests =>
      match parseU64Arg value with
      | none => .error out
      | some number =>
          let out := { out with benchmarkRequests := number }
          if number = 0 then .error out else .ok { out with benchmark := true }
  | .benchmarkDurationMs =>
      match parseU64Arg value with
      | none => .error out
      | some number =>
          let out := { out with benchmarkDurationMs := number }
          if number = 0 then .error out else .ok { out with benchmark := true }

/-- The loop over the arguments. -/
def parseServerArgs : List Bytes → ServerConfig → ParsedServerConfig
  | [], out => ⟨.ok, out, []⟩
  | arg :: rest, out =>
      match serverArg arg with
      | .help => ⟨.helpRequested, out, []⟩
      | .benchmark => parseServerArgs rest { out with benchmark := true }
      | .valued option =>
          match rest with
          | [] => ⟨.invalidArgument, out, ascii "missing value for " ++ option.name⟩
          | value :: rest =>
              match option.read out value with
              | .error out => ⟨.invalidArgument, out, ascii "invalid value for " ++ option.name⟩
              | .ok out => parseServerArgs rest out
      | .unknown => ⟨.invalidArgument, out, ascii "unknown argument: " ++ arg⟩

/-- The configuration before any argument is read. -/
def defaultServerConfig (projectSourceDir : Bytes) : ServerConfig :=
  { campaignDataPath := defaultCampaignDataPath projectSourceDir }

def parseServerConfig (projectSourceDir : Bytes) (args : List Bytes) : ParsedServerConfig :=
  parseServerArgs args (defaultServerConfig projectSourceDir)

/-- The error `run_server` logs before it touches anything else, if any. -/
def serverConfigError (config : ServerConfig) : Option Bytes :=
  if config.port = 0 then some (ascii "Server port must be non-zero")
  else if config.workers ≤ 0 then some (ascii "Worker count must be positive")
  else none

end RtbEngine
