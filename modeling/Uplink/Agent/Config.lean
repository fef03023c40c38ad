import Uplink.Post.Error
import Uplink.Record.Basic
import Uplink.Settings
import Uplink.Text.Blank
import Uplink.Text.LowerCase
/-!
Configuration of the agent from its environment.
-/
namespace Uplink

/-- The octets of each variable that is set. -/
abbrev Environment := String → Option Octets

namespace Environment

/-- A variable that is no text counts as unset. -/
def text? (env : Environment) (name : String) : Option String := (env name).bind Octets.text?

/-- A natural number below 2^64 in ASCII digits, with or without a plus sign. -/
def word? (cs : List Char) : Option UInt64 :=
  let digits :=
    match cs with
    | '+' :: rest => rest
    | cs => cs
  if digits.isEmpty || !digits.all Char.isDigit then none
  else
    let n := digits.foldl (fun n c => 10 * n + (c.toNat - 48)) 0
    if n < UInt64.size then some (UInt64.ofNat n) else none

/-- The number in a variable, blanks around it aside; anything else gives the default. -/
def wordOr (env : Environment) (name : String) (default : UInt64) : UInt64 :=
  ((env.text? name).bind fun s => word? (Text.trimChars s.toList)).getD default

end Environment

structure AgentConfig where
  omcUrl : String := "http://127.0.0.1:33030"
  orgUid : String := "4400HX1"
  neUid : String := "4400HX1NE001"
  dispatchWorkers : UInt64 := 2
  dispatchQueueCapacity : UInt64 := 500
  historyCapacity : UInt64 := 4096
  kpiGranularitySecs : UInt64 := 60
  pushTimeoutSecs : UInt64 := 60
  demoIntervalSecs : UInt64 := 0
  httpsProxy : Option String := none
  logLevel : String := "info"
  deriving DecidableEq, Repr

namespace AgentConfig

def logLevels : List String := ["trace", "debug", "info", "warn", "error"]

/-- The first condition that fails is reported. -/
def validate (c : AgentConfig) : Except AgentError Unit :=
  let url := Text.trimChars c.omcUrl.toList
  if url.isEmpty then .error (.invalidConfig "NE_OMC_URL cannot be empty")
  else if !"http://".toList.isPrefixOf url && !"https://".toList.isPrefixOf url then
    .error (.invalidConfig
      ("NE_OMC_URL must be an http(s) URL, got '" ++ String.ofList url ++ "'"))
  else if (Text.trimChars c.neUid.toList).isEmpty then
    .error (.invalidConfig "NE_UID cannot be empty")
  else if !logLevels.contains c.logLevel then
    .error (.invalidConfig
      ("Invalid log level '" ++ c.logLevel ++ "'. Must be one of: "
        ++ ", ".intercalate logLevels))
  else .ok ()

def ofEnvironment (env : Environment) : AgentConfig where
  omcUrl := (env.text? "NE_OMC_URL").getD ({} : AgentConfig).omcUrl
  orgUid := (env.text? "NE_ORG_UID").getD ({} : AgentConfig).orgUid
  neUid := (env.text? "NE_UID").getD ({} : AgentConfig).neUid
  dispatchWorkers := env.wordOr "NE_DISPATCH_WORKERS" ({} : AgentConfig).dispatchWorkers
  dispatchQueueCapacity :=
    env.wordOr "NE_DISPATCH_QUEUE_CAPACITY" ({} : AgentConfig).dispatchQueueCapacity
  historyCapacity := env.wordOr "NE_HISTORY_CAPACITY" ({} : AgentConfig).historyCapacity
  kpiGranularitySecs := env.wordOr "NE_KPI_GRANULARITY_SECS" ({} : AgentConfig).kpiGranularitySecs
  pushTimeoutSecs := env.wordOr "NE_PUSH_TIMEOUT_SECS" ({} : AgentConfig).pushTimeoutSecs
  demoIntervalSecs := env.wordOr "NE_DEMO_INTERVAL_SECS" ({} : AgentConfig).demoIntervalSecs
  httpsProxy := (env.text? "NE_PROXY_HTTPS").or (env.text? "HTTPS_PROXY")
  logLevel := ((env.text? "NE_LOG_LEVEL").map Text.lower).getD ({} : AgentConfig).logLevel

/-- The configuration an environment asks for, if it is valid. -/
def load (env : Environment) : Except AgentError AgentConfig := do
  let c := ofEnvironment env
  c.validate
  return c

/-- Settings of the pipeline; zeros are left to it. -/
def settings (c : AgentConfig) : Settings where
  dispatch :=
    { workers := c.dispatchWorkers.toNat, queueCapacity := c.dispatchQueueCapacity.toNat }
  historyCapacity := c.historyCapacity.toNat
  kpi := { granularity := .ofSecs c.kpiGranularitySecs }

/-- What is logged: the agent at its level, and nothing of the layers below it. -/
def logFilter (c : AgentConfig) : String :=
  "h2=off,hyper=off,rustls=off,reqwest=off," ++ c.logLevel

def pushTimeout (c : AgentConfig) : Duration := .ofSecs c.pushTimeoutSecs

/-- The base URL, without blanks around it and slashes at its end. -/
def baseUrl (c : AgentConfig) : List Char :=
  Text.dropEnd (· = '/') (Text.trimChars c.omcUrl.toList)

def endpoint (c : AgentConfig) (path : String) : String :=
  String.ofList c.baseUrl ++ "/upload-ne/v1/" ++ path

end AgentConfig

end Uplink
