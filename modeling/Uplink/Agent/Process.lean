import Uplink.Agent.Config
import Uplink.Dispatch.Dispatcher
import Uplink.Post.Address
/-!
The agent as a process: what it logs from its start to its end.
-/
namespace Uplink

inductive LogLevel where
  | debug
  | info
  | error
  deriving DecidableEq, Repr

namespace LogLevel

def name : LogLevel → String
  | .debug => "DEBUG"
  | .info => "INFO"
  | .error => "ERROR"

/-- Whether a line is shown to one who asks for a level. -/
def shown (l : LogLevel) (asked : String) : Bool :=
  match l with
  | .debug => asked == "trace" || asked == "debug"
  | .info => asked == "trace" || asked == "debug" || asked == "info"
  | .error => true

end LogLevel

/-- The agent before it waits to be interrupted and after it.  One that cannot start does not
wait. -/
structure AgentProcess where
  startup : List (LogLevel × String)
  waits : Bool
  shutdown : List (LogLevel × String)
  deriving DecidableEq, Repr

namespace AgentProcess

/-- The lines of an agent that runs, if its proxy has an address. -/
def ofConfig (c : AgentConfig) : AgentProcess :=
  let enabled := (LogLevel.debug, "Logging subsystem enabled")
  if c.httpsProxy.all Address.isProxy then
    let started :=
      (LogLevel.info, "Telemetry agent for NE " ++ c.neUid ++ " reporting to " ++ c.omcUrl)
    let demo :=
      if c.demoIntervalSecs = 0 then []
      else
        [(LogLevel.info, "Demo generator enabled, one round every "
          ++ (Duration.ofSecs c.demoIntervalSecs).text)]
    { startup := enabled :: started :: demo
      waits := true
      shutdown :=
        [(.info, "Shutting down telemetry agent"),
          (.debug, "Dispatcher totals at shutdown: " ++ ({} : Totals).text)] }
  else
    { startup :=
        [enabled,
          (.error, "Telemetry agent stopped: " ++ (AgentError.httpClient "builder error").message)]
      waits := false
      shutdown := [] }

/-- The agent in an environment, and the level it logs at. -/
def ofEnvironment (env : Environment) : AgentProcess × String :=
  match AgentConfig.load env with
  | .ok c => (ofConfig c, c.logLevel)
  | .error e =>
    ({ startup :=
         [(.debug, "Logging subsystem enabled"),
          (.error, "Error creating config on telemetry agent startup: " ++ e.message)]
       waits := false
       shutdown := [] }, ({} : AgentConfig).logLevel)

def shown (level : String) (lines : List (LogLevel × String)) : List String :=
  (lines.filter fun l => l.1.shown level).map fun l =>
    l.1.name ++ " ne_telemetry_agent: " ++ l.2

end AgentProcess

end Uplink
