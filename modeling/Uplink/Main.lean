import Uplink.Agent.Process
/-!
The agent on the command line.  It takes its configuration from the environment, logs to standard
output, and ends when standard input does.
-/
open Uplink

/-- The variables that the agent reads. -/
def variableNames : List String :=
  ["NE_OMC_URL", "NE_ORG_UID", "NE_UID", "NE_DISPATCH_WORKERS", "NE_DISPATCH_QUEUE_CAPACITY",
    "NE_HISTORY_CAPACITY", "NE_KPI_GRANULARITY_SECS", "NE_PUSH_TIMEOUT_SECS",
    "NE_DEMO_INTERVAL_SECS", "NE_PROXY_HTTPS", "HTTPS_PROXY", "NE_LOG_LEVEL"]

partial def waitForEnd (input : IO.FS.Stream) : IO Unit := do
  if (← input.getLine).isEmpty then return
  waitForEnd input

def main : IO Unit := do
  let values ← variableNames.mapM fun name => do
    return (name, (← IO.getEnv name).map Octets.ofText)
  let (process, level) := AgentProcess.ofEnvironment fun name => (values.lookup name).join
  (AgentProcess.shown level process.startup).forM IO.println
  if process.waits then
    waitForEnd (← IO.getStdin)
    (AgentProcess.shown level process.shutdown).forM IO.println
