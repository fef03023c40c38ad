import Uplink.Post.Error
/-!
Settings of the delivery pipeline.  Zero asks for the default everywhere.
-/
namespace Uplink

namespace Default

def workers : Nat := 2

def queueCapacity : Nat := 500

def workerTimeout : Duration := .ofSecs 3

/-- The deadline of a push, which bounds its synchronous delivery only. -/
def pushTimeout : Duration := .ofSecs 60

def historyCapacity : Nat := 4096

def granularity : Duration := .ofSecs 60

def flushTimeout : Duration := .ofSecs 10

def kpiHistoryCapacity : Nat := 1024

end Default

/-- What the hook for failed deliveries is told of one. -/
structure DeliveryFailure where
  url : String
  error : PostError
  deriving DecidableEq, Repr

/-- A hook for failed deliveries: whether it crashes on one, also with regard to those it was told
before, the last first. -/
structure Hook where
  crashesOn : List DeliveryFailure → DeliveryFailure → Bool

namespace Hook

def notes : Hook := ⟨fun _ _ => false⟩

def crashes : Hook := ⟨fun _ _ => true⟩

end Hook

structure DispatchSettings where
  workers : Nat := Default.workers
  queueCapacity : Nat := Default.queueCapacity
  workerTimeout : Duration := Default.workerTimeout
  hook : Option Hook := none

namespace DispatchSettings

def text (s : DispatchSettings) : String :=
  "DispatcherConfig \x7b worker_count: " ++ toString s.workers ++ ", queue_capacity: "
    ++ toString s.queueCapacity ++ ", worker_timeout: " ++ s.workerTimeout.text
    ++ ", failure_hook: " ++ (if s.hook.isSome then "true" else "false") ++ " \x7d"

end DispatchSettings

structure KpiSettings where
  granularity : Duration := Default.granularity
  flushTimeout : Duration := Default.flushTimeout
  historyCapacity : Nat := Default.kpiHistoryCapacity
  deriving DecidableEq, Repr

structure Settings where
  dispatch : DispatchSettings := {}
  historyCapacity : Nat := Default.historyCapacity
  kpi : KpiSettings := {}

end Uplink
