import Uplink.Post.Status
import Uplink.Time.Duration
/-!
How a delivery can fail, and the wording of it.
-/
namespace Uplink

inductive PostError where
  | transport (reason : String)
  | status (s : Status)
  | timeout (deadline : Duration)
  deriving DecidableEq, Repr

namespace PostError

def message : PostError → String
  | .transport reason => "transport error: " ++ reason
  | .status s => "unexpected status " ++ s.text
  | .timeout d => "deadline of " ++ d.text ++ " exceeded"

end PostError

/-- What a caller of a push can be told: the payload cannot be serialized, or its synchronous
delivery failed. -/
inductive DispatchError where
  | payload (reason : String)
  | fallbackFailed (url : String) (source : PostError)
  deriving DecidableEq, Repr

namespace DispatchError

/-- A map whose keys are no texts cannot be written. -/
def badKey : DispatchError := .payload "key must be a string"

def message : DispatchError → String
  | .payload reason => "failed to serialize payload: " ++ reason
  | .fallbackFailed url source => "fallback delivery to " ++ url ++ " failed: " ++ source.message

def source : DispatchError → String
  | .payload reason => reason
  | .fallbackFailed _ source => source.message

def isFallbackFailure : DispatchError → Bool
  | .payload _ => false
  | .fallbackFailed _ _ => true

end DispatchError

inductive AgentError where
  | invalidConfig (reason : String)
  | httpClient (reason : String)
  deriving DecidableEq, Repr

namespace AgentError

def message : AgentError → String
  | .invalidConfig reason => "Invalid configuration: " ++ reason
  | .httpClient reason => "Failed to build HTTP client: " ++ reason

end AgentError

end Uplink
