/-
# Data models, enums and exception types

The records of `daemon/models.py` that the modelled functions build and read,
with their defaults. A field constraint of the source (`ge`, `le`) is a field
of the record here, so a record that fails its own validation cannot be built.
Integers are unbounded as in the source; floating-point parameters are
rationals, since nothing computes with them.

Key definitions: `TokenChunk`, `InferenceSession`, `NodeLifecycleState`,
`MessageType`, `FrameFlags`, `PreemptionEvent`, `HandoverInit`, `HandoverAck`,
`HandoverNack`, `Exc`.
-/
import Sgm.Lib.PyStr

namespace Sgm

/-- A byte string. -/
abbrev Bytes := List UInt8

/-! ### Enums -/

/-- The states of a spot node. -/
inductive NodeLifecycleState
  | healthy | preemptionDetected | bufferingIngress | stateStreaming | handoverComplete | terminated
  deriving DecidableEq, Repr

/-- The lifecycle in the order of the enumeration. -/
def NodeLifecycleState.lifecycle : List NodeLifecycleState :=
  [.healthy, .preemptionDetected, .bufferingIngress, .stateStreaming, .handoverComplete, .terminated]

namespace MessageType

def handoverInit : ℕ := 0x01
def requestState : ℕ := 0x02
def handoverFin : ℕ := 0x05
def handoverAck : ℕ := 0x06
def handoverNack : ℕ := 0x07
def heartbeat : ℕ := 0x08

end MessageType

namespace FrameFlags

def none : ℕ := 0x0000
def isCompressed : ℕ := 0x0001
def isLastChunk : ℕ := 0x0002

end FrameFlags

/-! ### Exceptions -/

/-- The exceptions the modelled code tells apart; `exception` is any other. -/
inductive Exc
  | tokenSequenceGapError (msg : String)
  | clientDisconnectedError (msg : String)
  | crc32VerificationError (msg : String)
  | p2pConnectionFailedError (msg : String)
  | connectionResetError
  | brokenPipeError
  | timeoutError
  | incompleteReadError
  | valueError (msg : String)
  | exception (msg : String)
  deriving DecidableEq, Repr

/-! ### Preemption -/

/-- A notice of preemption. -/
structure PreemptionEvent where
  provider : String
  action : PyStr := "terminate"
  deadlineSeconds : ℚ := 30
  deriving DecidableEq

/-- What a node tells the proxy of its preemption. -/
structure PreemptionAlertPayload where
  nodeId : String
  provider : String
  deadlineSeconds : ℚ
  cutoffSequenceId : ℤ := -1
  activeRequestIds : List String := []
  timestampNs : ℤ
  deriving DecidableEq

/-! ### Inference state -/

structure SamplingParams where
  temperature : ℚ := 7 / 10
  topP : ℚ := 95 / 100
  maxTokens : ℤ := 512
  stop : List PyStr := ["<|eot_id|>", "</s>"]
  presencePenalty : ℚ := 0
  frequencyPenalty : ℚ := 0
  temperature_range : 0 ≤ temperature ∧ temperature ≤ 2 := by norm_num
  topP_range : 0 ≤ topP ∧ topP ≤ 1 := by norm_num
  maxTokens_pos : 1 ≤ maxTokens := by norm_num
  deriving DecidableEq

def SamplingParams.default : SamplingParams := {}

structure KVCacheRef where
  blockIds : List ℤ := []
  layerStride : ℤ := 0
  numLayers : ℤ := 0
  deriving DecidableEq

/-- Snapshot of an in-flight inference request. -/
structure InferenceSession where
  requestId : String
  clientConnectionId : String := ""
  model : PyStr := .ofString "meta-llama/Llama-3-8b-instruct"
  prompt : PyStr := []
  promptTokens : List ℤ := []
  samplingParams : SamplingParams := .default
  generatedTokens : List ℤ := []
  generatedText : List PyStr := []
  lastFlushedSequenceId : ℤ := -1
  totalTokensGenerated : ℤ := 0
  isStreaming : Bool := true
  streamCutoffTimestampNs : ℤ := 0
  kvCache : Option KVCacheRef := none
  deriving DecidableEq

/-- A parsed SSE token chunk. -/
structure TokenChunk where
  requestId : String
  sequenceId : ℤ
  token : PyStr
  tokenId : ℤ := 0
  isFinal : Bool := false
  rawBytes : Bytes := []
  deriving DecidableEq, Repr

/-! ### Handover payloads -/

structure HandoverInit where
  protocolVersion : String := "1.0"
  sourceNodeId : String
  targetNodeId : String
  preemptionDeadlineUtc : String := ""
  activeRequestCount : ℤ := 0
  timestampNs : ℤ
  deriving DecidableEq

structure HandoverAck where
  sourceNodeId : String
  acceptedRequestIds : List String := []
  rejectedRequestIds : List String := []
  standbyReadyTimestampNs : ℤ
  resumePort : ℤ := 8002
  deriving DecidableEq

structure HandoverNack where
  sourceNodeId : String
  errorCode : ℤ := 1
  errorMessage : String := "Unknown error"
  timestampNs : ℤ
  deriving DecidableEq

/-- What the standby tells the proxy when it is ready for a request. -/
structure HandoverReadyPayload where
  requestId : String
  startingSequenceId : ℤ
  resumeHost : String := "127.0.0.1"
  resumePort : ℤ := 8002
  timestampNs : ℤ
  deriving DecidableEq

end Sgm
