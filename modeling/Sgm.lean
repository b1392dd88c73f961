import Sgm.Lib.Machine
import Sgm.Lib.InOrder
import Sgm.Lib.Dict
import Sgm.Lib.Text
import Sgm.Lib.Json
import Sgm.Models
import Sgm.Proxy.Buffer
import Sgm.Proxy.Upstream
import Sgm.Proxy.Sse
import Sgm.Proxy.Ingress
import Sgm.Simulator.MockEngine
import Sgm.Proxy.Moves
import Sgm.Proxy.ExactlyOnce
import Sgm.Proxy.Swap
import Sgm.Proxy.ZeroLoss
import Sgm.Proxy.EndOfGeneration
import Sgm.Proxy.Course
import Sgm.Proxy.Migration
import Sgm.Proxy.Resumption
import Sgm.Lib.Crc32
import Sgm.Protocol.Framing
import Sgm.Protocol.Decoding
import Sgm.Transport.P2p
import Sgm.Transport.Frames
import Sgm.Transport.Handover
import Sgm.Transport.Progress
import Sgm.Transport.Acknowledged
import Sgm.Core.NodeDaemon
import Sgm.Transport.Adoption
import Sgm.Transport.Retransmission
import Sgm.Core.Lifecycle
import Sgm.Core.LeftBehind
import Sgm.Core.Registry
import Sgm.Integrations.StopFilter
import Sgm.Integrations.Payload
import Sgm.Lib.Consumer
import Sgm.Protocol.Stream
import Sgm.Proxy.Alerts
import Sgm.Proxy.Cleanup
import Sgm.Proxy.Noninterference
import Sgm.Proxy.ReplayWindow
import Sgm.Proxy.SseFormat
import Sgm.Proxy.FinishReason
import Sgm.Proxy.Cutoff
import Sgm.Memory.Session
import Sgm.Memory.SendHandover
import Sgm.Memory.Unhindered
import Sgm.Watchdog.Runpod
import Sgm.Transport.Undecodable
import Sgm.Lib.Utf8
import Sgm.Integrations.Streaming
import Sgm.Integrations.Multibyte
import Sgm.Integrations.Abort
import Sgm.Lib.Dialogue
import Sgm.Simulator.CloudMetadata
import Sgm.Watchdog.Aws
import Sgm.Watchdog.Gcp
import Sgm.Watchdog.PollLoop
import Sgm.Transport.Callbacks
import Sgm.Core.Fleet
import Sgm.Core.Completion
import Sgm.Core.Cluster
import Sgm.Proxy.Assured
import Sgm.Core.Response
import Sgm.Proxy.Reported
import Sgm.Core.Announced
import Sgm.Simulator.EngineServer
import Sgm.Integrations.EngineControl
import Sgm.Integrations.Continuation
import Sgm.Integrations.Factory
