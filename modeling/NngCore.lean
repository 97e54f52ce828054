import NngCore.Lib.Bytes
import NngCore.Lib.Run
import NngCore.Lib.Delimited
import NngCore.Lib.Channel
import NngCore.Lib.OrderedSet
import NngCore.Lib.Interleave
import NngCore.Lib.Sweep
import NngCore.Lib.ByteVec
import NngCore.Lib.Deque
import NngCore.Lib.Deal
import NngCore.Lib.FairLock
import NngCore.Lib.Text
import NngCore.Lib.Matching
import NngCore.Ref.Message
import NngCore.Ref.Codec
import NngCore.Ref.Transport
import NngCore.Ref.Link
import NngCore.Ref.ReqRep
import NngCore.Ref.Survey
import NngCore.Ref.Socket
import NngCore.Ref.Udp
import NngCore.Ref.Pipeline
import NngCore.Ref.MessageOps
import NngCore.Ref.Pair
import NngCore.Ref.PubSub
import NngCore.Ref.ZeroCopy
import NngCore.Ref.SendRaw
import NngCore.Ref.Handshake
import NngCore.Ref.Hub
import NngCore.Ref.SurveyNet
import NngCore.Ref.Pool
import NngCore.Ref.Ws
import NngCore.Ref.Reconnect
import NngCore.Ref.Redialing
import NngCore.Ref.AnyTransport
import NngCore.Ref.Accept
import NngCore.Ref.Sub0
import NngCore.Ref.HeapMessage
import NngCore.Ref.Push0Fan
import NngCore.Ref.PipelineNet
import NngCore.Ref.PubSubNet
import NngCore.Ref.TowerSvc
import NngCore.Ref.Answering
import NngCore.Ref.Stranger
import NngCore.Ref.BusNet
import NngCore.Ref.Address
import NngCore.Ref.Joining
import NngCore.Ref.FanInNet
import NngCore.Ref.SendSide
import NngCore.Ref.PointToPoint
import NngCore.Spec.FrameStream
import NngCore.Spec.ReqRep
import NngCore.Spec.Survey
import NngCore.Spec.Request
import NngCore.Spec.Udp
import NngCore.Spec.Pipeline
import NngCore.Spec.MessageOps
import NngCore.Spec.PubSub
import NngCore.Spec.ZeroCopy
import NngCore.Spec.SendRaw
import NngCore.Spec.Handshake
import NngCore.Spec.Hub
import NngCore.Spec.SurveyNet
import NngCore.Spec.Codec
import NngCore.Spec.Pool
import NngCore.Spec.SurveyIds
import NngCore.Spec.Ws
import NngCore.Spec.Reconnect
import NngCore.Spec.GivingUp
import NngCore.Spec.Delivery
import NngCore.Spec.Accept
import NngCore.Spec.Sub0
import NngCore.Spec.HeapMessage
import NngCore.Spec.Push0Fan
import NngCore.Spec.PipelineNet
import NngCore.Spec.PubSubNet
import NngCore.Spec.TowerSvc
import NngCore.Spec.Answering
import NngCore.Spec.Stranger
import NngCore.Spec.BusNet
import NngCore.Spec.Address
import NngCore.Spec.Joining
import NngCore.Spec.FanInNet
import NngCore.Spec.PointToPoint
import NngCore.Proofs.Recv
import NngCore.Proofs.Send
import NngCore.Proofs.Session
import NngCore.Proofs.Decode
import NngCore.Proofs.Resync
import NngCore.Proofs.Width
import NngCore.Proofs.ReqRepIds
import NngCore.Proofs.Survey
import NngCore.Proofs.Request
import NngCore.Proofs.Carrier
import NngCore.Proofs.OutgoingFrames
import NngCore.Proofs.Udp
import NngCore.Proofs.Pull0Fan
import NngCore.Proofs.Backtrace
import NngCore.Proofs.MessageBuf
import NngCore.Proofs.Topics
import NngCore.Proofs.ZeroCopy
import NngCore.Proofs.FanOrder
import NngCore.Proofs.SendRaw
import NngCore.Proofs.Handshake
import NngCore.Proofs.Endpoint
import NngCore.Proofs.FanOut
import NngCore.Proofs.HubLoops
import NngCore.Proofs.RecvAny
import NngCore.Proofs.SurveyNet
import NngCore.Proofs.Codec
import NngCore.Proofs.Pooled
import NngCore.Proofs.SurveyIds
import NngCore.Proofs.Ws
import NngCore.Proofs.RoundRobin
import NngCore.Proofs.Backoff
import NngCore.Proofs.GivingUp
import NngCore.Proofs.Delivery
import NngCore.Proofs.Accept
import NngCore.Proofs.Sub0
import NngCore.Proofs.HeapMessage
import NngCore.Proofs.Push0Fan
import NngCore.Proofs.Wire
import NngCore.Proofs.PipelineNet
import NngCore.Proofs.Membership
import NngCore.Proofs.PubSubNet
import NngCore.Proofs.TowerSvc
import NngCore.Proofs.Answering
import NngCore.Proofs.Stranger
import NngCore.Proofs.BusNet
import NngCore.Proofs.Address
import NngCore.Proofs.Joining
import NngCore.Proofs.FanInNet
import NngCore.Proofs.SendSide
import NngCore.Proofs.RawSocket
import NngCore.Proofs.PointToPoint
