import Crablib.AcceptedProofs
import Crablib.AddressProofs
import Crablib.AlikeProofs
import Crablib.AnsweringProofs
import Crablib.ArrivalProofs
import Crablib.Base64Proofs
import Crablib.BodyPositionProofs
import Crablib.BodyTerminatorProofs
import Crablib.BodyTextProofs
import Crablib.BufferProofs
import Crablib.Bytes
import Crablib.ChunkProofs
import Crablib.ClientHistoryProofs
import Crablib.ClientProgressProofs
import Crablib.ClientRun
import Crablib.CloseNoticeProofs
import Crablib.CloseTextProofs
import Crablib.CodingProofs
import Crablib.CombinedProofs
import Crablib.ContainmentProofs
import Crablib.ContinuationProofs
import Crablib.ConversationProofs
import Crablib.CookieProofs
import Crablib.CopiesProofs
import Crablib.CrcProofs
import Crablib.Crypto.Base64
import Crablib.Crypto.BlockHash
import Crablib.Crypto.Crc32
import Crablib.Crypto.InPlace
import Crablib.Crypto.Md5
import Crablib.Crypto.Sha1
import Crablib.DecodableProofs
import Crablib.DeliveryProofs
import Crablib.DigestProofs
import Crablib.DnsProofs
import Crablib.DotSegmentProofs
import Crablib.DraftProofs
import Crablib.DrainProofs
import Crablib.EncoderProofs
import Crablib.EndpointProofs
import Crablib.Exchange
import Crablib.FrameHeaderProofs
import Crablib.FrameProofs
import Crablib.FramingProofs
import Crablib.HashProofs
import Crablib.HeaderProofs
import Crablib.HeaderTextProofs
import Crablib.HearingProofs
import Crablib.HeldProofs
import Crablib.HistoryProofs
import Crablib.Http.BodyParser
import Crablib.Http.BodyPosition
import Crablib.Http.ClientConnection
import Crablib.Http.ClientRequest
import Crablib.Http.Copies
import Crablib.Http.HeaderLines
import Crablib.Http.MaskData
import Crablib.Http.QueryParser
import Crablib.Http.RequestParser
import Crablib.Http.ResponseParser
import Crablib.Http.Server
import Crablib.Http.ServerConnection
import Crablib.Http.Types
import Crablib.Http.WebMessageParser
import Crablib.Http.WebReader
import Crablib.InboundProofs
import Crablib.IntegerCast
import Crablib.IntegerProofs
import Crablib.IntegerSaver
import Crablib.IntegerSaverProofs
import Crablib.IntrusiveHeapProofs
import Crablib.IntrusiveListProofs
import Crablib.LegibleProofs
import Crablib.Library.Blocks
import Crablib.Library.Crc
import Crablib.Library.Cutting
import Crablib.Library.Digests
import Crablib.Library.Folds
import Crablib.Library.Loops
import Crablib.Library.Memory
import Crablib.Library.Rings
import Crablib.Library.Run
import Crablib.Library.Scanner
import Crablib.Library.Sift
import Crablib.Library.Sines
import Crablib.Library.Wire
import Crablib.ListLayoutProofs
import Crablib.Listener
import Crablib.ListenerProofs
import Crablib.LockstepProofs
import Crablib.MaskProofs
import Crablib.Network.Address
import Crablib.Network.BufferedTcpSocket
import Crablib.Network.DnsResolver
import Crablib.Network.IntrusiveHeap
import Crablib.Network.IntrusiveList
import Crablib.Network.IntrusiveNodes
import Crablib.Network.RunLoop
import Crablib.Network.Streams
import Crablib.Network.TcpSocket
import Crablib.Network.Timer
import Crablib.Network.Watcher
import Crablib.NumeralProofs
import Crablib.OutgoingProofs
import Crablib.PairingProofs
import Crablib.ParserProofs
import Crablib.PersistenceProofs
import Crablib.PipelineProofs
import Crablib.ProgressProofs
import Crablib.QueryProofs
import Crablib.ReceivingProofs
import Crablib.RecordingProofs
import Crablib.RequestFramingProofs
import Crablib.RequestLineProofs
import Crablib.RequestRun
import Crablib.RequestRunProofs
import Crablib.RequestStreamProofs
import Crablib.RequestTextProofs
import Crablib.ResponseStreamProofs
import Crablib.ResponseTextProofs
import Crablib.ResponseWriteProofs
import Crablib.RetentionProofs
import Crablib.ReuseProofs
import Crablib.RunLoopProofs
import Crablib.ServerConnectionProofs
import Crablib.ServerEndProofs
import Crablib.ServerHistoryProofs
import Crablib.ServerProgressProofs
import Crablib.ServerRun
import Crablib.SleepProofs
import Crablib.SocketProofs
import Crablib.SocketRunProofs
import Crablib.SpeakingProofs
import Crablib.StreamingProofs
import Crablib.StreamsProofs
import Crablib.TargetProofs
import Crablib.TerminatorProofs
import Crablib.TimerProofs
import Crablib.UpgradeStreamProofs
import Crablib.UriPartsProofs
import Crablib.UriProofs
import Crablib.UriRequestProofs
import Crablib.Utf8
import Crablib.Utf8Proofs
import Crablib.VersionProofs
import Crablib.WatcherProofs
import Crablib.WebCallsProofs
import Crablib.WebModeProofs
import Crablib.WebStreamProofs
