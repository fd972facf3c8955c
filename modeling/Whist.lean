import Whist.Network.TcpDelivery
import Whist.Network.TcpSend
import Whist.Server.ClientExclusion
import Whist.Server.RwLock
import Whist.File.FileTransfers
import Whist.Client.FrameLifetime
import Whist.Network.VideoOrder
import Whist.Cursor.CursorSync
import Whist.File.FileRoles
import Whist.Scaling.AwsHost
import Whist.Scaling.DrainingEvents
import Whist.Server.VideoHandoff
import Whist.Network.StreamReset
import Whist.Scaling.AssignMatch
import Whist.Scaling.HttpServer
import Whist.Host.ArchiveConfinement
import Whist.Host.ArchiveRoundTrip
import Whist.Client.DecoderLifetime
import Whist.Input.InputOrder
import Whist.Video.Decoder
import Whist.File.FileDrop
import Whist.Teleport.StartupScan
import Whist.Server.DroppedFrames
import Whist.Server.EncoderReferences
import Whist.Input.SyncConvergence
import Whist.Core.Features
import Whist.Cursor.Frontends
import Whist.Client.VirtualLifecycle
import Whist.Client.WindowCallbacks
import Whist.Client.Downloads
import Whist.Client.PendingFramebuffer
import Whist.Client.WindowDimensions
import Whist.Input.MouseMotion
import Whist.Network.GroupDelays
import Whist.Video.ResourceCache
import Whist.Scaling.SessionSafety
import Whist.Client.PipedArguments
import Whist.Client.PortMappings
import Whist.Network.FailedSend
import Whist.Utils.PngRoundTrip
import Whist.Video.FramePayload
import Whist.Logging.LogMessages
import Whist.Logging.LoggerSafety
import Whist.Utils.CommandLineGrammar
import Whist.Client.AudioBuffering
import Whist.Scaling.DrainFinality
import Whist.Fec.ExtraFec
import Whist.Fec.LossSamples
import Whist.Network.BitrateDecrease
import Whist.Network.ThrottleWait
import Whist.Clipboard.ChunkTransfer
import Whist.Fec.SlidingWindow
import Whist.Network.NackBudget
import Whist.Network.NackCap
import Whist.Network.PacketLoss
import Whist.Video.LtrOutstanding
import Whist.Scaling.CapacityChecks
import Whist.Scaling.Protection
import Whist.Core.WhistString
import Whist.Utils.LinkedList
import Whist.Fec.GroupPlan
import Whist.File.MutexBalance
import Whist.Utils.AesPackets
import Whist.Utils.Queue
import Whist.Host.TransportAnswers
import Whist.Network.EndToEnd
import Whist.Video.LtrDelivery
