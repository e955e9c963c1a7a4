import Sponge.Library.Execution
import Sponge.Library.Tiling
import Sponge.Stream.ByteStreamRuns
import Sponge.Stream.ReassemblerMemory
import Sponge.TCP.SenderEmission
import Sponge.TCP.SenderLoop
import Sponge.TCP.SenderWindow
import Sponge.TCP.ConnectionProgress
import Sponge.TCP.ReceiverRuns
import Sponge.TCP.OfficialStates
import Sponge.TCP.Retransmission
import Sponge.System.BareAcks
import Sponge.Wire.ErrorDetection
import Sponge.Wire.Listening
import Sponge.Wire.Robustness
import Sponge.Util.EventLoopRuns
import Sponge.Apps.UdpTcpdump
import Sponge.Apps.BidirectionalStreamCopy
import Sponge.Wire.TunAdapter
import Sponge.System.Sockets
import Sponge.Apps.BenchmarkRuns
