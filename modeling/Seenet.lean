import Seenet.Lib.Machine
import Seenet.Lib.Region
import Seenet.Lib.ByteOrder
import Seenet.Lib.BatchQueue
import Seenet.Lib.Index
import Seenet.Lib.Decimal
import Seenet.Lib.Occurrence
import Seenet.Lib.RoundRobin
import Seenet.Lib.SharedOwnership
import Seenet.Basic
import Seenet.Kernel
import Seenet.Util.Endian
import Seenet.Util.InetAddress
import Seenet.Util.AddressText
import Seenet.Buffer.Basic
import Seenet.Buffer.Spec
import Seenet.Buffer.Refinement
import Seenet.Buffer.Codec
import Seenet.Buffer.Growth
import Seenet.Buffer.Search
import Seenet.Channel
import Seenet.Poller.EPollPoller
import Seenet.Poller.Coherence
import Seenet.Poller.Interest
import Seenet.EventLoop.Basic
import Seenet.EventLoop.TaskQueue
import Seenet.EventLoop.Wakeup
import Seenet.EventLoop.Quit
import Seenet.EventLoopThread.Basic
import Seenet.EventLoopThread.Protocol
import Seenet.EventLoopThread.Quit
import Seenet.TimerQueue.Basic
import Seenet.TimerQueue.Agreement
import Seenet.TimerQueue.Ownership
import Seenet.TcpConnection.Basic
import Seenet.TcpConnection.Spec
import Seenet.TcpConnection.Steps
import Seenet.TcpConnection.WriteInterest
import Seenet.TcpConnection.Shutdown
import Seenet.TcpConnection.Stream
import Seenet.TcpConnection.DirectWrite
import Seenet.TcpConnection.Notifications
import Seenet.TcpConnection.Round
import Seenet.TcpConnection.Passes
import Seenet.TcpConnection.Quiet
import Seenet.TcpConnection.Close
import Seenet.TcpConnection.Lifecycle
import Seenet.TcpConnection.Absorbing
import Seenet.TcpConnection.StaysOut
import Seenet.TcpConnection.Teardown
import Seenet.EventLoopThreadPool
import Seenet.TcpServer.Basic
import Seenet.TcpServer.Confinement
import Seenet.TcpServer.Distribution
import Seenet.TcpServer.Table
import Seenet.TcpServer.Start
import Seenet.TcpServer.Destruction
import Seenet.Poller.Turnover
import Seenet.TcpConnection.Frame
import Seenet.System.Basic
import Seenet.System.Wiring
import Seenet.System.Ownership
import Seenet.System.Steps
import Seenet.TcpConnection.Firm
import Seenet.System.Safety
import Seenet.System.Steady
import Seenet.System.Streams
import Seenet.Lib.Fifo
import Seenet.System.Input
import Seenet.TcpConnection.Stage
import Seenet.System.Plain
import Seenet.System.Stages
import Seenet.System.Rounds
import Seenet.System.Threads
import Seenet.System.Output
import Seenet.System.Progress
import Seenet.Acceptor.Basic
import Seenet.Acceptor.Descriptors
import Seenet.Acceptor.Connections
import Seenet.Acceptor.IdleFd
import Seenet.System.Entry
import Seenet.System.Echo
