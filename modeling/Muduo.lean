import Muduo.Lib.Transition
import Muduo.Lib.Memory
import Muduo.Lib.Ledger
import Muduo.Lib.OrderedSet
import Muduo.Lib.Objects
import Muduo.Lib.Format
import Muduo.Lib.Pipe
import Muduo.Lib.RoundRobin
import Muduo.SysCall
import Muduo.Buffer
import Muduo.BufferQueue
import Muduo.RetrieveAsString
import Muduo.BufferMemory
import Muduo.BufferWidth
import Muduo.Channel
import Muduo.EPollPoller
import Muduo.PollerRegistration
import Muduo.QuietChannel
import Muduo.TcpConnection
import Muduo.OutputStream
import Muduo.WriteInterest
import Muduo.Notifications
import Muduo.FunctorQueue
import Muduo.Wakeup
import Muduo.Quit
import Muduo.EventLoopThread
import Muduo.StartLoop
import Muduo.ThreadPool
import Muduo.LoopIteration
import Muduo.SendOrder
import Muduo.TimerSchedule
import Muduo.Conversation
import Muduo.StreamEnd
import Muduo.LoadBalance
import Muduo.AddressText
import Muduo.TimerQueue
import Muduo.TimerLoop
import Muduo.TimerFiring
import Muduo.TimerArming
import Muduo.RunAfter
import Muduo.RunAt
import Muduo.ConnectionLoop
import Muduo.GracefulShutdown
import Muduo.CallbackProtocol
import Muduo.ConnectionCall
import Muduo.OutOfOrder
import Muduo.DestroyedConnection
import Muduo.ConnectionState
import Muduo.BorrowedString
import Muduo.InetAddress
import Muduo.TcpServer
import Muduo.PollerCalls
import Muduo.ConnectionDown
import Muduo.ServerLoops
import Muduo.Confinement
import Muduo.ServerDown
import Muduo.Connector
import Muduo.ConnectorLoop
import Muduo.SocketAccounting
import Muduo.ConnectorCall
import Muduo.OnceStarted
import Muduo.TcpClient
import Muduo.ClientSlot
import Muduo.ClientDown
import Muduo.ConnectionOwners
import Muduo.FreedConnection
import Muduo.ClientTeardown
import Muduo.LiveObjects
import Muduo.ActivePass
import Muduo.RemovedChannel
import Muduo.CallbackSlots
import Muduo.ServerCallbacks
import Muduo.ClientCallbacks
import Muduo.UnsetCallbacks
import Muduo.ConnectionStreams
import Muduo.EndToEnd
import Muduo.Delivery
import Muduo.PollRounds
