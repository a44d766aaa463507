import MiniMuduo.InputStream
import MiniMuduo.Upkeep
import MiniMuduo.Notes
import MiniMuduo.OutputStream
import MiniMuduo.Shutdown
import MiniMuduo.CloseOnce
import MiniMuduo.Session
import MiniMuduo.Lib.BatchQueue
import MiniMuduo.EventLoop
import MiniMuduo.Lib.OrderedSet
import MiniMuduo.TimerQueue
import MiniMuduo.TimerMirror
import MiniMuduo.TimerArming
import MiniMuduo.Lib.OrderedMap
import MiniMuduo.TcpServer
import MiniMuduo.Regime
import MiniMuduo.Confinement
import MiniMuduo.Lifecycle
import MiniMuduo.Population
import MiniMuduo.Lib.Ledger
import MiniMuduo.Registry
import MiniMuduo.HalfClose
import MiniMuduo.Poller
import MiniMuduo.EventLoopThread
import MiniMuduo.Lib.Window
import MiniMuduo.TimingWheel
import MiniMuduo.UdpReceiver
import MiniMuduo.UdpRetention
import MiniMuduo.UdpSilence
import MiniMuduo.TimerLoop
import MiniMuduo.TimerSerial
import MiniMuduo.TimerCancel
import MiniMuduo.TimerExact
import MiniMuduo.BufferQueue
import MiniMuduo.PacketBufferPool
import MiniMuduo.EpollPoll
import MiniMuduo.Interruption
import MiniMuduo.Refusal
import MiniMuduo.Disabling
import MiniMuduo.Lib.Digits
import MiniMuduo.LogStream
import MiniMuduo.UdpBatch
import MiniMuduo.UdpRefinement
import MiniMuduo.TimerDue
import MiniMuduo.ConnNames
import MiniMuduo.LogFormat
import MiniMuduo.Lib.Floating
import MiniMuduo.LogFloating
import MiniMuduo.IdleTimeout
import MiniMuduo.ChannelMap
import MiniMuduo.UnsetCallbacks
import MiniMuduo.Lib.Tickets
import MiniMuduo.Throwing
import MiniMuduo.ThreadPool
import MiniMuduo.BufferSpace
import MiniMuduo.ServerQueues
import MiniMuduo.Lifetime
import MiniMuduo.EchoServer
import MiniMuduo.Draining
