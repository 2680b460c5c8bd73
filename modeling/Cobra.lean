import Cobra.Lib.Machine
import Cobra.Lib.OrdSet
import Cobra.Worker
import Cobra.TimerQueue
import Cobra.TimerThreads
import Cobra.Proofs.Worker
import Cobra.Proofs.TimerQueue
import Cobra.Proofs.TimerCancel
import Cobra.Proofs.Timerfd
import Cobra.Buffer
import Cobra.Proofs.Buffer
import Cobra.Channel
import Cobra.TcpConnection
import Cobra.Proofs.TcpConnection
import Cobra.ConnThreads
import Cobra.Proofs.ConnThreads
import Cobra.ConnEvents
import Cobra.Proofs.ConnEvents
import Cobra.Poller
import Cobra.Lib.DenseTable
import Cobra.Proofs.Poller
import Cobra.ConnPoller
import Cobra.Proofs.ConnPoller
import Cobra.Proofs.WorkerThread
import Cobra.ChannelCalls
import Cobra.Proofs.EpollRun
import Cobra.Proofs.PollerRun
import Cobra.Endpoint
import Cobra.Server
import Cobra.Proofs.Server
import Cobra.Proofs.ServerLoops
import Cobra.Proofs.Descriptors
import Cobra.Connector
import Cobra.Proofs.Connector
import Cobra.Proofs.ConnectorStart
import Cobra.Proofs.TcpClient
import Cobra.Proofs.RawBuffer
import Cobra.BoundedBlockingQueue
import Cobra.Proofs.BoundedBlockingQueue
import Cobra.ThreadPool
import Cobra.Proofs.ThreadPool
import Cobra.AsyncLogging
import Cobra.Proofs.AsyncLogging
import Cobra.Proofs.AsyncStop
import Cobra.Lib.Calendar
import Cobra.LogFile
import Cobra.Proofs.LogFile
import Cobra.PollRun
import Cobra.Proofs.PollRun
import Cobra.Proofs.PollSign
import Cobra.ConnLife
import Cobra.Proofs.ConnLife
import Cobra.StringPiece
import Cobra.VecBuffer
import Cobra.Proofs.VecBuffer
import Cobra.Proofs.FindEOL
import Cobra.Proofs.BufferBound
import Cobra.BufferInts
import Cobra.Proofs.BufferInts
import Cobra.Proofs.SendPaths
import Cobra.Proofs.OutputCallbacks
import Cobra.Proofs.TimerOrder
import Cobra.Proofs.TimerOwners
import Cobra.Date
import Cobra.Proofs.Date
import Cobra.Proofs.UtcTime
import Cobra.Lib.LowerBound
import Cobra.TimeZone
import Cobra.Proofs.TimeZone
import Cobra.Proofs.LocalTime
import Cobra.Lib.ByteReader
import Cobra.ZoneFile
import Cobra.Proofs.ZoneFile
import Cobra.LogStream
import Cobra.Proofs.LogStream
import Cobra.Logging
import Cobra.Proofs.Logging
import Cobra.Lib.Search
import Cobra.FindCRLF
import Cobra.Proofs.FindCRLF
import Cobra.Convert
import Cobra.Proofs.Convert
import Cobra.SockAddr
import Cobra.Proofs.SockAddr
import Cobra.Link
import Cobra.Proofs.Link
import Cobra.Proofs.LinkConn
import Cobra.Proofs.LinkDelivery
import Cobra.EpollPoll
import Cobra.PollerDispatch
import Cobra.LogPipeline
import Cobra.Proofs.LogPipeline
import Cobra.PoolLog
import Cobra.Proofs.PoolLog
import Cobra.Proofs.PoolDrains
import Cobra.Lib.FixedWidth
import Cobra.Lib.CalendarText
import Cobra.LogTime
import Cobra.Proofs.TimeText
import Cobra.Proofs.LogTime
import Cobra.Proofs.EpollPoll
import Cobra.Proofs.PollerDispatch
import Cobra.Acceptor
import Cobra.Proofs.Acceptor
import Cobra.Mutex
import Cobra.Proofs.Mutex
import Cobra.BlockingQueue
import Cobra.Proofs.BlockingQueue
