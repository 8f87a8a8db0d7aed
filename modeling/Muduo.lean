import Muduo.Base.Correctness.AsyncLogging
import Muduo.Base.Correctness.BlockingQueue
import Muduo.Base.Correctness.BoundedBlockingQueue
import Muduo.Base.Correctness.CountDownLatch
import Muduo.Base.Correctness.LogFile
import Muduo.Base.Correctness.Logging
import Muduo.Base.Correctness.ThreadPool
import Muduo.Examples.Chat.Codec
import Muduo.Examples.Chat.Server
import Muduo.Examples.Correctness.ChatCodec
import Muduo.Examples.Correctness.ChatServer
import Muduo.Examples.Correctness.HubClient
import Muduo.Examples.Correctness.HubCodec
import Muduo.Examples.Correctness.HubRuns
import Muduo.Examples.Correctness.HubServer
import Muduo.Examples.Correctness.IdleConnection
import Muduo.Examples.Hub.Client
import Muduo.Examples.Hub.Codec
import Muduo.Examples.Hub.Server
import Muduo.Lib.CopyOnWrite
import Muduo.Lib.PubSub
import Muduo.Net.Correctness.Acceptor
import Muduo.Net.Correctness.BufferInts
import Muduo.Net.Correctness.ChannelDispatch
import Muduo.Net.Correctness.ClientStop
import Muduo.Net.Correctness.EPollBookkeeping
import Muduo.Net.Correctness.EventLoopThread
import Muduo.Net.Correctness.HttpAnswers
import Muduo.Net.Correctness.HttpHeaders
import Muduo.Net.Correctness.HttpKeepAlive
import Muduo.Net.Correctness.HttpPieces
import Muduo.Net.Correctness.HttpReader
import Muduo.Net.Correctness.HttpResponse
import Muduo.Net.Correctness.HttpStream
import Muduo.Net.Correctness.Inspector
import Muduo.Net.Correctness.PollIndex
import Muduo.Net.Correctness.PollerAgreement
import Muduo.Net.Correctness.RpcCheckSum
import Muduo.Net.Correctness.RpcCompletion
import Muduo.Net.Correctness.RpcStream
import Muduo.Net.Correctness.ServerProtocol
import Muduo.Net.Correctness.ServerTeardown
import Muduo.Net.Correctness.TcpFlow
import Muduo.Net.Correctness.TcpLifeCycle
import Muduo.Net.Correctness.TcpSays
import Muduo.Net.Correctness.TcpSend
import Muduo.Net.Correctness.TcpShutdown
import Muduo.Net.Correctness.TimerArming
import Muduo.Net.Correctness.TimerId
import Muduo.Net.Http.HttpResponse
