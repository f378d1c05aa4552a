import CurlHttpfs.Lib.Transition
import CurlHttpfs.Lib.FoldedMap
import CurlHttpfs.Lib.Descriptors
import CurlHttpfs.Lib.Throughout
import CurlHttpfs.Lib.Census
import CurlHttpfs.Lib.Condition
import CurlHttpfs.Lib.Readiness
import CurlHttpfs.Http.Headers
import CurlHttpfs.Http.Transcript
import CurlHttpfs.Http.Response
import CurlHttpfs.Http.Blocks
import CurlHttpfs.Curl.Easy
import CurlHttpfs.Curl.Request
import CurlHttpfs.Manager.Exchange
import CurlHttpfs.Manager.ExchangeInvariant
import CurlHttpfs.Manager.EventLoop
import CurlHttpfs.Client.Operations
import CurlHttpfs.Client.Routing
import CurlHttpfs.Client.Wire
import CurlHttpfs.Client.HeaderLists
import CurlHttpfs.Client.Residue
import CurlHttpfs.Client.Responses
import CurlHttpfs.Manager.Handoff
import CurlHttpfs.Manager.LoopInvariant
import CurlHttpfs.Manager.Ownership
import CurlHttpfs.Manager.Wakeup
import CurlHttpfs.Manager.TimerRead
import CurlHttpfs.Manager.Stranded
import CurlHttpfs.Manager.Timeout
import CurlHttpfs.ThreadPool.Pool
import CurlHttpfs.ThreadPool.Barrier
import CurlHttpfs.ThreadPool.Shutdown
import CurlHttpfs.ThreadPool.Waiters
import CurlHttpfs.Sockets.Interest
import CurlHttpfs.Sockets.EpollMirror
import CurlHttpfs.Sockets.KqueueMirror
import CurlHttpfs.Lib.Tally
import CurlHttpfs.Lib.Text
import CurlHttpfs.Tcp.ConnectionFetcher
import CurlHttpfs.Tcp.ProcTable
import CurlHttpfs.Lib.Paging
import CurlHttpfs.Lib.Sorting
import CurlHttpfs.Tcp.QueryFunction
import CurlHttpfs.Tcp.HexDecoding
import CurlHttpfs.Lib.Potential
import CurlHttpfs.ThreadPool.Progress
import CurlHttpfs.Manager.Transparency
import CurlHttpfs.Lib.Knotes
import CurlHttpfs.Manager.KqueueLoop
import CurlHttpfs.Manager.KqueueTimer
import CurlHttpfs.Manager.Duty
import CurlHttpfs.Manager.Liveness
import CurlHttpfs.Lib.LineBuffer
import CurlHttpfs.Tcp.Netstat
import CurlHttpfs.Manager.Registration
import CurlHttpfs.Client.Names
import CurlHttpfs.Manager.Calls
import CurlHttpfs.Lib.Heap
import CurlHttpfs.Sockets.Objects
