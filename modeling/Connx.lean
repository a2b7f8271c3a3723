import Connx.Lib.Run
import Connx.Lib.Resumption
import Connx.Lib.History
import Connx.Lib.Framing
import Connx.Lib.Pool
import Connx.Lib.Succession
import Connx.Lib.WaitGraph
import Connx.Lib.Probe
import Connx.Lib.ByteOrder
import Connx.Lib.Ledger
import Connx.Lib.Text
import Connx.Lib.PriorityQueue
import Connx.Lib.RefCount
import Connx.Lib.Signed
import Connx.Utils.SliceBuffer
import Connx.Utils.ByteBuffer
import Connx.Net.Connection.Tasks
import Connx.Properties.MpscQueue
import Connx.Properties.WorkerSleep
import Connx.Properties.WorkerPool
import Connx.Properties.Deadlock
import Connx.Properties.Wakeups
import Connx.Properties.SerialExecution
import Connx.Properties.Silence
import Connx.Properties.CallbackProtocol
import Connx.Properties.Resources
import Connx.Properties.BufferedFrames
import Connx.Properties.Disconnect
import Connx.Properties.LengthField
import Connx.Properties.CodecOwnership
import Connx.Properties.LocalAddress
import Connx.Properties.StaleEvents
import Connx.Properties.InputSafety
import Connx.Properties.SendStream
import Connx.Properties.HostPort
import Connx.Properties.LogCallback
import Connx.Properties.Timers
import Connx.Properties.ConnectionTable
import Connx.Properties.ByteQueue
import Connx.Properties.LibraryLifetime
import Connx.Properties.SliceValues
import Connx.Properties.CodecStreams
import Connx.Properties.Relay
import Connx.Properties.Pollers
import Connx.Properties.PoolCalls
import Connx.Properties.PollLoop
import Connx.Properties.Completions
import Connx.Properties.WindowsConnection
