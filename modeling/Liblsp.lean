import Liblsp.Types
import Liblsp.LinkedList
import Liblsp.ListRefinement
import Liblsp.Base.Run
import Liblsp.Base.CondVar
import Liblsp.QueueFifo
import Liblsp.QueueRefinement
import Liblsp.RxqFlush
import Liblsp.BufferContents
import Liblsp.BufferInvariant
import Liblsp.BlockSizes
import Liblsp.ClockReadings
import Liblsp.Base.WrappingClock
import Liblsp.Deadlines
import Liblsp.EgroupThreads
import Liblsp.EgroupWakeup
import Liblsp.EgroupIsolation
import Liblsp.EgroupTimeout
import Liblsp.EgroupUnsatisfied
import Liblsp.Base.Flags
import Liblsp.EgroupHistories
import Liblsp.QueueWakeup
import Liblsp.QueueClear
import Liblsp.Base.Histories
import Liblsp.QueueHistories
import Liblsp.Base.Refinement
import Liblsp.Base.Sections
import Liblsp.QueueAccesses
import Liblsp.QueueAtomicity
import Liblsp.EgroupAccesses
import Liblsp.EgroupAtomicity
import Liblsp.Base.Holders
import Liblsp.MutexRelease
import Liblsp.QueueProgress
import Liblsp.Routing
import Liblsp.RouteMap
import Liblsp.RouteBest
import Liblsp.RouteThreads
import Liblsp.Base.ForwardLists
import Liblsp.ListAccesses
import Liblsp.RouteDiscoveries
import Liblsp.RouteAccesses
import Liblsp.RouteReaders
import Liblsp.RouteAtomicity
import Liblsp.Base.CString
import Liblsp.Iflist
import Liblsp.IflistReaders
import Liblsp.DebugMemory
import Liblsp.Conn
import Liblsp.ConnInit
import Liblsp.ConnPool
import Liblsp.Port
import Liblsp.ListenOrder
import Liblsp.Listen
import Liblsp.PortLists
import Liblsp.BindListen
import Liblsp.ListenState
import Liblsp.Accept
import Liblsp.RxqPush
import Liblsp.FailedCalls
import Liblsp.ConnFree
import Liblsp.ConnThreads
import Liblsp.ConnReuse
import Liblsp.KnownSockets
import Liblsp.ReceiveHistories
import Liblsp.PortHistories
import Liblsp.PortPriorities
import Liblsp.SocketProgress
import Liblsp.Base.LittleEndian
import Liblsp.Base.BitFields
import Liblsp.Packet
import Liblsp.Core
import Liblsp.CoreQueue
import Liblsp.CoreDispatch
import Liblsp.CoreBacklog
