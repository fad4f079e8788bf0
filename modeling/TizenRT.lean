import TizenRT.Lib.DeltaList
import TizenRT.Lib.StableInsert
import TizenRT.Lib.KeyedList
import TizenRT.Lib.RingBuffer
import TizenRT.Wdog.Model
import TizenRT.Wdog.Refinement
import TizenRT.Clock.Ticks
import TizenRT.Timer.Settime
import TizenRT.Sched.Model
import TizenRT.Sched.Invariant
import TizenRT.Sched.Merge
import TizenRT.Sched.Ops
import TizenRT.Sem.Model
import TizenRT.Sem.Count
import TizenRT.Pthread.Mutex
import TizenRT.Pthread.Lock
import TizenRT.Signal.Set
import TizenRT.Signal.Model
import TizenRT.Signal.Pending
import TizenRT.Pipe.Model
import TizenRT.Pipe.Fifo
import TizenRT.Environ.Model
import TizenRT.Environ.Map
import TizenRT.Environ.Run
import TizenRT.Environ.Refine
import TizenRT.Time.Model
import TizenRT.Time.Calendar
import TizenRT.Lib.DList
import TizenRT.Lib.BoundaryTag
import TizenRT.Heap.Model
import TizenRT.Heap.Layout
import TizenRT.Heap.FreeList
import TizenRT.Heap.Shape
import TizenRT.Heap.Free
import TizenRT.Heap.Extend
import TizenRT.Heap.Malloc
import TizenRT.Heap.Realloc
import TizenRT.Heap.Resize
import TizenRT.Heap.RoundTrip
import TizenRT.Heap.Run
import TizenRT.Lib.ExceptBind
import TizenRT.Netdb.DnsQuery
import TizenRT.Netdb.Resolver
import TizenRT.Aql.Lvm
import TizenRT.Aql.Parser
import TizenRT.Lib.Overwrite
import TizenRT.Stdio.Stream
import TizenRT.Smartfs.File
import TizenRT.Romfs.Lookup
import TizenRT.Fs.Inode
import TizenRT.Smart.Scan
import TizenRT.Mqueue.Model
import TizenRT.Mqueue.Invariant
import TizenRT.Lib.Word32
import TizenRT.Gran.Model
import TizenRT.Gran.Table
import TizenRT.Gran.Search
import TizenRT.Lib.SList
import TizenRT.Queue.Sq
import TizenRT.Queue.Dq
import TizenRT.Lib.CScan
import TizenRT.Net.Inetpton
import TizenRT.Stdio.Vsprintf
import TizenRT.Romfs.Configure
import TizenRT.Smart.Counts
import TizenRT.Smart.Alloc
import TizenRT.Sem.Inherit
import TizenRT.Sem.Holder
import TizenRT.Aql.Bplustree
import TizenRT.Aql.Value
import TizenRT.Aql.Derive
import TizenRT.Misc.Match
import TizenRT.Misc.Glob
import TizenRT.Stdlib.Strtoul
import TizenRT.Aql.Lexer
import TizenRT.Stdio.Printf
import TizenRT.Stdio.Agree
import TizenRT.Net.Inetntop
import TizenRT.Stdlib.IntText
import TizenRT.Fixedmath.B16
import TizenRT.Lib.Segment
import TizenRT.Stdlib.Qsort
import TizenRT.Stdlib.QsortSorts
import TizenRT.Stdlib.QsortDepth
import TizenRT.Smart.Collect
