import Pintos.Transition
import Pintos.Control
import Pintos.Heap
import Pintos.Memory
import Pintos.Numeral
import Pintos.Links
import Pintos.Comparison
import Pintos.BinaryHeap
import Pintos.Devices.Block
import Pintos.Devices.Partition
import Pintos.RingBuffer
import Pintos.LowBit
import Pintos.Representatives
import Pintos.Buckets
import Pintos.Devices.Intq
import Pintos.Threads.Palloc
import Pintos.Threads.Bitmap
import Pintos.Threads.Pools
import Pintos.Threads.Malloc
import Pintos.Threads.Synch
import Pintos.Enumerates
import Pintos.Threads.Scheduler
import Pintos.Threads.SchedulerInvariant
import Pintos.Threads.SchedulerSafety
import Pintos.Userprog.Pagedir
import Pintos.Vm.State
import Pintos.Vm.Swaptable
import Pintos.Vm.Frametable
import Pintos.Vm.Process
import Pintos.Vm.PageFault
import Pintos.Vm.System
import Pintos.Vm.Invariants
import Pintos.Vm.EvictRace
import Pintos.Filesys.Inode
import Pintos.Filesys.File
import Pintos.Filesys.OpenRace
import Pintos.Filesys.OpenTable
import Pintos.Filesys.InodeData
import Pintos.Filesys.Directory
import Pintos.Lib.Ustar
import Pintos.Lib.String
import Pintos.Lib.Stdlib
import Pintos.Filesys.Fsutil
import Pintos.Lib.List
import Pintos.Lib.ListLoops
import Pintos.Lib.ListRefinement
import Pintos.NaturalMerge
import Pintos.Lib.ListSort
import Pintos.Lib.Hash
import Pintos.Lib.Stdio
import Pintos.Lib.PrintfStandard
import Pintos.Lib.StdioRefinement
import Pintos.Lib.Arithmetic
import Pintos.Lib.Search
import Pintos.Lib.HeapSort
import Pintos.Userprog.Syscall
import Pintos.Vm.Capacity
import Pintos.Userprog.Load
import Pintos.Userprog.Kernel
import Pintos.Userprog.KernelFiles
import Pintos.Userprog.Lifecycle
import Pintos.Userprog.ExecProtocol
import Pintos.Userprog.ExecRefinement
