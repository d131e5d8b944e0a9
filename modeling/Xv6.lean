import Xv6.Lib.Run
import Xv6.Lib.CInt
import Xv6.Lib.CArray
import Xv6.Lib.Table
import Xv6.Lib.Sorting
import Xv6.Lib.Except
import Xv6.Lib.Binary32
import Xv6.Param
import Xv6.Lock.Spinlock
import Xv6.Process.Table
import Xv6.Process.PidOps
import Xv6.Process.Pids
import Xv6.Process.SyscallStats
import Xv6.Process.Scheduler
import Xv6.Process.Timer
import Xv6.Syscall.Counter
import Xv6.Vm.Memory
import Xv6.Shm.Region
import Xv6.Shm.System
import Xv6.Shm.Race
import Xv6.Fs.Log
import Xv6.Console.State
import Xv6.Console.Calculator
import Xv6.Console.Intr
import Xv6.Console.System
import Xv6.Console.Editor
import Xv6.Console.Delivery
import Xv6.Fs.Lockfile
import Xv6.Fs.Mkfs
import Xv6.Fs.Inode
import Xv6.Lib.Ring
import Xv6.Pipe.Fifo
import Xv6.Lib.Crash
import Xv6.Fs.Recovery
import Xv6.Lock.Reentrant
import Xv6.Shm.Placement
import Xv6.Fs.Namei
import Xv6.Process.Exec
import Xv6.Console.History
import Xv6.Fs.Content
import Xv6.Lib.String
import Xv6.User.Caesar
import Xv6.Process.Palindrome
import Xv6.Fs.Path
import Xv6.Lib.Regex
import Xv6.User.Grep
import Xv6.Lib.Links
import Xv6.Lib.Blocks
import Xv6.User.Umalloc
import Xv6.Fs.Bcache
import Xv6.Fs.Icache
import Xv6.User.Sh
import Xv6.Vm.Uvm
import Xv6.Exec.Load
import Xv6.Lib.Frames
import Xv6.Vm.Owned
import Xv6.Vm.Grow
import Xv6.Vm.Kvm
import Xv6.Vm.Copy
import Xv6.Exec.Run
import Xv6.Vm.Sbrk
