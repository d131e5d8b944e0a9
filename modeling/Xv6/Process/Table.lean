import Xv6.Param
import Xv6.Lib.Table
import Xv6.Lib.CInt
import Xv6.Lib.Bytes

/-! The process table of `proc.c`: the slots of `ptable.proc`, `nextpid` and `initproc`,
and the lifecycle operations `allocproc`, `userinit`, `fork`, `exec`, `exit`, `wait`, with the
pid-addressed calls `kill`, `set_sjf_params` and `change_queue`. Each operation runs under
`ptable.lock`, so it is one step of the table. What an operation gets from the memory
allocator (`kalloc` for the kernel stack, `copyuvm` for the page directory) is an input of
the step: a pointer, `0` on failure. -/

namespace Xv6.Process

open Table

inductive Procstate
  | unused | embryo | sleeping | runnable | running | zombie
  deriving DecidableEq, Repr

inductive ScheduleQueue
  | unset | roundRobin | sjf | fcfs
  deriving DecidableEq, Repr

def ScheduleQueue.toInt : ScheduleQueue → Int
  | .unset => 0
  | .roundRobin => 1
  | .sjf => 2
  | .fcfs => 3

inductive Chan
  | proc (i : Fin nproc)
  | obj (addr : Nat)
  deriving DecidableEq, Repr

structure SjfInfo where
  arrivalTime : Int
  confidence : Int
  burstTime : Int
  deriving DecidableEq, Repr

structure ScheduleInfo where
  queue : ScheduleQueue
  lastRun : Int
  sjf : SjfInfo
  arrivalQueueTime : Int
  getCpuTime : Int
  deriving DecidableEq, Repr

structure SyscallInfo where
  number : Int
  count : Int
  name : Option String
  deriving DecidableEq, Repr

structure Proc where
  state : Procstate
  pid : Int
  parent : Option (Fin nproc)
  chan : Option Chan
  killed : Int
  name : String
  kstack : Nat
  pgdir : Nat
  syscallData : Fin maxSyscalls → SyscallInfo
  syscallCounts : Int
  creationTime : Int
  consecutiveTime : Int
  schedInfo : ScheduleInfo

def Proc.zero : Proc where
  state := .unused
  pid := 0
  parent := none
  chan := none
  killed := 0
  name := ""
  kstack := 0
  pgdir := 0
  syscallData := fun _ => ⟨0, 0, none⟩
  syscallCounts := 0
  creationTime := 0
  consecutiveTime := 0
  schedInfo := ⟨.unset, 0, ⟨0, 0, 0⟩, 0, 0⟩

structure Ptable where
  proc : Fin nproc → Proc
  nextpid : Int
  initproc : Option (Fin nproc)

def Ptable.boot : Ptable := ⟨fun _ => Proc.zero, 1, none⟩

def Ptable.set (t : Ptable) (i : Fin nproc) (p : Proc) : Ptable :=
  { t with proc := Function.update t.proc i p }

@[simp] lemma Ptable.set_proc_self (t : Ptable) (i : Fin nproc) (p : Proc) :
    (t.set i p).proc i = p := by
  simp [Ptable.set]

@[simp] lemma Ptable.set_proc_of_ne (t : Ptable) {i j : Fin nproc} (p : Proc) (h : j ≠ i) :
    (t.set i p).proc j = t.proc j := by
  simp [Ptable.set, h]

@[simp] lemma Ptable.set_nextpid (t : Ptable) (i : Fin nproc) (p : Proc) :
    (t.set i p).nextpid = t.nextpid := rfl

@[simp] lemma Ptable.set_initproc (t : Ptable) (i : Fin nproc) (p : Proc) :
    (t.set i p).initproc = t.initproc := rfl

def Proc.alloc (p : Proc) (pid : Int) (kstack : Nat) (ticks : Int) : Proc :=
  { p with
    state := .embryo
    pid := pid
    kstack := kstack
    syscallData := fun k => { p.syscallData k with number := maxSyscalls + 1, count := 0 }
    syscallCounts := 0
    schedInfo := { p.schedInfo with
      queue := .unset
      getCpuTime := ticks
      sjf := { p.schedInfo.sjf with arrivalTime := ticks, confidence := 50, burstTime := 2 } }
    consecutiveTime := 0 }

def allocproc (t : Ptable) (kstack : Nat) (ticks : Int) : Ptable × Option (Fin nproc) :=
  match first? (fun i => decide ((t.proc i).state = .unused)) with
  | none => (t, none)
  | some i =>
    let t' := { t with nextpid := CInt.wrap (t.nextpid + 1) }
    if kstack = 0 then
      (t'.set i { t.proc i with state := .unused, pid := t.nextpid, kstack := 0 }, none)
    else
      (t'.set i ((t.proc i).alloc t.nextpid kstack ticks), some i)

def compareString : List Char → List Char → Bool
  | [], [] => true
  | a :: as, b :: bs => a == b && compareString as bs
  | _, _ => false

def changeQueue (t : Ptable) (pid : Int) (newQueue : ScheduleQueue) (ticks : Int) :
    Ptable × Int :=
  let resolved : Option ScheduleQueue :=
    if newQueue = .unset then
      if pid = 1 ∨ pid = 2 then some .roundRobin
      else if pid > 2 then some .fcfs
      else none
    else some newQueue
  match resolved with
  | none => (t, -1)
  | some q =>
    loop (fun (acc : Ptable × Int) i =>
      let p := acc.1.proc i
      if p.pid = pid then
        let q' := if compareString p.name.toList "sh".toList || compareString p.name.toList "init".toList
          then ScheduleQueue.roundRobin else q
        (acc.1.set i { p with schedInfo := { p.schedInfo with queue := q', arrivalQueueTime := ticks } },
          p.schedInfo.queue.toInt)
      else acc) (t, -1)

def findPid (t : Ptable) (pid : Int) : Option (Fin nproc) :=
  first? (fun i => decide ((t.proc i).pid = pid))

def kill (t : Ptable) (pid : Int) : Ptable × Int :=
  match findPid t pid with
  | none => (t, -1)
  | some i =>
    let p := t.proc i
    (t.set i { p with killed := 1, state := if p.state = .sleeping then .runnable else p.state }, 0)

def setSjfParams (t : Ptable) (pid burstTime confidence : Int) : Ptable × Int :=
  match findPid t pid with
  | none => (t, -1)
  | some i =>
    let p := t.proc i
    (t.set i { p with schedInfo := { p.schedInfo with
      sjf := { p.schedInfo.sjf with burstTime := burstTime, confidence := confidence } } }, 0)

def userinit (t : Ptable) (kstack pgdir : Nat) (ticks : Int) : Option Ptable :=
  match allocproc t kstack ticks with
  | (_, none) => none
  | (t, some i) =>
    if pgdir = 0 then none
    else
      let t := { t.set i { t.proc i with pgdir := pgdir, name := "initcode", state := .runnable }
        with initproc := some i }
      some (changeQueue t (t.proc i).pid .unset ticks).1

def fork (t : Ptable) (cur : Fin nproc) (kstack pgdir : Nat) (ticks : Int) : Ptable × Int :=
  match allocproc t kstack ticks with
  | (t, none) => (t, -1)
  | (t, some i) =>
    if pgdir = 0 then
      (t.set i { t.proc i with kstack := 0, state := .unused }, -1)
    else
      let np := t.proc i
      let np := { np with
        pgdir := pgdir
        parent := some cur
        name := (t.proc cur).name
        state := .runnable
        creationTime := ticks
        schedInfo := { np.schedInfo with
          lastRun := ticks, sjf := { np.schedInfo.sjf with arrivalTime := ticks } } }
      ((changeQueue (t.set i np) np.pid .unset ticks).1, np.pid)

def exec (t : Ptable) (cur : Fin nproc) (path : List Char) (found loaded : Bool) (pgdir : Nat)
    (ticks : Int) : Ptable × Int :=
  if !found then (t, -1)
  else
    let t := (changeQueue t (t.proc cur).pid .unset ticks).1
    if !loaded then (t, -1)
    else
      let name := String.ofList (Bytes.safestrcpy (Bytes.lastAfter '/' path path) 16)
      (t.set cur { t.proc cur with name := name, pgdir := pgdir }, 0)

def wakeup1 (t : Ptable) (chan : Option Chan) : Ptable :=
  { t with proc := fun i =>
      let p := t.proc i
      if p.state = .sleeping ∧ p.chan = chan then { p with state := .runnable } else p }

def exit (t : Ptable) (cur : Fin nproc) : Option Ptable :=
  if t.initproc = some cur then none
  else
    let t := wakeup1 t ((t.proc cur).parent.map Chan.proc)
    let t := loop (fun (t : Ptable) i =>
      if (t.proc i).parent = some cur then
        let t := t.set i { t.proc i with parent := t.initproc }
        if (t.proc i).state = .zombie then wakeup1 t (t.initproc.map Chan.proc) else t
      else t) t
    some (t.set cur { t.proc cur with state := .zombie })

def Proc.reap (p : Proc) : Proc :=
  { p with kstack := 0, pid := 0, parent := none, name := "", killed := 0, state := .unused }

def wait (t : Ptable) (cur : Fin nproc) : Ptable × Option Int :=
  match first? (fun i => decide ((t.proc i).parent = some cur ∧ (t.proc i).state = .zombie)) with
  | some i => (t.set i (t.proc i).reap, some (t.proc i).pid)
  | none =>
    let havekids := decide (∃ i, (t.proc i).parent = some cur)
    if !havekids || (t.proc cur).killed ≠ 0 then (t, some (-1))
    else (t.set cur { t.proc cur with chan := some (.proc cur), state := .sleeping }, none)

inductive Op
  | userinit (kstack pgdir : Nat) (ticks : Int)
  | fork (cur : Fin nproc) (kstack pgdir : Nat) (ticks : Int)
  | exit (cur : Fin nproc)
  | wait (cur : Fin nproc)
  | kill (pid : Int)
  | setSjfParams (pid burstTime confidence : Int)
  | changeQueue (pid : Int) (q : ScheduleQueue) (ticks : Int)
  | exec (cur : Fin nproc) (path : List Char) (found loaded : Bool) (pgdir : Nat) (ticks : Int)

def step (t : Ptable) : Op → Option Ptable
  | .userinit kstack pgdir ticks => userinit t kstack pgdir ticks
  | .fork cur kstack pgdir ticks => some (fork t cur kstack pgdir ticks).1
  | .exit cur => exit t cur
  | .wait cur => some (wait t cur).1
  | .kill pid => some (kill t pid).1
  | .setSjfParams pid b c => some (setSjfParams t pid b c).1
  | .changeQueue pid q ticks => some (changeQueue t pid q ticks).1
  | .exec cur path found loaded pgdir ticks => some (exec t cur path found loaded pgdir ticks).1

end Xv6.Process
