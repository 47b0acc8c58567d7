import Zofi.Lib.Schedule
import Zofi.Model.Inject
import Mathlib.Data.Finmap

/-! The child's threads under ptrace(), with PTRACE_O_TRACECLONE, and the second thread of
the tool. A schedule lists what happens, in any order: a `call` lets the pending call of
the tool return, a `report` lets its waitpid() return the status of one thread. -/
namespace Zofi.Semantics.Ptrace
open Sys Schedule Model.Utils Model.XSave Model.Regs Model.WaitStatus Model.RegManip Model.Wait Model.Inject

inductive Why
  | signal (sig : Signal)
  | toolTrap
  | initial
  | clone (thread : Nat)
  | step
  deriving DecidableEq

def Why.status : Why → Nat
  | .signal sig => stoppedStatus sig
  | .toolTrap | .step => stoppedStatus sigTrap
  | .initial => stoppedStatus sigStop
  | .clone _ => stoppedStatus (sigTrap ||| ptraceEventClone <<< 8)

/-- A stopped thread has been `reported` once waitpid() has returned the stop. -/
inductive Task
  | starting | running | stepping
  | stopped (why : Why) (reported : Bool)
  | dead (how : Ending)
  deriving DecidableEq

/-- `sleepAndStopRandomChildThread`: before the sleep is over, before its kill(), and at its
end, with the value of `*Ret`. -/
inductive SleepAndKill
  | absent | asleep | selected
  | done (ret : Bool)
  deriving DecidableEq

/-- The threads that have not been reaped, how the whole process was killed if it was, and
whether the tool's SIGTRAP is pending. kill() signals the process, whichever of its threads
it names. -/
structure Kernel where
  leader : Nat
  tasks : Finmap fun _ : Nat => Task
  killed : Option Ending := none
  trapPending : Bool := false
  thread : SleepAndKill := .absent

namespace Kernel

def task (k : Kernel) (t : Nat) : Option Task := k.tasks.lookup t
def put (k : Kernel) (t : Nat) (task : Task) : Kernel := {k with tasks := k.tasks.insert t task}

def runs (k : Kernel) (t : Nat) : Bool :=
  k.killed.isNone && (k.task t == some .running || k.task t == some .stepping)

def stopped (k : Kernel) (t : Nat) : Bool :=
  match k.killed,k.task t with
  | none,some (.stopped _ _) => true
  | _,_ => false

def held (k : Kernel) (t : Nat) : Bool :=
  match k.task t with
  | some (.stopped _ true) => true
  | _ => false

end Kernel

inductive Move
  | stop (t : Nat) (sig : Signal)
  | takeTrap (t : Nat)
  | clone (t new : Nat)
  | start (t : Nat)
  | step (t : Nat)
  | exit (t : Nat) (code : Fin 256)
  | kill (how : Ending)
  | die (t : Nat)
  deriving DecidableEq

def Kernel.move (k : Kernel) : Move → Kernel
  | .stop t sig => if k.runs t && sig.val != sigKill then k.put t (.stopped (.signal sig) false) else k
  | .takeTrap t =>
    if k.runs t && k.trapPending then {k.put t (.stopped .toolTrap false) with trapPending := false} else k
  | .clone t new =>
    if k.runs t && (k.task new).isNone then (k.put new .starting).put t (.stopped (.clone new) false) else k
  | .start t =>
    if k.killed.isNone && k.task t == some .starting then k.put t (.stopped .initial false) else k
  | .step t => if k.killed.isNone && k.task t == some .stepping then k.put t (.stopped .step false) else k
  | .exit t code => if k.runs t then k.put t (.dead (.exited code)) else k
  | .kill how => if k.killed.isNone then {k with killed := some how} else k
  | .die t =>
    match k.killed,k.task t with
    | some how,some _ => k.put t (.dead how)
    | _,_ => k

/-- The status waitpid() has of a thread. The leader's end is kept back until every other
thread has been reaped. -/
def Kernel.pending (k : Kernel) (t : Nat) : Option Nat :=
  match k.task t with
  | some (.stopped why false) => if k.killed.isNone then some why.status else none
  | some (.dead how) =>
    if t = k.leader ∧ k.tasks.keys ≠ {t} then none else some (k.killed.getD how).status
  | _ => none

def Kernel.reap (k : Kernel) (t : Nat) : Kernel :=
  match k.task t with
  | some (.stopped why _) => k.put t (.stopped why true)
  | some (.dead _) => {k with tasks := k.tasks.erase t}
  | _ => k

def Kernel.resume (k : Kernel) (t : Nat) (mode : Task) : Bool × Kernel :=
  if k.stopped t then (true,k.put t mode) else (false,k)

/-- PTRACE_GETEVENTMSG; the message of other stops is never read. -/
def Kernel.eventMsg (k : Kernel) (t : Nat) : Option Nat :=
  match k.killed,k.task t with
  | none,some (.stopped (.clone new) _) => some new
  | none,some (.stopped _ _) => some 0
  | _,_ => none

/-- PTRACE_KILL: it has an effect on a stopped thread only. -/
def Kernel.ptraceKill (k : Kernel) (t : Nat) : Bool × Kernel :=
  if k.stopped t then (true,{k with killed := some (.signaled Signal.kill false)})
  else ((k.task t).isSome,k)

/-- The tool sends no other signals. -/
def Kernel.kill (k : Kernel) (t sig : Nat) : Bool × Kernel :=
  if (k.task t).isNone then (false,k)
  else if sig = sigKill then (true,{k with killed := some (k.killed.getD (.signaled Signal.kill false))})
  else if sig = sigTrap then (true,{k with trapPending := true})
  else (true,k)

inductive Ev
  | move (move : Move)
  | wake (rand : Nat)
  | kill
  | call
  | report (t : Nat)
  deriving DecidableEq

def wake (w : World Kernel) (rand : Nat) : World Kernel :=
  match w.outside.thread,getRandomChildThreadPID w.runner rand with
  | .asleep,.ok pid => ⟨{w.runner with childPIDToInject := pid},{w.outside with thread := .selected}⟩
  | _,_ => w

def sendTrap (w : World Kernel) : World Kernel :=
  if w.outside.thread = .selected then
    let (success,k) := w.outside.kill w.runner.childPIDToInject sigTrap
    {w with outside := {k with thread := .done success}}
  else w

def step (w : World Kernel) : Ev → World Kernel
  | .move move => {w with outside := w.outside.move move}
  | .wake rand => wake w rand
  | .kill => sendTrap w
  | .call | .report _ => w

/-! The calls of the tool. `allows` is a condition on what happens, `replies` gives the
results of the requests that read or write registers and memory. -/

structure Timeline where
  kernel : Kernel
  future : List Ev

def now (w : World Timeline) : World Kernel := ⟨w.runner,w.outside.kernel⟩

section
variable (allows : World Kernel → Ev → Bool) {α : Type}

abbrev environment : Environment (World Kernel) Ev := ⟨step,allows⟩

def request (answers : World Kernel → Ev → Option (α × World Kernel)) : Prog Halt (World Timeline) α := do
  let w ← get
  let (answer,w',future) := serve (environment allows) answers w.outside.future (now w)
  set (⟨w'.runner,⟨w'.outside,future⟩⟩ : World Timeline)
  match answer with
  | some value => return value
  | none => throw .waiting

def atCall (act : World Kernel → α × World Kernel) (w : World Kernel) : Ev → Option (α × World Kernel)
  | .call => some (act w)
  | _ => none

def onKernel (act : Kernel → α × Kernel) (w : World Kernel) : α × World Kernel :=
  let (value,k) := act w.outside
  (value,{w with outside := k})

def waited (wanted : Nat → Bool) (w : World Kernel) : Ev → Option (Option (Nat × Nat) × World Kernel)
  | .call => if ∀ t ∈ w.outside.tasks.keys, wanted t = false then some (none,w) else none
  | .report t =>
    if wanted t then
      (w.outside.pending t).map fun status => (some (t,status),{w with outside := w.outside.reap t})
    else none
  | _ => none

def polled (t : Nat) (k : Kernel) : Option Bool × Kernel :=
  if (k.task t).isNone then (none,k)
  else if (k.pending t).isSome then (some true,k.reap t) else (some false,k)

def joined (w : World Kernel) : Ev → Option (Bool × World Kernel)
  | .call =>
    match w.outside.thread with
    | .done ret => some (ret,{w with outside := {w.outside with thread := .absent}})
    | _ => none
  | _ => none

def waitCalls : WaitCalls Timeline where
  waitpidAny := request allows (waited fun _ => true)
  getEventMsg t := request allows (atCall (onKernel fun k => (k.eventMsg t,k)))
  cont t := request allows (atCall (onKernel (·.resume t .running)))

structure Replies where
  getRegs : World Kernel → Nat → Option (Image sizeofUserRegs)
  getRegSet : World Kernel → Nat → Option (Image sizeofXSave)
  setRegs : World Kernel → Nat → Image sizeofUserRegs → Bool
  setRegSet : World Kernel → Nat → Image sizeofXSave → Bool
  peekText : World Kernel → Nat → BitVec 64 → BitVec 64
  maps : World Kernel → Nat → Option (List Char)
  rand : World Kernel → Nat

def traceeOf (replies : Replies) (t : Nat) : Tracee (World Timeline) where
  getRegs := request allows (atCall fun w => (replies.getRegs w t,w))
  getRegSet := request allows (atCall fun w => (replies.getRegSet w t,w))
  setRegs regs := request allows (atCall fun w => (replies.setRegs w t regs,w))
  setRegSet xsave := request allows (atCall fun w => (replies.setRegSet w t xsave,w))
  peekText address := request allows (atCall fun w => (replies.peekText w t address,w))
  singleStep := request allows (atCall (onKernel (·.resume t .stepping)))
  waitpid := return (← request allows (waited (· == t))).map (·.2)
  cont := request allows (atCall (onKernel (·.resume t .running)))
  maps := request allows (atCall fun w => (replies.maps w t,w))
  rand := request allows (atCall fun w => (replies.rand w,w))

def os (replies : Replies) : Os Timeline where
  toWaitCalls := waitCalls allows
  sleepAndKillThread := request allows (atCall (onKernel fun k => ((),{k with thread := .asleep})))
  join := request allows joined
  ptraceKill t := request allows (atCall (onKernel (·.ptraceKill t)))
  kill t sig := request allows (atCall (onKernel (·.kill t sig)))
  waitpid t := request allows (waited (· == t))
  waitpidNoHang t := request allows (atCall (onKernel (polled t)))
  tracee := traceeOf allows replies

end

def noReplies : Replies where
  getRegs _ _ := none
  getRegSet _ _ := none
  setRegs _ _ _ := false
  setRegSet _ _ _ := false
  peekText _ _ _ := -1
  maps _ _ := none
  rand _ := 0

def unrestricted : World Kernel → Ev → Bool := fun _ _ => true

/-- run() has returned true: the set of threads is empty and the process goes on after
execve(). `inject` is the thread of an earlier attempt. -/
def afterRun (leader inject : Nat) (future : List Ev) : World Timeline :=
  ⟨{childPID := leader,childPIDToInject := inject},
    ⟨{leader,tasks := Finmap.singleton leader .running},future⟩⟩

end Zofi.Semantics.Ptrace
