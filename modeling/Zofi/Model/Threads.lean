import Zofi.Model.Outcomes
import Zofi.Model.WaitStatus

/-! The job schedulers: one process per run, a pipe from each, and the loop that forks and
reaps them. -/
namespace Zofi.Model.Threads
open Utils WaitStatus Outcomes

structure JobData where
  childPID : Nat := 0
  id : Int
  pipe : Nat × Nat
  deriving DecidableEq, Repr

def toInt (value : Nat) : Int :=
  if value % 2^32 < 2^31 then (value % 2^32 : Nat) else ((value % 2^32 : Nat) : Int) - 2^32

inductive PipeEnd
  | readEnd (pipe : Nat)
  | writeEnd (pipe : Nat)
  deriving DecidableEq, Repr

structure PipeState (R : Type) where
  content : Option R := none
  writable : Bool := true

structure Child where
  pid : Nat
  job : Nat
  pipe : Nat
  deriving DecidableEq, Repr

/-- The scheduler object with its loop variable, and what the kernel keeps for it: its
descriptors, the pipes and the children not reaped yet. -/
structure World (R S : Type) where
  activeJobs : List JobData := []
  pipe : Nat × Nat := (0,0)
  id : Nat := 0
  results : S
  fds : List (Nat × PipeEnd) := []
  pipes : List (PipeState R) := []
  children : List Child := []

variable {G R S : Type}

def close (fds : List (Nat × PipeEnd)) (fd : Nat) : List (Nat × PipeEnd) := fds.eraseP (·.1 == fd)

def setBackPID (activeJobs : List JobData) (pid : Nat) : List JobData :=
  activeJobs.dropLast ++ (activeJobs.getLast?.map fun data => {data with childPID := pid}).toList

/-- One iteration behind the blocking loop: the pipe, the new record, the fork and the
parent's side of it. The kernel picks the descriptors and the pid. -/
def forkJob (pid rd wr : Nat) (w : World R S) : World R S :=
  let number := w.pipes.length
  let w : World R S := {w with
    pipe := (rd,wr)
    fds := w.fds ++ [(rd,.readEnd number),(wr,.writeEnd number)]
    pipes := w.pipes ++ [{}]}
  let w : World R S := {w with activeJobs := w.activeJobs ++ [{id := toInt w.id,pipe := w.pipe}]}
  let w : World R S := {w with children := w.children ++ [⟨pid,w.id,number⟩]}
  let w : World R S := {w with fds := close w.fds w.pipe.2}
  {w with activeJobs := setBackPID w.activeJobs pid,id := (w.id + 1) % 2^32}

structure JobEnd (R : Type) where
  wrote : Option R
  ending : Ending

/-- A child ends and is reaped: its write end is closed, behind what it wrote. -/
def endChild (job : JobEnd R) (child : Child) (w : World R S) : World R S :=
  {w with
    children := w.children.eraseP (·.pid == child.pid)
    pipes := w.pipes.modify child.pipe fun pipe => ⟨pipe.content.or job.wrote,false⟩}

/-- read() of one record: `none` leaves the buffer as it is, at the end of the file or on
an error, which no caller checks. -/
def World.read (w : World R S) (fd : Nat) : Except Halt (Option R) :=
  match w.fds.lookup fd with
  | some (.readEnd number) =>
    match w.pipes[number]? with
    | some pipe =>
      match pipe.content with
      | some record => .ok (some record)
      | none => if pipe.writable then .error .waiting else .ok none
    | none => .error (.undefined "no such pipe")
  | _ => .ok none

/-- The virtual `jobFinishedParentCode`; its first argument is what the stack holds where
the function leaves a variable uninitialised. -/
structure Subclass (G R S : Type) where
  jobFinishedParentCode : G → (Nat → Except Halt (Option R)) → JobData → S → Except Halt S

def testJobScheduler : Subclass (Option FtStatus) FtStatus Statistics where
  jobFinishedParentCode garbage read data stats := do
    let faultStatus := (← read data.pipe.1).or garbage
    incrStatsCounter stats faultStatus

def origJobScheduler (R : Type) : Subclass Unit R R where
  jobFinishedParentCode _ read data origExitState :=
    if data.id = 0 then do return (← read data.pipe.1).getD origExitState else .ok origExitState

def waitForJob (sub : Subclass G R S) (garbage : G) (pid status : Nat) (w : World R S) :
    Except Halt (World R S) := do
  let _ ← getWaitPidExitState status
  assert (wIfExited status) "Expected child to have exited."
  match w.activeJobs.find? (·.childPID == pid) with
  | none => .error (.assertion "Pid not found in Active Jobs!")
  | some data =>
    let results ← sub.jobFinishedParentCode garbage w.read data w.results
    return {w with
      results
      fds := close w.fds data.pipe.1
      activeJobs := w.activeJobs.eraseP (·.childPID == pid)}

/-! `run(TotalNumJobs)` as the steps it takes, one per fork and one per reaped child. -/

inductive Event
  | forked (id pid : Nat)
  | reaped (child : Child) (record : Option JobData)
  deriving DecidableEq, Repr

/-- Where the loop blocks in waitpid(): at the limit, or with nothing left to fork. -/
def Blocks (limit total : Nat) (w : World R S) : Prop :=
  if w.id = total then 0 < w.activeJobs.length else w.activeJobs.length = limit

def Finished (total : Nat) (w : World R S) : Prop := w.id = total ∧ w.activeJobs.length = 0

inductive Step (sub : Subclass G R S) (jobs : Nat → JobEnd R) (limit total : Nat) :
    World R S → Event → Except Halt (World R S) → Prop
  | fork (w : World R S) (pid rd wr : Nat) (more : w.id ≠ total) (room : w.activeJobs.length ≠ limit)
      (newPid : pid ∉ w.children.map (·.pid)) (newRd : rd ∉ w.fds.map (·.1)) (newWr : wr ∉ w.fds.map (·.1))
      (apart : rd ≠ wr) : Step sub jobs limit total w (.forked w.id pid) (.ok (forkJob pid rd wr w))
  | wait (w : World R S) (child : Child) (garbage : G) (blocks : Blocks limit total w)
      (member : child ∈ w.children) :
      Step sub jobs limit total w
        (.reaped child (w.activeJobs.find? (·.childPID == child.pid)))
        (waitForJob sub garbage child.pid (jobs child.job).ending.status (endChild (jobs child.job) child w))

/-! The SeedForChild of each job: drawn by the parent before the fork, and given to srand()
in the child. -/

variable {ρ : Type}

def randSafe (rand : ρ → Nat × ρ) (max : Nat) (generator : ρ) : Nat × ρ :=
  let (number,generator) := rand generator
  (if max ≠ 0 then number % max else number,generator)

structure SeededWorld (ρ R S : Type) where
  world : World R S
  generator : ρ
  seeds : List Nat := []

def seeded (jobs : Nat → Nat → JobEnd R) (seeds : List Nat) (id : Nat) : JobEnd R := jobs id (seeds[id]?.getD 0)

/-- The steps of `run`; a fork is labelled with its SeedForChild, and a wait draws nothing. -/
inductive SeededStep (rand : ρ → Nat × ρ) (sub : Subclass G R S) (jobs : Nat → Nat → JobEnd R) (limit total : Nat) :
    SeededWorld ρ R S → Event × Option Nat → SeededWorld ρ R S → Prop
  | fork (w : SeededWorld ρ R S) (pid seedForChild : Nat) (generator : ρ) (world : World R S)
      (drawn : randSafe rand 0 w.generator = (seedForChild,generator))
      (forks : Step sub (seeded jobs w.seeds) limit total w.world (.forked w.world.id pid) (.ok world)) :
      SeededStep rand sub jobs limit total w (.forked w.world.id pid,some seedForChild)
        ⟨world,generator,w.seeds ++ [seedForChild]⟩
  | wait (w : SeededWorld ρ R S) (child : Child) (record : Option JobData) (world : World R S)
      (waits : Step sub (seeded jobs w.seeds) limit total w.world (.reaped child record) (.ok world)) :
      SeededStep rand sub jobs limit total w (.reaped child record,none) ⟨world,w.generator,w.seeds⟩

end Zofi.Model.Threads
