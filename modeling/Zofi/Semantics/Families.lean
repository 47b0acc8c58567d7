import Zofi.Model.Threads

/-! The scheduler among the processes its jobs start. A fork copies the descriptor table, no
descriptor is closed by an execve(), and a pipe is at its end when no process holds its write
end any more. -/
namespace Zofi.Semantics.Families
open Model.Utils Model.WaitStatus Model.Outcomes Model.Threads

variable {G R S : Type}

/-- A job's process, or one that it or a descendant of it has forked: a workload, its
daemons, the shell of a diff command. `pipe` is the job's own pipe. -/
structure Process where
  pid : Nat
  job : Nat
  pipe : Nat
  fds : List (Nat × PipeEnd)
  deriving DecidableEq, Repr

structure Host (R S : Type) where
  world : World R S
  processes : List Process := []

def Process.holds (p : Process) (number : Nat) : Bool := p.fds.any (·.2 == .writeEnd number)

def writable (processes : List Process) (number : Nat) : Bool := processes.any (·.holds number)

def inherited (rd wr : Nat) (w : World R S) : List (Nat × PipeEnd) :=
  w.fds ++ [(rd,.readEnd w.pipes.length),(wr,.writeEnd w.pipes.length)]

def jobProcess (pid rd wr : Nat) (w : World R S) : Process := ⟨pid,w.id,w.pipes.length,inherited rd wr w⟩

/-- A job's process has ended and is reaped; others can still hold its pipe open. -/
def reapChild (job : JobEnd R) (child : Child) (held : Bool) (w : World R S) : World R S :=
  {endChild job child w with
    pipes := w.pipes.modify child.pipe fun pipe => ⟨pipe.content.or job.wrote,held⟩}

inductive HostStep (sub : Subclass G R S) (jobs : Nat → JobEnd R) (limit total : Nat) :
    Host R S → Option Event → Except Halt (Host R S) → Prop
  | fork (h : Host R S) (pid rd wr : Nat) (more : h.world.id ≠ total) (room : h.world.activeJobs.length ≠ limit)
      (newPid : pid ∉ h.world.children.map (·.pid)) (newRd : rd ∉ h.world.fds.map (·.1))
      (newWr : wr ∉ h.world.fds.map (·.1)) (apart : rd ≠ wr) (unused : pid ∉ h.processes.map (·.pid)) :
      HostStep sub jobs limit total h (some (.forked h.world.id pid))
        (.ok ⟨forkJob pid rd wr h.world,h.processes ++ [jobProcess pid rd wr h.world]⟩)
  | wait (h : Host R S) (child : Child) (garbage : G) (blocks : Blocks limit total h.world)
      (member : child ∈ h.world.children) (ended : child.pid ∉ h.processes.map (·.pid)) :
      HostStep sub jobs limit total h
        (some (.reaped child (h.world.activeJobs.find? (·.childPID == child.pid))))
        ((waitForJob sub garbage child.pid (jobs child.job).ending.status
          (reapChild (jobs child.job) child (writable h.processes child.pipe) h.world)).map
            fun world => ⟨world,h.processes⟩)
  | spawn (h : Host R S) (p : Process) (member : p ∈ h.processes) (pid : Nat)
      (newPid : pid ∉ h.world.children.map (·.pid)) (unused : pid ∉ h.processes.map (·.pid)) :
      HostStep sub jobs limit total h none (.ok {h with processes := h.processes ++ [{p with pid}]})
  | dup (h : Host R S) (before after : List Process) (p : Process) (split : h.processes = before ++ p :: after)
      (fd new : Nat) (pipeEnd : PipeEnd) (opened : (fd,pipeEnd) ∈ p.fds) :
      HostStep sub jobs limit total h none
        (.ok {h with processes := before ++ {p with fds := (new,pipeEnd) :: close p.fds new} :: after})
  | close (h : Host R S) (before after : List Process) (p : Process) (split : h.processes = before ++ p :: after)
      (fd : Nat) :
      HostStep sub jobs limit total h none
        (.ok {h with processes := before ++ {p with fds := close p.fds fd} :: after})
  | exit (h : Host R S) (before after : List Process) (p : Process) (split : h.processes = before ++ p :: after) :
      HostStep sub jobs limit total h none (.ok {h with processes := before ++ after})

def HostMoves (sub : Subclass G R S) (jobs : Nat → JobEnd R) (limit total : Nat) (h : Host R S)
    (event : Option Event) (h' : Host R S) : Prop :=
  HostStep sub jobs limit total h event (.ok h')

end Zofi.Semantics.Families
