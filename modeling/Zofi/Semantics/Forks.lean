import Zofi.Model.InjectionRun
import Zofi.Semantics.Ptrace

/-! fork() and PTRACE_SETOPTIONS over the threads of one child. The new process is traced from
its fork to its end, and may stop, exit or be killed at once. -/
namespace Zofi.Semantics.Forks
open Sys Model.Utils Model.Wait Model.InjectionRun Semantics.Ptrace

def newChild (pid : Nat) : Kernel := {leader := pid,tasks := Finmap.singleton pid .running}

/-- The pid of the next child, and what becomes of the threads if those of an earlier child are
still there: that may be anything. -/
structure Forking where
  pid : World Kernel → Option Nat
  beside : World Kernel → Nat → Kernel

def forked (forking : Forking) (w : World Kernel) : Option Nat × World Kernel :=
  match forking.pid w with
  | none => (none,w)
  | some pid =>
    (some pid,{w with outside := if w.outside.tasks.keys = ∅ then newChild pid else forking.beside w pid})

def runOs (allows : World Kernel → Ev → Bool) (replies : Replies) (forking : Forking) : RunOs Timeline where
  toOs := os allows replies
  fork := request allows (atCall (forked forking))
  setOptions t := request allows (atCall (onKernel fun k => (k.stopped t,k)))

def beforeRun (future : List Ev) : World Timeline := ⟨{childPID := 0},⟨{leader := 0,tasks := ∅},future⟩⟩

end Zofi.Semantics.Forks
