import Zofi.Model.Wait

/-! The runner against a sequence of wait events: each waitpid(-1) delivers the next one. -/
namespace Zofi.Semantics.WaitEvents
open Sys Model.Utils Model.WaitStatus Model.Wait

structure WaitEvent where
  pid : Nat
  status : Nat
  message : Nat := 0
  deriving DecidableEq, Repr

structure Events where
  consumed : List WaitEvent := []
  coming : List WaitEvent
  deriving DecidableEq, Repr

def waitpidAny : Prog Halt (World Events) (Option (Nat × Nat)) := do
  let w ← get
  match w.outside.coming with
  | [] => throw .waiting
  | event :: rest =>
    let outside : Events := ⟨w.outside.consumed ++ [event],rest⟩
    set {w with outside}
    return some (event.pid,event.status)

/-- `continues` says which of the requests to continue a tracee succeed. -/
def calls (continues : Nat → Bool) : WaitCalls Events where
  waitpidAny := waitpidAny
  getEventMsg _ := return (← get).outside.consumed.getLast?.map (·.message)
  cont pid := return continues pid

def announced (event : WaitEvent) : Option Nat :=
  if isCloneEvent event.status then some event.message else none

def ended (event : WaitEvent) : Option Nat :=
  if wIfExited event.status || wIfSignaled event.status then some event.pid else none

def Live (events : List WaitEvent) (thread : Nat) : Prop :=
  ∃ before event after, events = before ++ event :: after ∧ announced event = some thread ∧
    ∀ later ∈ after, ended later ≠ some thread

end Zofi.Semantics.WaitEvents
