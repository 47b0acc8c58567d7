import Zofi.Lib.Descriptors
import Zofi.Model.TestRun

/-! The descriptors of a runner: what its constructor, run(), the comparison of its output and its
destructor open and close, beside the rest of the process. -/
namespace Zofi.Model.Terminals
open Descriptors Utils TestRun

/-- Between which of its calls the runner is. -/
inductive Control
  | initStdout
  | initStderr
  | idle
  | forking
  | running
  | openOtherStderr
  | compare
  | closeOtherStdout
  | closeOtherStderr
  | closeStderr
  | closeTerminal
  | destroyed
  | died (halt : Halt)
  deriving DecidableEq, Repr

structure World where
  exState : ExecutionExitState
  childTerminalFd : Int := -1
  /-- The locals of `operator==`. -/
  otherStdoutFd : Int := -1
  otherStderrFd : Int := -1
  table : Table
  /-- The openings that mkstempSafe and openSafe have returned. -/
  files : List Nat := []
  /-- The openings that forkptySafe has returned, in order. -/
  terminals : List Nat := []
  control : Control := .initStdout

def World.next (w : World) (result : Except Halt World) (control : Control) : World :=
  match result with
  | .ok w' => {w' with control}
  | .error halt => {w with control := .died halt}

def closeSafe (fd : Int) (w : World) : Except Halt World :=
  match w.table.close fd with
  | some table => .ok {w with table}
  | none => .error (.die "close() error")

def openFile (message : String) (w : World) : Option w.table.Unused → Except Halt (Int × World)
  | some fd => .ok (fd.val,{w with table := w.table.open_ fd,files := w.files ++ [w.table.opened]})
  | none => .error (.die message)

def mkstempSafe (file : String) (w : World) (answer : Option w.table.Unused) : Except Halt (Int × World) :=
  openFile ("failed to open " ++ file) w answer

def openSafe (path : String) (w : World) (answer : Option w.table.Unused) : Except Halt (Int × World) :=
  openFile ("Failed to open " ++ path) w answer

def initStdout (w : World) (answer : Option w.table.Unused) : Except Halt World := do
  let (fd,w) ← mkstempSafe w.exState.stdoutFile w answer
  return {w with exState := {w.exState with stdoutFd := fd}}

def initStderr (w : World) (answer : Option w.table.Unused) : Except Halt World := do
  let (fd,w) ← mkstempSafe w.exState.stderrFile w answer
  return {w with exState := {w.exState with stderrFd := fd}}

/-- The stored descriptor is left as it is. -/
def closeOpenTerminal (w : World) : Except Halt World :=
  if w.childTerminalFd ≠ -1 then closeSafe w.childTerminalFd w else .ok w

def forkptySafe (w : World) : Option w.table.Unused → Except Halt (Int × World)
  | some fd => .ok (fd.val,{w with table := w.table.open_ fd,terminals := w.terminals ++ [w.table.opened]})
  | none => .error (.die "Error: forkpty() failed.")

def forkTerminal (w : World) (answer : Option w.table.Unused) : Except Halt World := do
  let (fd,w) ← forkptySafe w answer
  return {w with childTerminalFd := fd}

def forkSafe (w : World) (success : Bool) : Except Halt World :=
  if success then .ok w else .error (.die "Error: fork() failed.")

inductive Attached
  | waitpidFails
  | setOptionsFails
  | contFails
  | continues
  deriving DecidableEq, Repr

def attach : Attached → Except Halt Bool
  | .waitpidFails => .error (.die "waitpid() failed")
  | .setOptionsFails => .ok false
  | .contFails => .error (.die "ptrace() failed.")
  | .continues => .ok true

def openOtherStdout (other : ExecutionExitState) (w : World) (answer : Option w.table.Unused) : Except Halt World := do
  let (fd,w) ← openSafe other.stdoutFile w answer
  return {w with otherStdoutFd := fd}

def openOtherStderr (other : ExecutionExitState) (w : World) (answer : Option w.table.Unused) : Except Halt World := do
  let (fd,w) ← openSafe other.stderrFile w answer
  return {w with otherStderrFd := fd}

def closeFile (fd : Int) (w : World) : Except Halt World := if 0 ≤ fd then closeSafe fd w else .ok w

inductive Event
  | constructs
  | runs
  | forks
  | returns (success : Except Halt Bool)
  | compares
  | destroys
  /-- The rest of the process opens or closes a descriptor of its own. -/
  | other

/-- One call at a time; the kernel may give any descriptor that is not in use. -/
inductive Step (noRedirect : Bool) : World → Event → World → Prop
  | initStdout (w : World) (answer : Option w.table.Unused) (at_ : w.control = .initStdout) :
      Step noRedirect w .constructs (w.next (initStdout w answer) .initStderr)
  | initStderr (w : World) (answer : Option w.table.Unused) (at_ : w.control = .initStderr) :
      Step noRedirect w .constructs (w.next (initStderr w answer) .idle)
  | run (w : World) (at_ : w.control = .idle) : Step noRedirect w .runs (w.next (closeOpenTerminal w) .forking)
  | forkpty (w : World) (answer : Option w.table.Unused) (at_ : w.control = .forking) (redirects : noRedirect = false) :
      Step noRedirect w .forks (w.next (forkTerminal w answer) .running)
  | fork (w : World) (success : Bool) (at_ : w.control = .forking) (plain : noRedirect = true) :
      Step noRedirect w .forks (w.next (forkSafe w success) .running)
  | returns (w : World) (attached : Attached) (at_ : w.control = .running) :
      Step noRedirect w (.returns (attach attached)) (w.next ((attach attached).map fun _ => w) .idle)
  | openOtherStdout (w : World) (other : ExecutionExitState) (answer : Option w.table.Unused) (at_ : w.control = .idle) :
      Step noRedirect w .compares (w.next (openOtherStdout other w answer) .openOtherStderr)
  | openOtherStderr (w : World) (other : ExecutionExitState) (answer : Option w.table.Unused)
      (at_ : w.control = .openOtherStderr) :
      Step noRedirect w .compares (w.next (openOtherStderr other w answer) .compare)
  | compare (w : World) (disk : Disk) (other : ExecutionExitState) (at_ : w.control = .compare) :
      Step noRedirect w .compares (w.next ((w.exState.same disk other).map fun _ => w) .closeOtherStdout)
  | closeOtherStdout (w : World) (at_ : w.control = .closeOtherStdout) :
      Step noRedirect w .compares (w.next (closeSafe w.otherStdoutFd w) .closeOtherStderr)
  | closeOtherStderr (w : World) (at_ : w.control = .closeOtherStderr) :
      Step noRedirect w .compares (w.next (closeSafe w.otherStderrFd w) .idle)
  | destroy (w : World) (at_ : w.control = .idle) :
      Step noRedirect w .destroys (w.next (closeFile w.exState.stdoutFd w) .closeStderr)
  | closeStderr (w : World) (at_ : w.control = .closeStderr) :
      Step noRedirect w .destroys (w.next (closeFile w.exState.stderrFd w) .closeTerminal)
  | closeTerminal (w : World) (at_ : w.control = .closeTerminal) :
      Step noRedirect w .destroys (w.next (closeOpenTerminal w) .destroyed)
  | otherOpens (w : World) (fd : w.table.Unused) : Step noRedirect w .other {w with table := w.table.open_ fd}
  | otherCloses (w : World) (entry : Entry) (member : entry ∈ w.table.entries)
      (foreign : entry.opening ∉ w.files ++ w.terminals) :
      Step noRedirect w .other {w with table := w.table.without entry member}

end Zofi.Model.Terminals
