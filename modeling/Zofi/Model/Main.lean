import Zofi.Lib.Interleave
import Zofi.Lib.Transitions
import Zofi.Model.TestRun

/-! main() and the temporary files: those that the processes of the original and the test
runs make, and those that are removed. -/
namespace Zofi.Model.Main
open Interleave Transitions Utils WaitStatus Threads TestRun

structure Options where
  disableTimingRun : Bool := false
  binExecTime : Bool := false
  setOrigExitState : Option (String × String) := none
  noCleanup : Bool := false
  jobs : Nat := 1
  testRuns : Nat := 1

inductive FileEvent
  | create (file : String)
  | compare (id : Nat)
  | remove (file : String)
  deriving DecidableEq, Repr

/-- The files of a run, under the names mkstemp() has picked. -/
def initFiles (exState : ExecutionExitState) : List FileEvent := [.create exState.stdoutFile,.create exState.stderrFile]

def removeFiles (exState : ExecutionExitState) : List FileEvent :=
  [exState.stdoutFile,exState.stderrFile].flatMap fun file => if file ≠ "" then [.remove file] else []

def destructor (opts : Options) (doCleanup : Bool) (exState : ExecutionExitState) : List FileEvent :=
  if opts.noCleanup || !doCleanup then [] else removeFiles exState

/-- The process of an original run: NoCleanup is what its DoCleanup is made of. -/
def origJob (opts : Options) (exState : ExecutionExitState) : List FileEvent :=
  initFiles exState ++ destructor opts opts.noCleanup exState

def testJob (opts : Options) (id : Nat) (exState : ExecutionExitState) : List FileEvent :=
  initFiles exState ++ .compare id :: destructor opts true exState

namespace Options

def runsOriginal (opts : Options) : Bool :=
  !opts.disableTimingRun && (!opts.binExecTime || opts.setOrigExitState.isNone)

def numOrigJobs (opts : Options) : Nat := min opts.jobs opts.testRuns

def origJobs (opts : Options) : Nat := if opts.runsOriginal then opts.numOrigJobs else 0

/-- The exit state that is imported goes over the one collected. -/
def importFiles (opts : Options) (origState : ExecutionExitState) : ExecutionExitState :=
  match opts.setOrigExitState with
  | some (stdoutFile,stderrFile) => {origState with stdoutFile,stderrFile}
  | none => origState

def removeOriginal (opts : Options) (origState : ExecutionExitState) : List FileEvent :=
  if !opts.noCleanup && opts.setOrigExitState.isNone then removeFiles origState else []

end Options

def CollectsOrig (opts : Options) (orig : Nat → ExecutionExitState) (origState : ExecutionExitState) : Prop :=
  if opts.runsOriginal then
    ∃ events w, Run (fun w event w' => Step (origJobScheduler ExecutionExitState)
        (fun id => ⟨some (orig id),.exited exitSuccess⟩) opts.jobs opts.numOrigJobs w event (.ok w'))
        {results := {}} events w ∧ Finished opts.numOrigJobs w ∧ origState = w.results
  else origState = {}

inductive MainRun (opts : Options) (orig test : Nat → ExecutionExitState) : List FileEvent → Prop
  | intro (origState : ExecutionExitState) (origTrace testTrace : List FileEvent)
      (collects : CollectsOrig opts orig origState)
      (origRuns : Interleaves ((List.range opts.origJobs).map fun id => origJob opts (orig id)) origTrace)
      (testRuns : Interleaves ((List.range opts.testRuns).map fun id => testJob opts id (test id)) testTrace) :
      MainRun opts orig test (origTrace ++ testTrace ++ opts.removeOriginal (opts.importFiles origState))

/-- mkstemp() picks a name that no file has. -/
def Fresh (existing : List String) (trace : List FileEvent) : Prop :=
  ∀ before file after, trace = before ++ .create file :: after →
    file ≠ "" ∧ file ∉ existing ∧ before.count (.create file) = before.count (.remove file)

end Zofi.Model.Main
