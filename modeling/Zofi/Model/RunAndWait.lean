import Zofi.Lib.SharedOffset
import Zofi.Model.WaitStatus

/-! The output files of a run: the child side of RunnerBase::run, the retry loop of
Runner::runAndWait and the comparison with the original run. -/
namespace Zofi.Model.RunAndWait
open SharedOffset Utils WaitStatus

structure Options where
  noRedirect : Bool := false
  injectionsPerRun : Nat := 1
  maxInjectionAttempts : Int := 100
  deriving DecidableEq, Repr

/-- StdoutFd and StderrFd, which every child inherits from the job process. -/
structure Files where
  stdoutFd : OpenFile Byte
  stderrFd : OpenFile Byte
  deriving DecidableEq, Repr

def initFiles : Files := ⟨{},{}⟩

/-- What is decided outside in one attempt: whether PTRACE_SETOPTIONS and
`tryInjectFaultAt` succeed, and what the child writes until it is killed or compared. -/
structure Attempt where
  setOptions : Bool
  injected : Bool
  stdout : List (List Byte)
  stderr : List (List Byte)
  deriving DecidableEq, Repr

def childWrites (opts : Options) (files : Files) (attempt : Attempt) : Files :=
  if opts.noRedirect then files
  else ⟨writes 0 (truncate files.stdoutFd) attempt.stdout,writes 0 (truncate files.stderrFd) attempt.stderr⟩

def injectOK (opts : Options) (attempt : Attempt) : Bool :=
  attempt.setOptions && decide (opts.injectionsPerRun > 0) && attempt.injected

/-- The loop goes round again; the `continue` after a failed run() gets here too. -/
def retries (opts : Options) (attempt : Attempt) : Bool :=
  !injectOK opts attempt && decide (opts.injectionsPerRun > 0)

def attemptLoop (opts : Options) : Nat → Files → List Attempt → Except Halt Files
  | _,_,[] => .error .waiting
  | attempts,files,attempt :: rest =>
    let attempts := (attempts + 2^32 - 1) % 2^32
    if attempts = 0 then .error (.userDie "Error: Failed to inject")
    else
      let files := childWrites opts files attempt
      if retries opts attempt then attemptLoop opts attempts files rest else .ok files

def runAndWait (opts : Options) (attempts : List Attempt) : Except Halt Files :=
  attemptLoop opts (toUnsigned opts.maxInjectionAttempts) initFiles attempts

inductive Call
  | run (success : Bool)
  | tryInjectFaultAt (injectOK : Bool)
  | userDie
  | waitChildAndGetStatus
  deriving DecidableEq, Repr

def attemptCalls (opts : Options) (attempt : Attempt) : List Call :=
  if attempt.setOptions && decide (opts.injectionsPerRun > 0) then [.run true,.tryInjectFaultAt attempt.injected]
  else [.run attempt.setOptions]

def loopCalls (opts : Options) : Nat → (Nat → Attempt) → List Call
  | 0,_ => [.userDie]
  | attempts + 1,next =>
    attemptCalls opts (next 0) ++
      if retries opts (next 0) then loopCalls opts attempts fun i => next (i + 1) else [.waitChildAndGetStatus]

def firstAttempts (opts : Options) : Nat := (toUnsigned opts.maxInjectionAttempts + 2^32 - 1) % 2^32

def runAndWaitCalls (opts : Options) (next : Nat → Attempt) : List Call := loopCalls opts (firstAttempts opts) next

/-- `defaultDiff`: both files from their start, in blocks of 256 bytes, until both are at
their end. -/
def defaultDiff (fp1 fp2 : List Byte) : Bool :=
  let buf1 := fp1.take 256
  let buf2 := fp2.take 256
  if buf1.length ≠ buf2.length ∨ buf1 ≠ buf2 then false
  else if _short : buf1.length < 256 then true
  else defaultDiff (fp1.drop 256) (fp2.drop 256)
  termination_by fp1.length
  decreasing_by
    have full : ¬ (fp1.take 256).length < 256 := _short
    rw [List.length_take] at full
    rw [List.length_drop]
    omega

end Zofi.Model.RunAndWait
