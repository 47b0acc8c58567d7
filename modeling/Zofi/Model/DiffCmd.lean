import Zofi.Lib.Replacement
import Zofi.Lib.Streams
import Zofi.Model.TestRun

/-! strReplace() and the command that checkOutput() makes of -diff-cmd. -/
namespace Zofi.Model.DiffCmd
open Replacement Streams TestRun

def replace (str : List Char) (pos length : Nat) (to_ : List Char) : List Char :=
  str.take pos ++ to_ ++ str.drop (pos + length)

def strReplaceRound (from_ to_ str : List Char) : List Char ⊕ List Char :=
  match find from_ str with
  | none => .inl str
  | some pos => .inr (replace str pos from_.length to_)

def strReplace (from_ to_ : List Char) (fuel : Nat) (str : List Char) : Option (List Char) :=
  iterate (strReplaceRound from_ to_) fuel str

def replacedAt (from_ to_ : List Char) : Nat → List Char → List Nat
  | 0,_ => []
  | fuel + 1,str =>
    match find from_ str with
    | none => []
    | some pos => pos :: replacedAt from_ to_ fuel (replace str pos from_.length to_)

def origStdout : List Char := "%ORIG_STDOUT".toList
def origStderr : List Char := "%ORIG_STDERR".toList
def testStdout : List Char := "%TEST_STDOUT".toList
def testStderr : List Char := "%TEST_STDERR".toList

def evalDiffCmd (fuel : Nat) (orig test : ExecutionExitState) (diffCmd : String) : Option (List Char) := do
  let cmd ← strReplace origStdout orig.stdoutFile.toList fuel diffCmd.toList
  let cmd ← strReplace origStderr orig.stderrFile.toList fuel cmd
  let cmd ← strReplace testStdout test.stdoutFile.toList fuel cmd
  strReplace testStderr test.stderrFile.toList fuel cmd

/-- What a forked process finds: whether /dev/null and a shell can be opened and executed, and how the
shell ends on `-c Cmd`, with its outputs on /dev/null or where they are. -/
structure Shells where
  devNull : Bool
  executes : String → Bool
  ends : String → List Char → (redirected : Bool) → WaitStatus.Ending

def shellProcess (shells : Shells) (diffDisableRedirect : Bool) (cmd : List Char) (shell : String) : WaitStatus.Ending :=
  if !diffDisableRedirect && !shells.devNull then .signaled WaitStatus.Signal.abrt false
  else if !shells.executes shell then .signaled WaitStatus.Signal.abrt false
  else shells.ends shell cmd (!diffDisableRedirect)

def systemCustom (shells : Shells) (diffDisableRedirect : Bool) (cmd : List Char) (shell : String) :
    Except Utils.Halt Bool := do
  let exState ← WaitStatus.getWaitPidExitState (shellProcess shells diffDisableRedirect cmd shell).status
  return exState.type == .exited && exState.val == 0

/-- The branch of `checkOutput` for -diff-cmd, for the files of the original and the test run. -/
def userDiff (shells : Shells) (diffDisableRedirect : Bool) (fuel : Nat) (diffCmd diffShell : String)
    (orig test : ExecutionExitState) : Except Utils.Halt Bool :=
  match evalDiffCmd fuel orig test diffCmd with
  | none => .error .waiting
  | some cmd => systemCustom shells diffDisableRedirect cmd diffShell

example : strReplace origStdout "/tmp/out".toList 3 "diff %ORIG_STDOUT %ORIG_STD".toList =
    some "diff /tmp/out %ORIG_STD".toList := by decide

end Zofi.Model.DiffCmd
