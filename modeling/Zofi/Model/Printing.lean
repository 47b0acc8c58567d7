import Zofi.Lib.Streams
import Zofi.Model.Utils

/-! What the tool prints: the time that is left, and the list of the options. -/
namespace Zofi.Model.Printing
open Streams Utils

def setwRight (width : Nat) (text : List Char) : List Char := List.replicate (width - text.length) ' ' ++ text

def secsInDay : Nat := 3600 * 24
def secsInHour : Nat := 3600
def secsInMin : Nat := 60
def secsInSec : Nat := 1

def timeUnits : List (Nat × String) := [(secsInDay,"d"),(secsInHour,"h"),(secsInMin,"m"),(secsInSec,"s")]

def printUnits : List (Nat × String) → Bool → Nat → List (Nat × Nat × String)
  | [],_,_ => []
  | (secondsInUnit,unitStr) :: units,printNext,seconds =>
    if seconds > secondsInUnit || printNext then
      let unit := seconds / secondsInUnit
      (unit,secondsInUnit,unitStr) :: printUnits units true (seconds - unit * secondsInUnit)
    else printUnits units printNext seconds

def prettyPrintTime (seconds : Nat) : List (Nat × Nat × String) := printUnits timeUnits false seconds

def timeText (seconds : Nat) : String :=
  String.ofList ((prettyPrintTime seconds).flatMap fun (unit,_,unitStr) =>
    setwRight 2 (Nat.toDigits 10 unit) ++ unitStr.toList)

example : timeText 90061 = " 1d 1h 1m 1s" := by decide

/-- A C string, without its terminator. -/
abbrev CString := {text : List Char // '\x00' ∉ text}

/-- `text[idx]`: only the terminator can be read behind the characters. -/
def CString.charAt (text : CString) (idx : Nat) : Except Halt Char :=
  match text.val[idx]? with
  | some c => .ok c
  | none => if idx = text.val.length then .ok '\x00' else .error (.undefined "read behind the terminator")

structure OptionEntry where
  flag : CString
  description : CString

structure Line where
  flagColumn : List Char
  separator : List Char
  piece : List Char
  deriving DecidableEq, Repr

def Line.text (line : Line) : List Char := ' ' :: (line.flagColumn ++ line.separator ++ line.piece)

def setwLeft (width : Nat) (text : List Char) : List Char := text ++ List.replicate (width - text.length) ' '

def isLineSplitCandidate (c : Char) : Bool := c == ' ' || c == '\x00' || c == ','

def maxFlagW (options : List OptionEntry) : Nat :=
  options.foldl (fun width option => max width option.flag.val.length) 0

/-- A size_t that is kept in an unsigned. -/
def maxSubstrLen (maxFlagW : Nat) : Nat := ((80 - (maxFlagW + 3 + 1) : Int) % 2^32).toNat

/-- The loop that looks for the split, from `LastSpaceIdx + 1` down to `SubstrLen`. -/
def substrLen (description : CString) (printedSubstrLen : Nat) : Nat → Except Halt Nat
  | 0 => .ok 0
  | lastSpaceIdx + 1 => do
    if isLineSplitCandidate (← description.charAt ((printedSubstrLen + lastSpaceIdx) % 2^32)) then
      return lastSpaceIdx + 1
    substrLen description printedSubstrLen lastSpaceIdx

def descrLen (description : CString) : Nat := description.val.length % 2^32

def printLine (maxFlagW : Nat) (option : OptionEntry) (printedSubstrLen : Nat) : Except Halt (Line × Nat) := do
  let left := descrLen option.description - printedSubstrLen
  let lastSpaceIdx := if maxSubstrLen maxFlagW - 1 ≤ left then maxSubstrLen maxFlagW - 1 else left
  assert (decide (lastSpaceIdx < 2^31)) "Please fix the option description. It cannot be split to fit 80-columns."
  let length ← substrLen option.description printedSubstrLen (lastSpaceIdx + 1)
  let copied ← (List.range length).mapM fun i => option.description.charAt (printedSubstrLen + i)
  if 80 ≤ length then throw (.undefined "write behind DescrSubstr")
  return (⟨setwLeft maxFlagW (if printedSubstrLen = 0 then option.flag.val else [' ']),
    if printedSubstrLen = 0 then " : ".toList else "   ".toList,copied.takeWhile (· ≠ '\x00')⟩,length)

structure Printed where
  substrLen : Nat := 0
  lines : List Line := []

def printRound (maxFlagW : Nat) (option : OptionEntry) (printed : Printed) : Except Halt (List Line) ⊕ Printed :=
  if printed.substrLen < descrLen option.description then
    match printLine maxFlagW option printed.substrLen with
    | .error halt => .inl (.error halt)
    | .ok (line,length) => .inr ⟨(printed.substrLen + length) % 2^32,printed.lines ++ [line]⟩
  else .inl (.ok printed.lines)

/-- `none` if the wrapping loop has not come to its end in so many rounds. -/
def printOption (fuel maxFlagW : Nat) (option : OptionEntry) : ExceptT Halt Option (List Line) :=
  ExceptT.mk (iterate (printRound maxFlagW option) fuel {})

/-- The options come in the order of the map. -/
def printAllOptions (fuel : Nat) (options : List OptionEntry) : ExceptT Halt Option (List Line) :=
  options.foldlM (fun lines option => do
    ExceptT.mk (some (assert (decide (40 < maxSubstrLen (maxFlagW options)))
      "Some flag is too long! We need at least 40 columns for the description."))
    return lines ++ (← printOption fuel (maxFlagW options) option)) []

end Zofi.Model.Printing
