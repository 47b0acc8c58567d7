import Zofi.Model.RegManip

/-! OptionsParser::sanityChecks on the options of the injection. -/
namespace Zofi.Model.OptionsParser
open Utils Regs RegManip

/-- The values the user has given; an option that is not set keeps its default. -/
structure CommandLine where
  injectTo : Option String := none
  forceInjectToReg : Option String := none
  forceInjectToBit : Option String := none
  dontInjectToLibs : Bool := false
  deriving DecidableEq, Repr

def CommandLine.options (line : CommandLine) : Options where
  injectTo := line.injectTo.getD "rwe"
  forceInjectToReg := line.forceInjectToReg
  forceInjectToBit := line.forceInjectToBit
  dontInjectToLibs := line.dontInjectToLibs

def strtolCheck (text : String) : Option Int :=
  let (value,rest) := strtol text.toList
  if text.toList = [] ∨ rest ≠ [] then none else some value

def userDieIf (condition : Bool) (message : String) : Except Halt Unit :=
  if condition then .error (.userDie message) else .ok ()

def checkInjectTo (injectTo : String) : Except Halt Unit := do
  injectTo.toList.forM fun c =>
    userDieIf (!(['r','w','e','i','c','o'].contains c)) ("Illegal -inject-to character: " ++ c.toString)
  userDieIf (!isIn injectTo "r" && !isIn injectTo "w")
    ("No read (r) or write (w) registers selected for injection: " ++ injectTo ++ ".")
  userDieIf (!isIn injectTo "e" && !isIn injectTo "i" && !isIn injectTo "c" && !isIn injectTo "o")
    ("No explicit (e) / implicit(i) registers or Instr. pointer (c or o) selectied: " ++ injectTo ++ ".")

/-- Every row of the table is compared with the forced register. -/
def checkForcedRange (forcedReg : String) (forceBitNum : Int) : Except Halt Unit :=
  strToRegMap.forM fun (name,data) =>
    userDieIf (forcedReg == name && decide ((data.startBit + data.bits : Int) ≤ forceBitNum))
      ("Error: -force-inject-to-bit bit '" ++ toString forceBitNum ++ "' is out of range.\n" ++
        "The valid bit-range for " ++ forcedReg ++ " is " ++ toString data.startBit ++ "-" ++
        toString (data.startBit + data.bits - 1) ++ ".\n")

def checkForcedBit (line : CommandLine) (forcedBit : String) : Except Halt Unit :=
  if forcedBit = "help" then .ok ()
  else match (strtolCheck forcedBit).filter (0 ≤ ·) with
    | none => .error (.userDie ("Bad option '" ++ forcedBit ++ "' passed to -force-inject-to-bit."))
    | some forceBitNum =>
      match line.forceInjectToReg with
      | some forcedReg => checkForcedRange forcedReg forceBitNum
      | none => .ok ()

def sanityChecks (line : CommandLine) : Except Halt Unit := do
  userDieIf (line.injectTo.isSome && line.forceInjectToReg.isSome)
    "Cannot enable both '-inject-to' and '-force-inject-to-reg' at the same time."
  checkInjectTo line.options.injectTo
  match line.forceInjectToBit with
  | some forcedBit => checkForcedBit line forcedBit
  | none => .ok ()

example : sanityChecks {injectTo := some "rwei"} = .ok () := by decide

end Zofi.Model.OptionsParser
