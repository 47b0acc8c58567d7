import Zofi.Lib.Lines
import Zofi.Model.Printing
import Zofi.Model.StatisticsObject

/-! What main() reports behind the test runs: the table of Statistics::dump, which the get_outcome
script of the tests reads, and the file of Statistics::dumpToCSV. -/
namespace Zofi.Model.Report
open Lines Utils Outcomes StatisticsObject Printing

variable {ρ : Type}

def newStatistics (options : Options) (origExecTime : ρ) : Except Halt (Object ρ) :=
  (Object.new options).setDouble .origExecTime origExecTime

def setTotals (object : Object ρ) (counts : Statistics) (testsExecTime : ρ) (options : Options) :
    Except Halt (Object ρ) := do
  let object ← {object with counts}.setDouble .testsExecTime testsExecTime
  object.setULong .numTests options.testRuns

def ruler : List Char := List.replicate 31 '-'

def heading : List Char := setwLeft 16 "Outcome".toList ++ ": ".toList ++ setwLeft 3 "Cnt".toList ++ ", ".toList ++
  setwRight 5 "%".toList

def dumpStats (detectionExitCode : Int) (stats : Statistics) : List StatType :=
  [.masked,.exception,.infExec,.corrupted] ++ (if detectionExitCode ≠ 0 then [.detected] else []) ++
    if stats.uLongMap .skipped ≠ 0 then [.skipped] else []

/-- `showShare` prints the quotient of 100 times a counter and the total, a float. -/
def dumpRow (showShare : Nat → Nat → List Char) (stats : Statistics) (s : StatType) : List Char :=
  setwLeft 16 (getTypeStr s).toList ++ ": ".toList ++ setwRight 3 (Nat.toDigits 10 (stats.uLongMap s)) ++ ", ".toList ++
    setwRight 7 (showShare (stats.uLongMap s) stats.totalInjOK) ++ "%".toList

def dumpLines (showShare : Nat → Nat → List Char) (detectionExitCode : Int) (stats : Statistics) : List (List Char) :=
  if stats.totalInjOK = 0 then ["No Results.".toList]
  else [[],ruler,heading,ruler] ++ (dumpStats detectionExitCode stats).map (dumpRow showShare stats)

def dump (showShare : Nat → Nat → List Char) (detectionExitCode : Int) (stats : Statistics) : List Char :=
  unlines '\n' (dumpLines showShare detectionExitCode stats)

def isShareChar (c : Char) : Bool := c.isDigit || c == '.'

/-- `grep <Outcome> | grep -o '<first>' | grep -o '<second>'`, for an outcome without metacharacters. -/
def filterLines (outcome : List Char) (first second : List Char → Nat) (input : List Char) : List (List Char) :=
  ((lines '\n' input).filter fun line => decide (outcome <:+: line)).flatMap fun line =>
    (matches_ first line).flatMap (matches_ second)

/-- The script test/builtins/get_outcome: the lines it prints, or its complaint. -/
def getOutcome (args : List String) (input : List Char) : Except String (List (List Char)) :=
  match args with
  | [outcome,filter] =>
    if filter = "N" then .ok (filterLines outcome.toList (runThen Char.isDigit ',') (run Char.isDigit) input)
    else if filter = "%" then .ok (filterLines outcome.toList (runThen isShareChar '%') (run isShareChar) input)
    else .error ("Bad Filter " ++ filter)
  | _ => .error "Usage: get_outcome <Outcome> <CNT|%>"

example : getOutcome ["Masked","N"] (dump (fun _ _ => "33.3".toList) 0
    {uLongMap := fun s => if s = .masked then 5 else 0,totalInjOK := 15}) = .ok ["5".toList] := by decide

def csvStats : List StatType :=
  [.binary,.injectTo,.testRuns,.masked,.exception,.infExec,.corrupted,.origExecTime,.testsExecTime,.numTests]

def fieldWidth : Nat := 10

def delim : List Char := ", ".toList

def csvLine (fields : List (List Char)) : List Char := fields.flatMap fun field => setwRight fieldWidth field ++ delim

def csvHeader : List (List Char) := csvStats.map fun stat => (getTypeStr stat).toList

abbrev Files := String → Option (List Char)

/-- `opens` are the files that can be opened for appending, which makes a file that is not there. -/
def dumpToCSV (opens : String → Bool) (showDouble : ρ → String) (outCsvFile : String) (object : Object ρ)
    (files : Files) : Except Halt Files := do
  let fileExists := (files outCsvFile).isSome
  if !opens outCsvFile then throw (.userDie ("Error opening file " ++ outCsvFile))
  let fields ← csvStats.mapM fun stat => return (← object.getStr showDouble stat).toList
  let content := (files outCsvFile).getD [] ++ unlines '\n' ((if fileExists then [] else [csvLine csvHeader]) ++ [csvLine fields])
  return Function.update files outCsvFile (some content)

/-! The end of main(). -/

def printResults (showShare : Nat → Nat → List Char) (verboseLevel detectionExitCode : Int) (stats : Statistics) : List Char :=
  if verboseLevel ≥ 1 then dump showShare detectionExitCode stats else []

/-- `outCsvFile` is there if -out-csv is set. -/
def writeResults (opens : String → Bool) (showDouble : ρ → String) (outCsvFile : Option String) (object : Object ρ)
    (files : Files) : Except Halt Files :=
  match outCsvFile with
  | some outCsvFile => dumpToCSV opens showDouble outCsvFile object files
  | none => .ok files

end Zofi.Model.Report
