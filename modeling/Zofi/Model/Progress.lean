import Zofi.Model.Printing
import Zofi.Model.Threads

/-! The progress bar, and the scheduler's loop with the bar it displays behind each reaped job. -/
namespace Zofi.Model.Progress
open Utils WaitStatus Printing Threads

structure ProgressBar where
  max : Nat
  size : Nat
  p0 : Nat := 0
  p25 : Nat
  p50 : Nat
  p75 : Nat
  p100 : Nat
  lastFillSize : Nat := 0
  deriving DecidableEq, Repr

def rateSize : Nat := 6

def counterSize : Nat := 8

def newBar (max size : Nat) : ProgressBar where
  max := max
  size := size
  p25 := size * 25 % 2^32 / 100
  p50 := size * 50 % 2^32 / 100
  p75 := size * 75 % 2^32 / 100
  p100 := size

/-- What is computed in floating point from the time that has passed: the text of the rate, and the
seconds that are left, from the jobs left and done. -/
structure Clock where
  rate : Nat → String
  eta : Nat → Nat → Nat

def jobsLeft (max cnt : Nat) : Nat := (max + 2^64 - cnt) % 2^64

def drawCounter (bar : ProgressBar) (clock : Clock) (cnt : Nat) : List Char :=
  setwRight rateSize (clock.rate cnt).toList ++ "r/s ".toList ++
    (if cnt > 0 then (timeText (clock.eta (jobsLeft bar.max cnt) cnt)).toList else []) ++
    setwRight counterSize (Nat.toDigits 10 cnt) ++ "/".toList ++ setwLeft counterSize (Nat.toDigits 10 bar.max) ++
    ": ".toList

def clearLineAndCR : List Char := "\x1b[2K\r".toList

def barText (bar : ProgressBar) (c : String) (cnt : Nat) : String :=
  if cnt = bar.p0 then "0%"
  else if cnt = bar.p25 then "25%"
  else if cnt = bar.p50 then "50%"
  else if cnt = bar.p75 then "75%"
  else if cnt = bar.p100 then "100%"
  else c

/-- No unsigned `Cnt` is above the largest `End`. -/
def draw (bar : ProgressBar) (end_ : Nat) (c : String) : Except Halt (List Char × ProgressBar) :=
  if end_ + 1 = 2^32 then .error (.undefined "the loop of draw() does not end")
  else .ok ((List.range (end_ + 1)).flatMap fun cnt => (barText bar c cnt).toList,{bar with lastFillSize := end_})

def init (bar : ProgressBar) (clock : Clock) : Except Halt (List Char × ProgressBar) := do
  let (text,bar) ← draw bar bar.size " "
  return (drawCounter bar clock 0 ++ text,bar)

def fillSize (bar : ProgressBar) (val : Nat) : Except Halt Nat :=
  if bar.max = 0 then .error (.undefined "division by zero") else .ok (val * bar.size % 2^64 / bar.max % 2^32)

def display (bar : ProgressBar) (clock : Clock) (val : Nat) : Except Halt (List Char × ProgressBar) := do
  let counter := drawCounter bar clock val
  let (text,bar) ← draw bar (← fillSize bar val) "="
  return (clearLineAndCR ++ counter ++ text,bar)

variable {G R S : Type}

structure BarWorld (R S : Type) where
  world : World R S
  bar : ProgressBar
  barCnt : Nat := 0
  displayed : List (Nat × Nat) := []
  output : List Char := []

def barSize : Nat := 30

def startBar (showingBar : Bool) (clock : Clock) (totalNumJobs : Nat) (results : S) : Except Halt (BarWorld R S) := do
  let bar := newBar totalNumJobs barSize
  if showingBar then
    let (output,bar) ← init bar clock
    return {world := {results},bar,output}
  return {world := {results},bar}

def updateBar (showingBar : Bool) (clock : Clock) (w : BarWorld R S) : Except Halt (BarWorld R S) :=
  if showingBar then do
    let barCnt := (w.barCnt + 1) % 2^32
    let (text,bar) ← display w.bar clock barCnt
    return {w with
      bar
      barCnt
      displayed := w.displayed ++ [(barCnt,bar.lastFillSize)]
      output := w.output ++ text }
  else .ok w

/-- The steps of `run`: the bar is displayed behind every wait, in whichever of the two loops. -/
inductive BarStep (showingBar : Bool) (sub : Subclass G R S) (jobs : Nat → JobEnd R) (limit total : Nat) :
    BarWorld R S → Event → Except Halt (BarWorld R S) → Prop
  | fork (w : BarWorld R S) (pid : Nat) (world : World R S)
      (forks : Step sub jobs limit total w.world (.forked w.world.id pid) (.ok world)) :
      BarStep showingBar sub jobs limit total w (.forked w.world.id pid) (.ok {w with world})
  | wait (w : BarWorld R S) (child : Child) (record : Option JobData) (result : Except Halt (World R S)) (clock : Clock)
      (waits : Step sub jobs limit total w.world (.reaped child record) result) :
      BarStep showingBar sub jobs limit total w (.reaped child record)
        (result.bind fun world => updateBar showingBar clock {w with world})

end Zofi.Model.Progress
