import Zofi.Semantics.StateChanges
import Zofi.Verdict

/-! For which arrivals of its state changes `cleanupWaitpidState` leaves nothing of a killed process. -/
namespace Zofi.StateCleanup
open Sys Model.Utils Model.WaitStatus Model.Wait Model.Inject Semantics.StateChanges Verdict

theorem drains_unique {μ : Type} {os : Os μ} {pid n m : Nat} {w w' v : World μ} (one : Drains os pid n w w')
    (two : Drains os pid m w v) : w' = v := by
  induction one generalizing m v with
  | last answer polled over_ =>
    cases two with
    | last other same _ =>
      cases polled.symm.trans same
      rfl
    | more _ same _ _ =>
      cases polled.symm.trans same
      exact absurd rfl over_
  | more data polled waited rest ih =>
    cases two with
    | last other same differs =>
      cases polled.symm.trans same
      exact absurd rfl differs
    | more _ same finds others =>
      cases polled.symm.trans same
      cases waited.symm.trans finds
      exact ih others

def stops (process : Process) : List Signal :=
  match process.changes with
  | .left stops _ => stops
  | .reaped => []

/-- What the poll behind `i` waits finds, if those before have found nothing. -/
def found (process : Process) : Nat → Nat
  | 0 => process.pending + process.arrivals 0
  | i + 1 => (process.arrivals (2 * i + 1) - 1) + process.arrivals (2 * i + 2)

/-- Every stop comes while the tool blocks in waitpid(). -/
def StopsAwaited (process : Process) : Prop := ∀ i < (stops process).length, found process i = 0

structure Cleaned (other : Os Process) (w : World Process) : Prop where
  consumed : w.outside.changes = .reaped
  unreported : ∀ status w', exec (os other).waitpidAny w ≠ (.ok (some (w.outside.pid,status)),w')

structure Cleans (other : Os Process) (w : World Process) : Prop where
  returns : ∃ fuel w', exec (cleanupWaitpidState (os other) w.outside.pid fuel) w = (.ok (),w')
  cleaned : ∀ fuel w', exec (cleanupWaitpidState (os other) w.outside.pid fuel) w = (.ok (),w') → Cleaned other w'

variable {α : Type}

theorem exec_ask (call : Process → α × Process) (w : World Process) :
    exec (ask call) w = (.ok (call w.outside).1,{w with outside := (call w.outside).2}) := rfl

theorem exec_askAbout (call : Process → α × Process) (other : Prog Halt (World Process) α) (w : World Process) :
    exec (askAbout w.outside.pid call other) w = (.ok (call w.outside).1,{w with outside := (call w.outside).2}) := by
  rw [askAbout,exec_bind_of _ _ _ _ _ (exec_get w),if_pos rfl]
  exact exec_ask call w

theorem polled (other : Os Process) (w : World Process) :
    exec ((os other).waitpidNoHang w.outside.pid) w = (.ok w.outside.poll.1,{w with outside := w.outside.poll.2}) :=
  exec_askAbout _ _ w

theorem waited (other : Os Process) (w : World Process) :
    exec ((os other).waitpid w.outside.pid) w = (.ok (report w.outside).1,{w with outside := w.outside.wait.2}) :=
  exec_askAbout _ _ w

def awaited (process : Process) (changes : Changes) : Process := process.come.come.consume changes

theorem found_awaited (process : Process) (changes : Changes) (quiet : found process 0 = 0) (i : Nat) :
    found (awaited process changes) i = found process (i + 1) := by
  rw [found] at quiet
  cases i with
  | zero =>
    have first : process.pending + process.arrivals 0 + process.arrivals 1 - 1 = process.arrivals 1 - 1 := by omega
    exact congrArg (· + process.arrivals 2) first
  | succ i => rfl

theorem drains_reaped (other : Os Process) (w : World Process) (reaped : w.outside.changes = .reaped) :
    Drains (os other) w.outside.pid 0 w {w with outside := w.outside.come} := by
  have ran := polled other w
  have nothing : w.outside.poll = (none,w.outside.come) := by
    rw [Process.poll,reaped]
    rfl
  rw [nothing] at ran
  exact .last none ran nofun

theorem drains_found (other : Os Process) (w : World Process) (status : Nat) (changes : Changes)
    (next : w.outside.changes.next = some (status,changes)) (busy : found w.outside 0 ≠ 0) :
    Drains (os other) w.outside.pid 0 w {w with outside := w.outside.come.consume changes} := by
  have ran := polled other w
  have change : w.outside.poll = (some true,w.outside.come.consume changes) := by
    rw [Process.poll,next]
    exact if_neg busy
  rw [change] at ran
  exact .last (some true) ran nofun

theorem drains_awaited (other : Os Process) (w : World Process) (status : Nat) (changes : Changes)
    (next : w.outside.changes.next = some (status,changes)) (quiet : found w.outside 0 = 0) (n : Nat) (w' : World Process)
    (rest : Drains (os other) w.outside.pid n {w with outside := awaited w.outside changes} w') :
    Drains (os other) w.outside.pid (n + 1) w w' := by
  have ran := polled other w
  have nothing : w.outside.poll = (some false,w.outside.come) := by
    rw [Process.poll,next]
    exact if_pos quiet
  rw [nothing] at ran
  have waits := waited other {w with outside := w.outside.come}
  have change : w.outside.come.wait = (some status,awaited w.outside changes) := by
    have same : w.outside.come.changes.next = some (status,changes) := next
    rw [Process.wait,same]
    rfl
  rw [report,change] at waits
  exact .more (w.outside.pid,status) ran waits rest

theorem stopsAwaited_cons (process : Process) (signal : Signal) (signals : List Signal) (ending : Ending)
    (left : process.changes = .left (signal :: signals) ending) :
    StopsAwaited process ↔ found process 0 = 0 ∧ StopsAwaited (awaited process (.left signals ending)) := by
  have all : stops process = signal :: signals := by rw [stops,left]
  unfold StopsAwaited
  rw [all,List.length_cons]
  constructor
  · intro every
    have quiet := every 0 (Nat.succ_pos _)
    refine ⟨quiet,?_⟩
    intro i inside
    rw [found_awaited process _ quiet]
    exact every (i + 1) (Nat.succ_lt_succ inside)
  · intro both i inside
    obtain ⟨quiet,later⟩ := both
    cases i with
    | zero => exact quiet
    | succ i =>
      rw [← found_awaited process (.left signals ending) quiet]
      exact later i (Nat.lt_of_succ_lt_succ inside)

theorem stopsAwaited_none (process : Process) (none : stops process = []) : StopsAwaited process := by
  intro i inside
  rw [none] at inside
  cases inside

/-- The loop comes to its end, and to that of the process exactly if no poll finds a stop. -/
theorem exists_drains (other : Os Process) (w : World Process) :
    ∃ n w', Drains (os other) w.outside.pid n w w' ∧ (w'.outside.changes = .reaped ↔ StopsAwaited w.outside) := by
  cases left : w.outside.changes with
  | reaped =>
    have none := stopsAwaited_none w.outside (by rw [stops,left])
    exact ⟨0,_,drains_reaped other w left,iff_of_true left none⟩
  | left signals ending =>
    induction signals generalizing w with
    | nil =>
      have none := stopsAwaited_none w.outside (by rw [stops,left])
      have next : w.outside.changes.next = some (ending.status,.reaped) := by rw [left]; rfl
      by_cases quiet : found w.outside 0 = 0
      · have reaped := drains_reaped other {w with outside := awaited w.outside .reaped} rfl
        exact ⟨1,_,drains_awaited other w _ _ next quiet 0 _ reaped,iff_of_true rfl none⟩
      · exact ⟨0,_,drains_found other w _ _ next quiet,iff_of_true rfl none⟩
    | cons signal signals ih =>
      have next : w.outside.changes.next = some (stoppedStatus signal,.left signals ending) := by rw [left]; rfl
      rw [stopsAwaited_cons w.outside signal signals ending left]
      by_cases quiet : found w.outside 0 = 0
      · obtain ⟨n,w',drains,reaped⟩ := ih {w with outside := awaited w.outside (.left signals ending)} rfl
        refine ⟨n + 1,w',drains_awaited other w _ _ next quiet n w' drains,reaped.trans ?_⟩
        exact (and_iff_right quiet).symm
      · exact ⟨0,_,drains_found other w _ _ next quiet,iff_of_false nofun fun both => quiet both.1⟩

theorem cleaned_iff (other : Os Process) (w : World Process) : Cleaned other w ↔ w.outside.changes = .reaped := by
  constructor
  · exact fun cleaned => cleaned.consumed
  · intro reaped
    refine ⟨reaped,?_⟩
    intro status w' reports
    have nothing : exec (os other).waitpidAny w = (.ok none,{w with outside := w.outside.come}) := by
      change exec (ask report) w = _
      rw [exec_ask,report,Process.wait,reaped]
      rfl
    cases nothing.symm.trans reports

def trapped : World Process where
  runner := {childPID := 7}
  outside := {pid := 7,changes := .left [⟨sigTrap,by decide⟩] (.signaled Signal.kill false),pending := 2,arrivals := fun _ => 0}

end Zofi.StateCleanup
