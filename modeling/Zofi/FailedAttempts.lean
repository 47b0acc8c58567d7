import Zofi.Retries
import Zofi.Verdict

/-! Failed attempts are counted in the Statistics of the job that makes them, a copy of its
parent's since the fork. What the parent adds up comes through the pipes. -/
namespace Zofi.FailedAttempts
open Sys Transitions Model.Utils Model.WaitStatus Model.Outcomes Model.Threads Model.TestRun Model.RunAndWait
open Scheduler Campaign Verdict

theorem tryInjectFaultAt_counts {μ : Type} (os : Model.Inject.Os μ) (cs : Model.RegManip.Capstone)
    (opts : Model.RegManip.Options) (garbage : Model.AddrSpace.Scanned) (fuel : Nat) (stats next : Statistics)
    (injectOK : Bool) (w w' : Model.Wait.World μ)
    (ran : exec (Model.Inject.tryInjectFaultAt os cs opts garbage fuel stats) w = (.ok (injectOK,next),w')) :
    if injectOK then next = stats else stats.incr .injFailed = .ok next := by
  rw [Model.Inject.tryInjectFaultAt] at ran
  obtain ⟨stopped,w₁,_,ran⟩ := bind_ok _ _ _ _ _ ran
  split at ran
  · obtain ⟨counted,w₂,incremented,ran⟩ := bind_ok _ _ _ _ _ ran
    obtain ⟨same,_⟩ := pure_ok _ _ _ _ ran
    cases same
    exact (lift_ok _ _ _ _ incremented).1
  · rw [Model.Inject.flipOrKill] at ran
    obtain ⟨_,_,_,ran⟩ := bind_ok _ _ _ _ _ ran
    obtain ⟨flipped,_,_,ran⟩ := bind_ok _ _ _ _ _ ran
    split at ran
    · obtain ⟨same,_⟩ := pure_ok _ _ _ _ ran
      cases same
      rfl
    · obtain ⟨counted,_,incremented,ran⟩ := bind_ok _ _ _ _ _ ran
      obtain ⟨_,_,_,ran⟩ := bind_ok _ _ _ _ _ ran
      obtain ⟨_,_,_,ran⟩ := bind_ok _ _ _ _ _ ran
      obtain ⟨_,_,_,ran⟩ := bind_ok _ _ _ _ _ ran
      obtain ⟨same,_⟩ := pure_ok _ _ _ _ ran
      cases same
      exact (lift_ok _ _ _ _ incremented).1

def failed (calls : List Call) : Nat := calls.count (.tryInjectFaultAt false)

def childStatistics (stats : Statistics) (calls : List Call) : Except Halt Statistics :=
  calls.foldlM (fun stats call => if call = .tryInjectFaultAt false then stats.incr .injFailed else .ok stats) stats

theorem childStatistics_injFailed (stats : Statistics) (calls : List Call) :
    ∃ last, childStatistics stats calls = .ok last ∧
      last.uLongMap .injFailed = stats.uLongMap .injFailed + failed calls := by
  induction calls generalizing stats with
  | nil => exact ⟨stats,rfl,rfl⟩
  | cons call calls ih =>
    by_cases fails : call = .tryInjectFaultAt false
    · obtain ⟨next,counted,grown⟩ : ∃ next, stats.incr .injFailed = .ok next ∧
          next.uLongMap .injFailed = stats.uLongMap .injFailed + 1 := ⟨_,rfl,by simp⟩
      obtain ⟨last,rest,sum⟩ := ih next
      refine ⟨last,?_,?_⟩
      · rw [childStatistics,List.foldlM_cons,if_pos fails,counted]
        exact rest
      · rw [sum,grown,failed,failed,fails,List.count_cons_self]
        omega
    · obtain ⟨last,rest,sum⟩ := ih stats
      refine ⟨last,?_,?_⟩
      · rw [childStatistics,List.foldlM_cons,if_neg fails]
        exact rest
      · rw [sum,failed,failed,List.count_cons_of_ne fails]

structure TestJob where
  next : Nat → Attempt
  judged : Except Halt FtStatus
  real : ∀ status, judged = .ok status → ∃ settings state same, status = verdict settings state same
  ends : judged ≠ .error .waiting

def TestJob.ofRun {μ : Type} (os : Model.Inject.Os μ) (settings : Settings) (disk : Disk) (orig exState : ExecutionExitState)
    (fuel : Nat) (w : Model.Wait.World μ) (next : Nat → Attempt)
    (ends : (exec (finishRun os settings disk orig fuel {exState}) w).1 ≠ .error .waiting) : TestJob :=
  ⟨next,(exec (finishRun os settings disk orig fuel {exState}) w).1,
    fun status ran => ⟨settings,finishRun_verdict os settings disk orig exState fuel status w ran⟩,ends⟩

namespace TestJob

def calls (opts : Options) (job : TestJob) : List Call := runAndWaitCalls opts job.next

def result (opts : Options) (job : TestJob) : Except Halt FtStatus :=
  if .userDie ∈ job.calls opts then .error (.userDie "Error: Failed to inject") else job.judged

theorem result_ends (opts : Options) (job : TestJob) : (childJob (job.result opts)).isSome = true := by
  unfold result
  split
  · rfl
  · have ends := job.ends
    cases judged : job.judged with
    | ok status => rfl
    | error halt => cases halt <;> simp_all [childJob]

def jobEnd (opts : Options) (job : TestJob) : JobEnd FtStatus := (childJob (job.result opts)).get (job.result_ends opts)

theorem jobEnd_wrote (opts : Options) (job : TestJob) (status : FtStatus) (wrote : (job.jobEnd opts).wrote = some status) :
    status ≠ .none ∧ status ≠ .injFailed := by
  have ended : childJob (job.result opts) = some (job.jobEnd opts) := (Option.some_get _).symm
  have decided : job.result opts = .ok status := by
    cases result : job.result opts with
    | ok found =>
      rw [result,childJob] at ended
      rw [← Option.some.inj ended] at wrote
      exact congrArg Except.ok (Option.some.inj wrote)
    | error halt =>
      rw [result] at ended
      cases halt <;> simp [childJob] at ended <;> simp [← ended] at wrote
  have judged : job.judged = .ok status := by
    unfold result at decided
    split at decided
    · simp at decided
    · exact decided
  obtain ⟨settings,state,same,rfl⟩ := job.real status judged
  refine ⟨verdict_real settings state same,?_⟩
  unfold verdict
  split_ifs <;> simp

end TestJob

def Grows (limit total : Nat) (jobs : Nat → JobEnd FtStatus) (counts : Nat → Nat) : Prop :=
  ∀ stats trace w, Run (Moves testJobScheduler jobs limit total) {results := stats} trace w → Finished total w →
    w.results.uLongMap .injFailed = stats.uLongMap .injFailed + ((List.range total).map counts).sum

theorem grows_filled (limit total : Nat) (few : total < 2^32) (one : 1 ≤ limit) (jobs : Nat → JobEnd FtStatus)
    (counts : Nat → Nat) (grows : Grows limit total jobs counts) (garbage : FtStatus) (holds : garbage ≠ .none)
    (real : ∀ id status, (jobs id).wrote = some status → status ≠ .none)
    (exited : ∀ id < total, ∃ code, (jobs id).ending = .exited code) :
    wroteCount (fun id => filled garbage (jobs id)) (List.range total) .injFailed = ((List.range total).map counts).sum := by
  have good : ∀ id < total, Reported (filled garbage (jobs id)) := by
    intro id low
    refine ⟨exited id low,?_⟩
    cases wrote : (jobs id).wrote with
    | none => exact ⟨garbage,by simp [filled,wrote],holds⟩
    | some status => exact ⟨status,by simp [filled,wrote],real id status wrote⟩
  obtain ⟨trace,w,run,ended,counted⟩ := exists_filled_run garbage jobs limit total few one good .zero
  have sum := grows .zero trace w run ended
  rw [counted.counters .injFailed .injFailed rfl] at sum
  exact Nat.add_left_cancel sum

theorem wroteCount_injFailed (jobs : Nat → JobEnd FtStatus) (ids : List Nat)
    (real : ∀ id status, (jobs id).wrote = some status → status ≠ .injFailed) : wroteCount jobs ids .injFailed = 0 := by
  rw [wroteCount,List.countP_eq_zero]
  intro id _ wrote
  exact real id .injFailed (of_decide_eq_true wrote) rfl

theorem filled_injFailed (jobs : Nat → JobEnd FtStatus) (garbage : FtStatus) (holds : garbage ≠ .injFailed)
    (real : ∀ id status, (jobs id).wrote = some status → status ≠ .injFailed) (id : Nat) (status : FtStatus)
    (wrote : (filled garbage (jobs id)).wrote = some status) : status ≠ .injFailed := by
  cases own : (jobs id).wrote with
  | none =>
    obtain rfl : garbage = status := by simpa [filled,own] using wrote
    exact holds
  | some written =>
    obtain rfl : written = status := by simpa [filled,own] using wrote
    exact real id written own

/-- Two runs tell: one with Masked and one with InjFailed in the uninitialised variables. -/
theorem silent_of_grows (limit total : Nat) (few : total < 2^32) (one : 1 ≤ limit) (jobs : Nat → JobEnd FtStatus)
    (counts : Nat → Nat) (real : ∀ id status, (jobs id).wrote = some status → status ≠ .none ∧ status ≠ .injFailed)
    (exited : ∀ id < total, ∃ code, (jobs id).ending = .exited code) (grows : Grows limit total jobs counts) :
    ∀ id < total, (jobs id).wrote ≠ none ∧ counts id = 0 := by
  have filling := fun garbage holds => grows_filled limit total few one jobs counts grows garbage holds
    (fun id status wrote => (real id status wrote).1) exited
  -- no job writes InjFailed, so the first run counts none; the second counts every silent job
  have masked := filling .masked (by simp)
  have failing := filling .injFailed (by simp)
  have others := filled_injFailed jobs .masked (by simp) fun id status wrote => (real id status wrote).2
  rw [wroteCount_injFailed _ _ others] at masked
  rw [← masked,wroteCount,List.countP_eq_zero] at failing
  intro id low
  have member := List.mem_range.mpr low
  refine ⟨?_,List.sum_eq_zero_iff_forall_eq_nat.mp masked.symm _ (List.mem_map_of_mem member)⟩
  intro silent
  have never := failing id member
  simp [filled,silent] at never

theorem grows_of_silent (limit total : Nat) (few : total < 2^32) (one : 1 ≤ limit) (jobs : Nat → JobEnd FtStatus)
    (counts : Nat → Nat) (real : ∀ id status, (jobs id).wrote = some status → status ≠ .none ∧ status ≠ .injFailed)
    (clean : ∀ id < total, (jobs id).wrote ≠ none ∧ counts id = 0) : Grows limit total jobs counts := by
  intro stats trace w run ended
  have exited := finished_exited jobs limit total few stats trace w run ended
  have good : ∀ id < total, Reported (jobs id) := by
    intro id low
    obtain ⟨status,wrote⟩ := Option.ne_none_iff_exists'.mp (clean id low).1
    exact ⟨exited id low,status,wrote,(real id status wrote).1⟩
  obtain ⟨_,_,finished⟩ := test_campaign jobs limit total few one good stats trace w run
  have none : ((List.range total).map counts).sum = 0 := by
    rw [List.sum_eq_zero_iff_forall_eq_nat]
    intro count member
    obtain ⟨id,inside,rfl⟩ := List.mem_map.mp member
    exact (clean id (List.mem_range.mp inside)).2
  rw [(finished ended).2.counters .injFailed .injFailed rfl,
    wroteCount_injFailed jobs _ fun id status wrote => (real id status wrote).2,none]

/-- No job writes InjFailed, so the counter grows by what uninitialised variables hold. -/
theorem grows_iff (limit total : Nat) (few : total < 2^32) (one : 1 ≤ limit) (jobs : Nat → JobEnd FtStatus)
    (counts : Nat → Nat) (real : ∀ id status, (jobs id).wrote = some status → status ≠ .none ∧ status ≠ .injFailed) :
    Grows limit total jobs counts ↔
      (∃ id < total, ¬ ∃ code, (jobs id).ending = .exited code) ∨
        ∀ id < total, (jobs id).wrote ≠ none ∧ counts id = 0 := by
  constructor
  · intro grows
    by_cases exited : ∀ id < total, ∃ code, (jobs id).ending = .exited code
    · exact .inr (silent_of_grows limit total few one jobs counts real exited grows)
    · left
      push Not at exited
      obtain ⟨id,low,signaled⟩ := exited
      exact ⟨id,low,not_exists.mpr signaled⟩
  · rintro (⟨id,low,signaled⟩ | clean)
    · intro stats trace w run ended
      exact absurd (finished_exited jobs limit total few stats trace w run ended id low) signaled
    · exact grows_of_silent limit total few one jobs counts real clean

def jobEnds (opts : Options) (jobs : Nat → TestJob) (id : Nat) : JobEnd FtStatus := (jobs id).jobEnd opts

theorem jobEnds_wrote (opts : Options) (jobs : Nat → TestJob) (id : Nat) (status : FtStatus)
    (wrote : (jobEnds opts jobs id).wrote = some status) : status ≠ .none ∧ status ≠ .injFailed := by
  unfold jobEnds at wrote
  exact (jobs id).jobEnd_wrote opts status wrote

def failedAttempts (opts : Options) (jobs : Nat → TestJob) (id : Nat) : Nat := failed ((jobs id).calls opts)

/-- The increments made in the jobs' copies are lost: the parent's counter is right when there are
none, and every job writes an outcome of its own. -/
theorem failedAttempts_counted_iff (opts : Options) (limit total : Nat) (few : total < 2^32) (one : 1 ≤ limit)
    (jobs : Nat → TestJob) :
    Grows limit total (jobEnds opts jobs) (failedAttempts opts jobs) ↔
      (∃ id < total, ¬ ∃ code, (jobEnds opts jobs id).ending = .exited code) ∨
        ∀ id < total, (jobEnds opts jobs id).wrote ≠ none ∧ failedAttempts opts jobs id = 0 :=
  grows_iff limit total few one (jobEnds opts jobs) (failedAttempts opts jobs) (jobEnds_wrote opts jobs)

theorem masked_verdict (status : FtStatus) (same : (.ok .masked : Except Halt FtStatus) = .ok status) :
    ∃ settings state same, status = verdict settings state same :=
  ⟨{},⟨.exited,0⟩,true,(Except.ok.inj same).symm⟩

def firstTry : TestJob := ⟨fun _ => Outputs.injected,.ok .masked,masked_verdict,by simp⟩

def secondTry : TestJob :=
  ⟨fun i => if i = 0 then Outputs.retried else Outputs.injected,.ok .masked,masked_verdict,by simp⟩

theorem corrupted_verdict (status : FtStatus) (same : (.ok .corrupted : Except Halt FtStatus) = .ok status) :
    ∃ settings state same, status = verdict settings state same :=
  ⟨{},⟨.exited,0⟩,false,(Except.ok.inj same).symm⟩

def twoTries (id : Nat) : TestJob :=
  if id = 0 then firstTry else ⟨fun _ => Outputs.injected,.ok .corrupted,corrupted_verdict,by simp⟩

theorem twoTries_counted : Grows 2 2 (jobEnds {} twoTries) (failedAttempts {} twoTries) :=
  (failedAttempts_counted_iff {} 2 2 (by decide) (by decide) twoTries).mpr (.inr (by decide))

theorem secondTry_lost : failedAttempts {} (fun _ => secondTry) 0 = 1 ∧
    ¬ Grows 1 1 (jobEnds {} fun _ => secondTry) (failedAttempts {} fun _ => secondTry) := by
  have attempted : failedAttempts {} (fun _ => secondTry) 0 = 1 := by decide
  refine ⟨attempted,?_⟩
  intro grows
  obtain ⟨id,low,signaled⟩ | clean := (grows_iff 1 1 (by decide) (by decide) _ _ (jobEnds_wrote {} _)).mp grows
  · have exited : ∀ id < 1, (jobEnds {} (fun _ => secondTry) id).ending = .exited exitSuccess := by decide
    exact signaled ⟨_,exited id low⟩
  · rw [(clean 0 (by decide)).2] at attempted
    simp at attempted

end Zofi.FailedAttempts
