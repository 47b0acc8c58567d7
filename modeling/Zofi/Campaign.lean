import Zofi.Scheduler

/-! Whole campaigns: what holds between any two steps of the scheduler, what the test
scheduler has counted and what the original one has kept when the loop returns. -/
namespace Zofi.Campaign
open Transitions Model.Utils Model.WaitStatus Model.Outcomes Model.Threads Scheduler

variable {G R S : Type}

/-- What the loop keeps at every step, on its records, its descriptors and its children. -/
structure InStep (limit total : Nat) (trace : List Event) (w : World R S) : Prop where
  atMost : w.activeJobs.length ≤ limit
  inOrder : trace.filterMap forkedId = List.range w.id ∧ w.id ≤ total
  once : (doneJobs trace ++ w.children.map (·.job)).Perm (List.range w.id)
  records : w.activeJobs.map (fun data => (data.childPID,data.id)) =
    w.children.map fun child => (child.pid,toInt child.job)
  paired : ∀ child record, .reaped child record ∈ trace →
    .forked child.job child.pid ∈ trace ∧
      ∃ data, record = some data ∧ data.childPID = child.pid ∧ data.id = toInt child.job
  readEnds : w.fds.map (·.1) = w.activeJobs.map (·.pipe.1)
  noWriteEnd : ∀ entry ∈ w.fds, ∃ number, entry.2 = .readEnd number

theorem inStep_of_orderly (limit total : Nat) (trace : List Event) (w : World R S) (active : List Active)
    (orderly : Orderly limit total trace w active) : InStep limit total trace w := by
  have shape := orderly.shape
  refine ⟨?_,⟨orderly.inOrder,orderly.upTo⟩,?_,?_,orderly.paired,?_,?_⟩
  · rw [shape.records,List.length_map]
    exact orderly.atMost
  · rw [shape.children,List.map_map]
    exact orderly.once
  · rw [shape.records,shape.children,List.map_map,List.map_map]
    rfl
  · rw [shape.fds,shape.records,List.map_map,List.map_map]
    rfl
  · rw [shape.fds]
    intro entry member
    obtain ⟨a,_,rfl⟩ := List.mem_map.mp member
    exact ⟨a.pipe,rfl⟩

structure GoesOn (sub : Subclass G R S) (jobs : Nat → JobEnd R) (limit total : Nat) (trace : List Event)
    (w : World R S) : Prop where
  succeeds : ∀ event result, Step sub jobs limit total w event result → ∃ w', result = .ok w'
  progress : ¬ Finished total w → ∃ event w', Moves sub jobs limit total w event w'
  bounded : trace.length ≤ 2 * total

structure Closed (total : Nat) (trace : List Event) (w : World R S) : Prop where
  noActive : w.activeJobs = []
  noPipe : w.fds = []
  noChild : w.children = []
  allReaped : (doneJobs trace).Perm (List.range total)

theorem run_sound (sub : Subclass G R S) [Inhabited G] (jobs : Nat → JobEnd R) (limit total : Nat)
    (few : total < 2^32) (one : 1 ≤ limit) (absorb : Nat → S → S) (takes : Takes sub jobs total absorb)
    (results : S) (trace : List Event) (w : World R S)
    (run : Run (Moves sub jobs limit total) {results} trace w) :
    InStep limit total trace w ∧ GoesOn sub jobs limit total trace w ∧
      (Finished total w → Closed total trace w ∧
        w.results = (doneJobs trace).foldl (fun sum job => absorb job sum) results) := by
  obtain ⟨active,orderly⟩ := run_orderly sub jobs limit total few results trace w run
  have succeeds := steps_succeed sub jobs limit total absorb takes trace w active orderly
  refine ⟨inStep_of_orderly limit total trace w active orderly,⟨succeeds,?_,orderly.steps_le⟩,?_⟩
  · intro going
    rcases orderly.progress sub jobs one default going with ⟨_,pid,rd,wr,step⟩ | ⟨a,_,step⟩
    · exact ⟨_,_,step⟩
    · obtain ⟨w',same⟩ := succeeds _ _ step
      exact ⟨_,w',same ▸ step⟩
  · intro ended
    obtain ⟨noActive,noPipe,noChild,allReaped⟩ := orderly.finished ended
    exact ⟨⟨noActive,noPipe,noChild,allReaped⟩,
      run_results sub jobs limit total few absorb takes.absorbs results trace w run⟩

/-! The test scheduler. -/

def Reported (job : JobEnd FtStatus) : Prop :=
  (∃ code, job.ending = .exited code) ∧ ∃ outcome, job.wrote = some outcome ∧ outcome ≠ .none

theorem isCounter_counterOf (outcome : FtStatus) (counter : StatType) (has : counterOf outcome = some counter) :
    isCounter counter = true := by
  cases outcome <;> simp_all [counterOf] <;> subst has <;> rfl

theorem counterOf_isSome (outcome : FtStatus) (real : outcome ≠ .none) : ∃ counter, counterOf outcome = some counter := by
  cases outcome <;> simp_all [counterOf]

theorem counterOf_injective (one two : FtStatus) (counter : StatType) (first : counterOf one = some counter)
    (second : counterOf two = some counter) : one = two := by
  cases one <;> cases two <;> simp_all [counterOf] <;> simp [← first] at second

def count (stats : Statistics) (status : Option FtStatus) : Statistics :=
  (incrStatsCounter stats status).toOption.getD stats

theorem incr_count (stats : Statistics) (outcome : FtStatus) (real : outcome ≠ .none) :
    incrStatsCounter stats (some outcome) = .ok (count stats (some outcome)) := by
  obtain ⟨counter,has⟩ := counterOf_isSome outcome real
  simp [count,incrStatsCounter,has,Statistics.incr,isCounter_counterOf outcome counter has,Except.toOption]

theorem count_counters (stats : Statistics) (outcome : FtStatus) (counter : StatType)
    (has : counterOf outcome = some counter) :
    (count stats (some outcome)).uLongMap = Function.update stats.uLongMap counter (stats.uLongMap counter + 1) ∧
      (count stats (some outcome)).grandTotal = stats.grandTotal + 1 := by
  simp [count,incrStatsCounter,has,Statistics.incr,isCounter_counterOf outcome counter has,Except.toOption]

theorem test_takes (jobs : Nat → JobEnd FtStatus) (total : Nat) (good : ∀ job < total, Reported (jobs job)) :
    Takes testJobScheduler jobs total fun job stats => count stats (jobs job).wrote := by
  intro job low
  obtain ⟨exited,outcome,wrote,real⟩ := good job low
  refine ⟨exited,?_⟩
  intro garbage read data stats delivered _
  rw [wrote] at delivered
  simp only [testJobScheduler,delivered,bind,Except.bind,wrote]
  exact incr_count stats outcome real

def wroteCount (jobs : Nat → JobEnd FtStatus) (ids : List Nat) (outcome : FtStatus) : Nat :=
  ids.countP fun id => decide ((jobs id).wrote = some outcome)

theorem fold_counts (jobs : Nat → JobEnd FtStatus) (ids : List Nat) (stats : Statistics)
    (good : ∀ id ∈ ids, Reported (jobs id)) :
    (∀ outcome counter, counterOf outcome = some counter →
      (ids.foldl (fun stats job => count stats (jobs job).wrote) stats).uLongMap counter =
        stats.uLongMap counter + wroteCount jobs ids outcome) ∧
      (ids.foldl (fun stats job => count stats (jobs job).wrote) stats).grandTotal =
        stats.grandTotal + ids.length := by
  induction ids generalizing stats with
  | nil => exact ⟨fun _ _ _ => rfl,rfl⟩
  | cons id ids ih =>
    obtain ⟨_,outcome,wrote,real⟩ := good id (by simp)
    obtain ⟨counter,has⟩ := counterOf_isSome outcome real
    obtain ⟨updated,grand⟩ := count_counters stats outcome counter has
    obtain ⟨counts,total⟩ := ih (count stats (jobs id).wrote) fun other member => good other (by simp [member])
    rw [wrote] at counts total
    refine ⟨?_,?_⟩
    · intro other otherCounter otherHas
      rw [List.foldl_cons,wrote,counts other otherCounter otherHas,updated]
      by_cases same : other = outcome
      · subst other
        obtain rfl : counter = otherCounter := Option.some.inj (has.symm.trans otherHas)
        simp only [wroteCount,List.countP_cons,wrote,decide_true,if_true,Function.update_self]
        omega
      · have apart : otherCounter ≠ counter := fun equal =>
          same (counterOf_injective other outcome counter (equal ▸ otherHas) has)
        have differs : ¬ some outcome = some other := fun equal => same (Option.some.inj equal).symm
        simp only [wroteCount,List.countP_cons,wrote,differs,decide_false,Bool.false_eq_true,if_false,
          Function.update_of_ne apart,Nat.add_zero]
    · rw [List.foldl_cons,wrote,total,grand,List.length_cons]
      omega

structure Counted (jobs : Nat → JobEnd FtStatus) (total : Nat) (before after : Statistics) : Prop where
  counters : ∀ outcome counter, counterOf outcome = some counter →
    after.uLongMap counter = before.uLongMap counter + wroteCount jobs (List.range total) outcome
  grandTotal : after.grandTotal = before.grandTotal + total

theorem test_campaign (jobs : Nat → JobEnd FtStatus) (limit total : Nat) (few : total < 2^32)
    (one : 1 ≤ limit) (good : ∀ job < total, Reported (jobs job)) (stats : Statistics) (trace : List Event)
    (w : World FtStatus Statistics)
    (run : Run (Moves testJobScheduler jobs limit total) {results := stats} trace w) :
    InStep limit total trace w ∧ GoesOn testJobScheduler jobs limit total trace w ∧
      (Finished total w → Closed total trace w ∧ Counted jobs total stats w.results) := by
  obtain ⟨inStep,goesOn,finished⟩ := run_sound testJobScheduler jobs limit total few one _
    (test_takes jobs total good) stats trace w run
  refine ⟨inStep,goesOn,?_⟩
  intro ended
  obtain ⟨closed,sum⟩ := finished ended
  have reported : ∀ id ∈ doneJobs trace, Reported (jobs id) := fun id member =>
    good id (List.mem_range.mp (closed.allReaped.mem_iff.mp member))
  obtain ⟨counts,grand⟩ := fold_counts jobs (doneJobs trace) stats reported
  refine ⟨closed,?_,?_⟩
  · intro outcome counter has
    rw [sum,counts outcome counter has]
    exact congrArg _ (closed.allReaped.countP_eq _)
  · rw [sum,grand,closed.allReaped.length_eq,List.length_range]

/-! The original scheduler. -/

def reports (record : Nat → R) (id : Nat) : JobEnd R := ⟨some (record id),.exited exitSuccess⟩

theorem toInt_zero (id : Nat) (low : id < 2^32) : toInt id = 0 ↔ id = 0 := by
  rw [toInt,Nat.mod_eq_of_lt low]
  split <;> omega

theorem orig_takes (record : Nat → R) (total : Nat) (few : total < 2^32) :
    Takes (origJobScheduler R) (reports record) total fun job origExitState =>
      if job = 0 then record 0 else origExitState := by
  intro job low
  refine ⟨⟨0,rfl⟩,?_⟩
  intro garbage read data origExitState delivered same
  simp only [reports] at delivered
  simp only [origJobScheduler,same,toInt_zero job (low.trans few),delivered]
  by_cases first : job = 0
  · subst job
    rfl
  · rw [if_neg first,if_neg first]

theorem fold_first (record : Nat → R) (ids : List Nat) (unset : R) :
    ids.foldl (fun origExitState job => if job = 0 then record 0 else origExitState) unset =
      if 0 ∈ ids then record 0 else unset := by
  induction ids generalizing unset with
  | nil => rfl
  | cons id ids ih =>
    rw [List.foldl_cons,ih]
    by_cases first : id = 0
    · simp [first]
    · simp [first,Ne.symm first]

theorem orig_campaign (record : Nat → R) (limit total : Nat) (few : total < 2^32) (one : 1 ≤ limit)
    (unset : R) (trace : List Event) (w : World R R)
    (run : Run (Moves (origJobScheduler R) (reports record) limit total) {results := unset} trace w) :
    InStep limit total trace w ∧ GoesOn (origJobScheduler R) (reports record) limit total trace w ∧
      (Finished total w → Closed total trace w ∧ (1 ≤ total → w.results = record 0)) := by
  obtain ⟨inStep,goesOn,finished⟩ := run_sound (origJobScheduler R) (reports record) limit total few one _
    (orig_takes record total few) unset trace w run
  refine ⟨inStep,goesOn,?_⟩
  intro ended
  obtain ⟨closed,sum⟩ := finished ended
  refine ⟨closed,?_⟩
  intro some
  rw [sum,fold_first,if_pos (closed.allReaped.mem_iff.mpr (List.mem_range.mpr some))]

theorem reported_reports (outcome : Nat → FtStatus) (id : Nat) (real : outcome id ≠ .none) :
    Reported (reports outcome id) := ⟨⟨0,rfl⟩,outcome id,rfl,real⟩

/-- For every limit, every number of jobs and every order of their ends: the loop stays in
order at each step, reaches its end and leaves nothing behind; the test scheduler has then
counted each outcome exactly, and the original one holds the record of job 0. -/
theorem campaign_sound (limit total : Nat) (few : total < 2^32) (one : 1 ≤ limit) :
    (∀ (outcome : Nat → FtStatus) (stats : Statistics) (trace : List Event) (w : World FtStatus Statistics),
      (∀ id < total, outcome id ≠ .none) →
      Run (Moves testJobScheduler (reports outcome) limit total) {results := stats} trace w →
      InStep limit total trace w ∧ GoesOn testJobScheduler (reports outcome) limit total trace w ∧
        (Finished total w → Closed total trace w ∧ Counted (reports outcome) total stats w.results)) ∧
    ∀ (R : Type) (record : Nat → R) (unset : R) (trace : List Event) (w : World R R),
      Run (Moves (origJobScheduler R) (reports record) limit total) {results := unset} trace w →
      InStep limit total trace w ∧ GoesOn (origJobScheduler R) (reports record) limit total trace w ∧
        (Finished total w → Closed total trace w ∧ (1 ≤ total → w.results = record 0)) := by
  refine ⟨?_,?_⟩
  · intro outcome stats trace w real run
    exact test_campaign (reports outcome) limit total few one
      (fun id low => reported_reports outcome id (real id low)) stats trace w run
  · intro R record unset trace w run
    exact orig_campaign record limit total few one unset trace w run

theorem wait_guards {sub : Subclass G R S} {jobs : Nat → JobEnd R} {limit total : Nat} {w : World R S} {child : Child}
    {record : Option JobData} {result : Except Halt (World R S)}
    (step : Step sub jobs limit total w (.reaped child record) result) : Blocks limit total w ∧ child ∈ w.children := by
  cases step with
  | wait child garbage blocks member => exact ⟨blocks,member⟩

/-- A job that exits is counted by what it wrote, or else by what the stack holds. -/
theorem reap_moves (jobs : Nat → JobEnd FtStatus) (limit total : Nat) (w : World FtStatus Statistics) (active : List Active)
    (shape : Shape w active) (blocks : Blocks limit total w) (a : Active) (member : a ∈ active) (code : Fin 256)
    (exited : (jobs a.job).ending = .exited code) (garbage : Option FtStatus) (outcome : FtStatus)
    (wrote : (jobs a.job).wrote.or garbage = some outcome) (real : outcome ≠ .none) :
    Moves testJobScheduler jobs limit total w (.reaped a.child (some a.data))
      (reaped (jobs a.job) a (count w.results (some outcome)) w) := by
  have left : a.child ∈ w.children := by
    rw [shape.children]
    exact List.mem_map_of_mem member
  have step : Step testJobScheduler jobs limit total w _ _ := .wait w a.child garbage blocks left
  have record := shape.read_ended w active a member (jobs a.job)
  rw [show a.child.pid = a.pid from rfl,show a.child.job = a.job from rfl,shape.find_record w active a member,
    waitForJob_exited _ _ w active shape a member (jobs a.job) code exited] at step
  simp only [testJobScheduler,show a.data.pipe.1 = a.rd from rfl,record,bind,Except.bind,wrote,
    incr_count w.results outcome real] at step
  exact step

/-! Two jobs at a time, which end in either order. -/

def oneForked : World FtStatus Statistics := forkJob 7 3 4 {results := .zero}

def oneJob : Active := ⟨7,0,0,3,4⟩

def bothForked : World FtStatus Statistics := forkJob 8 4 5 oneForked

def otherJob : Active := ⟨8,1,1,4,5⟩

theorem firstForked_shape (results : Statistics) : Shape (forkJob 7 3 4 {results} : World FtStatus Statistics) [oneJob] :=
  forkJob_shape _ _ (start_orderly 1 1 results).shape 7 3 4 (by simp) (by simp) (by simp) (by decide)

theorem bothForked_shape : Shape bothForked [oneJob,otherJob] :=
  forkJob_shape _ _ (firstForked_shape .zero) 8 4 5 (by decide) (by decide) (by decide) (by decide)

def between (outcome : Nat → FtStatus) (first : Active) : World FtStatus Statistics :=
  reaped (reports outcome first.job) first (count .zero (some (outcome first.job))) bothForked

def bothReaped (outcome : Nat → FtStatus) (first second : Active) : World FtStatus Statistics :=
  reaped (reports outcome second.job) second
    (count (between outcome first).results (some (outcome second.job))) (between outcome first)

section Both

variable (outcome : Nat → FtStatus) (real : ∀ id, outcome id ≠ .none) (first second : Active)
  (pair : first = oneJob ∧ second = otherJob ∨ first = otherJob ∧ second = oneJob)

include pair in
theorem between_shape : Shape (between outcome first) [second] := by
  have member : first ∈ [oneJob,otherJob] := by rcases pair with ⟨rfl,rfl⟩ | ⟨rfl,rfl⟩ <;> decide
  have shape := reaped_shape _ _ bothForked_shape first member (reports outcome first.job)
    (count .zero (some (outcome first.job)))
  rcases pair with ⟨rfl,rfl⟩ | ⟨rfl,rfl⟩ <;> exact shape

include pair real in
theorem first_reaped : Moves testJobScheduler (reports outcome) 2 2 bothForked (.reaped first.child (some first.data))
    (between outcome first) := by
  have member : first ∈ [oneJob,otherJob] := by rcases pair with ⟨rfl,rfl⟩ | ⟨rfl,rfl⟩ <;> decide
  exact reap_moves (reports outcome) 2 2 _ _ bothForked_shape (Nat.two_pos : 0 < 2) first member exitSuccess rfl none _ rfl
    (real first.job)

include pair real in
theorem second_reaped : Moves testJobScheduler (reports outcome) 2 2 (between outcome first)
    (.reaped second.child (some second.data)) (bothReaped outcome first second) := by
  have shape := between_shape outcome first second pair
  have blocks : Blocks 2 2 (between outcome first) := by
    rw [Blocks,shape.records]
    exact Nat.one_pos
  exact reap_moves (reports outcome) 2 2 _ _ shape blocks second (List.mem_singleton_self _) exitSuccess rfl none _ rfl
    (real second.job)

include pair in
theorem bothReaped_finished : Finished 2 (bothReaped outcome first second) := by
  have shape := reaped_shape _ _ (between_shape outcome first second pair) second (List.mem_singleton_self _)
    (reports outcome second.job) (count (between outcome first).results (some (outcome second.job)))
  rw [List.erase_cons_head] at shape
  exact ⟨rfl,congrArg List.length shape.records⟩

include pair real in
theorem both_run : Run (Moves testJobScheduler (reports outcome) 2 2) {results := .zero}
    [.forked 0 7,.forked 1 8,.reaped first.child (some first.data),.reaped second.child (some second.data)]
    (bothReaped outcome first second) := by
  have one : Run (Moves testJobScheduler (reports outcome) 2 2) {results := .zero} [.forked 0 7] oneForked :=
    .snoc [] _ _ _ .nil (.fork _ 7 3 4 (by decide) (by decide) (by decide) (by decide) (by decide) (by decide))
  have both : Run (Moves testJobScheduler (reports outcome) 2 2) {results := .zero} [.forked 0 7,.forked 1 8] bothForked :=
    .snoc _ _ _ _ one (.fork _ 8 4 5 (by decide) (by decide) (by decide) (by decide) (by decide) (by decide))
  have first_ := Run.snoc _ _ _ _ both (first_reaped outcome real first second pair)
  exact .snoc _ _ _ _ first_ (second_reaped outcome real first second pair)

end Both

def mixed (id : Nat) : FtStatus := if id = 0 then .masked else .corrupted

theorem mixed_real (id : Nat) : mixed id ≠ .none := by
  unfold mixed
  split <;> simp

theorem mixed_counted : Counted (reports mixed) 2 .zero (bothReaped mixed otherJob oneJob).results := by
  have run := both_run mixed mixed_real otherJob oneJob (.inr ⟨rfl,rfl⟩)
  exact (((campaign_sound 2 2 (by decide) (by decide)).1 mixed .zero _ _ (fun id _ => mixed_real id) run).2.2
    (bothReaped_finished mixed otherJob oneJob (.inr ⟨rfl,rfl⟩))).2

/-! Jobs that end without a record. -/

/-- The scheduler accounts for these jobs: in every order and whatever its uninitialised
variables hold, it gets through, reaps every job and counts exactly what was written. -/
def Accounts (limit total : Nat) (jobs : Nat → JobEnd FtStatus) : Prop :=
  ∀ stats trace w, Run (Moves testJobScheduler jobs limit total) {results := stats} trace w →
    GoesOn testJobScheduler jobs limit total trace w ∧
      (Finished total w → Closed total trace w ∧ ∀ outcome counter, counterOf outcome = some counter →
        w.results.uLongMap counter = stats.uLongMap counter + wroteCount jobs (List.range total) outcome)

def outcomes : List FtStatus := [.masked,.exception,.infExec,.corrupted,.detected,.injFailed,.skipped]

theorem mem_outcomes (outcome : FtStatus) : outcome ∈ outcomes ↔ outcome ≠ .none := by
  cases outcome <;> decide

theorem sum_wroteCount (jobs : Nat → JobEnd FtStatus) (ids : List Nat) :
    (outcomes.map (wroteCount jobs ids)).sum =
      ids.countP fun id => decide (∃ outcome ∈ outcomes, (jobs id).wrote = some outcome) := by
  induction ids with
  | nil => rfl
  | cons id ids ih =>
    rw [List.countP_cons,← ih]
    simp only [outcomes,wroteCount,List.map_cons,List.map_nil,List.sum_cons,List.sum_nil,List.countP_cons]
    cases wrote : (jobs id).wrote with
    | none => simp
    | some outcome => cases outcome <;> simp <;> omega

def counted (stats : Statistics) : Nat :=
  (outcomes.map fun outcome => (counterOf outcome).elim 0 stats.uLongMap).sum

theorem counted_incr (stats next : Statistics) (outcome : FtStatus)
    (ok : incrStatsCounter stats (some outcome) = .ok next) : counted next = counted stats + 1 := by
  cases outcome <;>
    simp [incrStatsCounter,counterOf,Statistics.incr,isCounter] at ok <;>
    (subst ok; simp [counted,outcomes,counterOf]; omega)

def MaskedRun (jobs : Nat → JobEnd FtStatus) (limit total : Nat) (w : World FtStatus Statistics) : Prop :=
  ∃ trace, Run (Moves testJobScheduler jobs limit total) {results := .zero} trace w ∧
    counted w.results = (doneJobs trace).length ∧
      ∀ job ∈ doneJobs trace, ∃ code, (jobs job).ending = .exited code

def remaining (total : Nat) (w : World FtStatus Statistics) : Nat :=
  2 * (total - w.id) + w.activeJobs.length

theorem remaining_fork (total : Nat) (few : total < 2^32) (w : World FtStatus Statistics) (pid rd wr : Nat)
    (more : w.id < total) : remaining total (forkJob pid rd wr w) < remaining total w := by
  have next := forkJob_id pid rd wr w (by omega)
  have size : (forkJob pid rd wr w).activeJobs.length = w.activeJobs.length + 1 := by
    simp [forkJob,setBackPID_concat]
  rw [remaining,remaining,next,size]
  omega

theorem remaining_reaped (total : Nat) (w : World FtStatus Statistics) (active : List Active) (shape : Shape w active)
    (a : Active) (member : a ∈ active) (job : JobEnd FtStatus) (results : Statistics) :
    remaining total (reaped job a results w) < remaining total w := by
  have size : (active.erase a).length < active.length := by
    rw [List.length_erase_of_mem member]
    have positive := List.length_pos_of_mem member
    omega
  have after := (reaped_shape w active shape a member job results).records
  rw [remaining,remaining,after,shape.records,List.length_map,List.length_map]
  exact Nat.add_lt_add_left size _

theorem maskedRun_fork (jobs : Nat → JobEnd FtStatus) (limit total : Nat) (few : total < 2^32)
    (w : World FtStatus Statistics) (masked : MaskedRun jobs limit total w) (pid rd wr : Nat)
    (more : w.id < total) (step : Moves testJobScheduler jobs limit total w (.forked w.id pid) (forkJob pid rd wr w)) :
    MaskedRun jobs limit total (forkJob pid rd wr w) ∧
      remaining total (forkJob pid rd wr w) < remaining total w := by
  obtain ⟨trace,run,sum,exited⟩ := masked
  refine ⟨⟨_,.snoc _ _ _ _ run step,?_,?_⟩,remaining_fork total few w pid rd wr more⟩
  · rw [doneJobs_forked]
    exact sum
  · rw [doneJobs_forked]
    exact exited

theorem maskedRun_reap (jobs : Nat → JobEnd FtStatus) (limit total : Nat) (w w' : World FtStatus Statistics)
    (masked : MaskedRun jobs limit total w) (active : List Active) (shape : Shape w active) (a : Active)
    (member : a ∈ active) (taken : waitForJob testJobScheduler (some .masked) a.pid (jobs a.job).ending.status
      (endChild (jobs a.job) a.child w) = .ok w')
    (step : Moves testJobScheduler jobs limit total w (.reaped a.child (some a.data)) w') :
    MaskedRun jobs limit total w' ∧ remaining total w' < remaining total w := by
  obtain ⟨trace,run,sum,exited⟩ := masked
  cases how : (jobs a.job).ending with
  | signaled signal core =>
    rw [how,waitForJob_signaled] at taken
    simp at taken
  | exited code =>
    rw [waitForJob_exited _ _ w active shape a member (jobs a.job) code how] at taken
    have record := shape.read_ended w active a member (jobs a.job)
    simp only [testJobScheduler,show a.data.pipe.1 = a.rd from rfl,record,bind,Except.bind] at taken
    cases incremented : incrStatsCounter w.results ((jobs a.job).wrote.or (some .masked)) with
    | error e => rw [incremented] at taken; simp [Except.map] at taken
    | ok results =>
      rw [incremented] at taken
      obtain rfl : reaped (jobs a.job) a results w = w' := by simpa [Except.map] using taken
      obtain ⟨outcome,holds⟩ : ∃ outcome, (jobs a.job).wrote.or (some .masked) = some outcome := by
        cases (jobs a.job).wrote <;> simp
      rw [holds] at incremented
      refine ⟨⟨_,.snoc _ _ _ _ run step,?_,?_⟩,remaining_reaped total w active shape a member (jobs a.job) results⟩
      · rw [doneJobs_reaped,List.length_append,List.length_singleton,← sum]
        exact counted_incr w.results results outcome incremented
      · rw [doneJobs_reaped]
        intro job inside
        rcases List.mem_append.mp inside with old | new
        · exact exited job old
        · rw [List.mem_singleton.mp new]
          exact ⟨code,how⟩

theorem maskedRun_goesOn (jobs : Nat → JobEnd FtStatus) (limit total : Nat) (few : total < 2^32)
    (one : 1 ≤ limit) (accounts : Accounts limit total jobs) (w : World FtStatus Statistics)
    (masked : MaskedRun jobs limit total w) (going : ¬ Finished total w) :
    ∃ event w', Moves testJobScheduler jobs limit total w event w' ∧ MaskedRun jobs limit total w' ∧
      remaining total w' < remaining total w := by
  obtain ⟨trace,run,sum,exited⟩ := masked
  have masked : MaskedRun jobs limit total w := ⟨trace,run,sum,exited⟩
  obtain ⟨active,orderly⟩ := run_orderly testJobScheduler jobs limit total few .zero trace w run
  rcases orderly.progress testJobScheduler jobs one (some .masked) going with
    ⟨more,pid,rd,wr,step⟩ | ⟨a,member,step⟩
  · have low := lt_of_le_of_ne orderly.upTo more
    exact ⟨_,_,step,maskedRun_fork jobs limit total few w masked pid rd wr low step⟩
  · obtain ⟨w',same⟩ := ((accounts .zero trace w run).1).succeeds _ _ step
    rw [same] at step
    exact ⟨_,w',step,maskedRun_reap jobs limit total w w' masked active orderly.shape a member same step⟩

theorem reported_of_accounts (jobs : Nat → JobEnd FtStatus) (limit total : Nat) (few : total < 2^32)
    (one : 1 ≤ limit) (accounts : Accounts limit total jobs) : ∀ job < total, Reported (jobs job) := by
  have start : MaskedRun jobs limit total {results := .zero} := ⟨[],.nil,rfl,by simp [doneJobs]⟩
  obtain ⟨_,w,_,⟨trace,run,sum,exited⟩,ended⟩ :=
    Run.exists_final (MaskedRun jobs limit total) (Finished total) (remaining total)
      (fun w masked going => maskedRun_goesOn jobs limit total few one accounts w masked going) _ start
  obtain ⟨closed,counters⟩ := (accounts .zero trace w run).2 ended
  have written : counted w.results = (outcomes.map (wroteCount jobs (List.range total))).sum := by
    rw [counted]
    refine congrArg List.sum (List.map_congr_left fun outcome member => ?_)
    obtain ⟨counter,has⟩ := counterOf_isSome outcome ((mem_outcomes outcome).mp member)
    rw [has,Option.elim_some,counters outcome counter has]
    exact Nat.zero_add _
  rw [sum,closed.allReaped.length_eq,sum_wroteCount,eq_comm,List.countP_eq_length] at written
  intro job low
  have wrote := written job (List.mem_range.mpr low)
  obtain ⟨outcome,member,same⟩ := of_decide_eq_true wrote
  exact ⟨exited job (closed.allReaped.mem_iff.mpr (List.mem_range.mpr low)),outcome,same,
    (mem_outcomes outcome).mp member⟩

/-- The test scheduler accounts for its jobs exactly if every one of them wrote its outcome
and exited: one job that wrote nothing is enough to miscount or to end the campaign. -/
theorem accounts_iff (jobs : Nat → JobEnd FtStatus) (limit total : Nat) (few : total < 2^32)
    (one : 1 ≤ limit) : Accounts limit total jobs ↔ ∀ job < total, Reported (jobs job) := by
  constructor
  · exact reported_of_accounts jobs limit total few one
  · intro good stats trace w run
    obtain ⟨_,goesOn,finished⟩ := test_campaign jobs limit total few one good stats trace w run
    exact ⟨goesOn,fun ended => ⟨(finished ended).1,(finished ended).2.counters⟩⟩

theorem mixed_accounts : Accounts 1 2 (reports mixed) ↔ ∀ job < 2, Reported (reports mixed job) :=
  accounts_iff (reports mixed) 1 2 (by decide) (by decide)

theorem finished_exited (jobs : Nat → JobEnd FtStatus) (limit total : Nat) (few : total < 2^32) (stats : Statistics)
    (trace : List Event) (w : World FtStatus Statistics)
    (run : Run (Moves testJobScheduler jobs limit total) {results := stats} trace w) (ended : Finished total w) :
    ∀ job < total, ∃ code, (jobs job).ending = .exited code := by
  have along : (∃ active, Orderly limit total trace w active) ∧
      ∀ job ∈ doneJobs trace, ∃ code, (jobs job).ending = .exited code := by
    refine Run.invariant (fun trace w => (∃ active, Orderly limit total trace w active) ∧
      ∀ job ∈ doneJobs trace, ∃ code, (jobs job).ending = .exited code)
      ⟨⟨[],start_orderly limit total stats⟩,by simp [doneJobs]⟩ ?_ run
    rintro trace w event w' ⟨⟨active,orderly⟩,exited⟩ step
    rcases Step.cases_ok testJobScheduler jobs limit total few trace w w' active event orderly step with
      ⟨_,_,_,rfl,_,_,_,next⟩ | ⟨a,_,_,code,_,rfl,how,_,_,_,next⟩
    · refine ⟨⟨_,next⟩,?_⟩
      rw [doneJobs_forked]
      exact exited
    · refine ⟨⟨_,next⟩,?_⟩
      rw [doneJobs_reaped]
      intro job member
      obtain old | new := List.mem_append.mp member
      · exact exited job old
      · rw [List.mem_singleton.mp new]
        exact ⟨code,how⟩
  obtain ⟨⟨active,orderly⟩,exited⟩ := along
  obtain ⟨_,_,_,allReaped⟩ := orderly.finished ended
  exact fun job low => exited job (allReaped.mem_iff.mpr (List.mem_range.mpr low))

def filled (garbage : FtStatus) (job : JobEnd FtStatus) : JobEnd FtStatus := ⟨job.wrote.or (some garbage),job.ending⟩

theorem exists_filled_run (garbage : FtStatus) (jobs : Nat → JobEnd FtStatus) (limit total : Nat) (few : total < 2^32)
    (one : 1 ≤ limit) (good : ∀ job < total, Reported (filled garbage (jobs job))) (stats : Statistics) :
    ∃ trace w, Run (Moves testJobScheduler jobs limit total) {results := stats} trace w ∧ Finished total w ∧
      Counted (fun id => filled garbage (jobs id)) total stats w.results := by
  let Filled (w : World FtStatus Statistics) : Prop := ∃ trace,
    Run (Moves testJobScheduler jobs limit total) {results := stats} trace w ∧
      w.results = (doneJobs trace).foldl (fun stats job => count stats (filled garbage (jobs job)).wrote) stats
  have progress : ∀ w, Filled w → ¬ Finished total w → ∃ event w',
      Moves testJobScheduler jobs limit total w event w' ∧ Filled w' ∧ remaining total w' < remaining total w := by
    rintro w ⟨trace,run,sum⟩ going
    obtain ⟨active,orderly⟩ := run_orderly testJobScheduler jobs limit total few stats trace w run
    rcases orderly.progress testJobScheduler jobs one (some garbage) going with
      ⟨more,pid,rd,wr,step⟩ | ⟨a,member,waits⟩
    · refine ⟨_,_,step,⟨_,.snoc _ _ _ _ run step,?_⟩,
        remaining_fork total few w pid rd wr (lt_of_le_of_ne orderly.upTo more)⟩
      rw [doneJobs_forked]
      exact sum
    · obtain ⟨⟨code,how⟩,outcome,wrote,real⟩ := good a.job (orderly.job_lt a member)
      have step := reap_moves jobs limit total w active orderly.shape (wait_guards waits).1 a member code how
        (some garbage) outcome wrote real
      refine ⟨_,_,step,⟨_,.snoc _ _ _ _ run step,?_⟩,
        remaining_reaped total w active orderly.shape a member (jobs a.job) _⟩
      rw [doneJobs_reaped,List.foldl_append,← sum]
      exact congrArg (count w.results) wrote.symm
  obtain ⟨_,w,_,⟨trace,run,sum⟩,ended⟩ := Run.exists_final Filled (Finished total) (remaining total) progress
    {results := stats} ⟨[],.nil,rfl⟩
  obtain ⟨active,orderly⟩ := run_orderly testJobScheduler jobs limit total few stats trace w run
  obtain ⟨_,_,_,allReaped⟩ := orderly.finished ended
  obtain ⟨counts,grand⟩ := fold_counts (fun id => filled garbage (jobs id)) (doneJobs trace) stats fun id member =>
    good id (List.mem_range.mp (allReaped.mem_iff.mp member))
  refine ⟨trace,w,run,ended,?_,?_⟩
  · intro outcome counter has
    rw [sum,counts outcome counter has]
    exact congrArg _ (allReaped.countP_eq _)
  · rw [sum,grand,allReaped.length_eq,List.length_range]

def gaveUp : JobEnd FtStatus := ⟨none,.exited exitFailure⟩

theorem gaveUp_counted : ¬ Accounts 1 1 fun _ => gaveUp := by
  intro accounts
  obtain ⟨_,outcome,wrote,_⟩ := reported_of_accounts (fun _ => gaveUp) 1 1 (by decide) (by decide) accounts 0 (by decide)
  simp [gaveUp] at wrote

end Zofi.Campaign
