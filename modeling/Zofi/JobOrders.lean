import Zofi.Campaign
import Zofi.Lib.JobPool

/-! What the scheduler's records, pipes and pids implement is a bounded pool of jobs: it takes
the pool's steps and no others, so the orders in which it can reap its jobs are the pool's. -/
namespace Zofi.JobOrders
open Transitions Model.Utils Model.WaitStatus Model.Outcomes Model.Threads Scheduler Campaign

variable {G R S : Type}

def poolEvent : Event → JobPool.Event
  | .forked id _ => .start id
  | .reaped child _ => .finish child.job

def pool (w : World R S) (trace : List Event) : JobPool.Pool := ⟨w.id,doneJobs trace⟩

theorem pool_forked (w w' : World R S) (trace : List Event) (id pid : Nat) (next : w'.id = w.id + 1) :
    pool w' (trace ++ [.forked id pid]) = {pool w trace with started := w.id + 1} := by
  rw [pool,doneJobs_forked,next]
  rfl

theorem pool_reaped (w w' : World R S) (trace : List Event) (child : Child) (record : Option JobData)
    (kept : w'.id = w.id) :
    pool w' (trace ++ [.reaped child record]) = {pool w trace with finished := doneJobs trace ++ [child.job]} := by
  rw [pool,doneJobs_reaped,kept]
  rfl

theorem activeJobs_length {limit total : Nat} {trace : List Event} {w : World R S} {active : List Active}
    (orderly : Orderly limit total trace w active) : (doneJobs trace).length + w.activeJobs.length = w.id := by
  have sizes := orderly.once.length_eq
  rw [List.length_append,List.length_map,List.length_range] at sizes
  rw [orderly.shape.records,List.length_map]
  exact sizes

theorem fork_guards {sub : Subclass G R S} {jobs : Nat → JobEnd R} {limit total : Nat} {w : World R S} {id pid : Nat}
    {result : Except Halt (World R S)} (step : Step sub jobs limit total w (.forked id pid) result) :
    id = w.id ∧ w.id ≠ total ∧ w.activeJobs.length ≠ limit := by
  cases step with
  | fork pid rd wr more room newPid newRd newWr apart => exact ⟨rfl,more,room⟩

theorem blocks_full {limit total : Nat} {trace : List Event} {w : World R S} {active : List Active}
    (orderly : Orderly limit total trace w active) (blocks : Blocks limit total w) :
    JobPool.Full limit total (pool w trace) := by
  have size := activeJobs_length orderly
  rw [JobPool.Full,pool]
  dsimp only
  rw [Blocks] at blocks
  split at blocks <;> omega

theorem full_blocks {limit total : Nat} {trace : List Event} {w : World R S} {active : List Active}
    (orderly : Orderly limit total trace w active) (a : Active) (member : a ∈ active)
    (full : JobPool.Full limit total (pool w trace)) : Blocks limit total w := by
  have size := activeJobs_length orderly
  have some := List.length_pos_of_mem member
  rw [JobPool.Full,pool] at full
  dsimp only at full
  rw [orderly.shape.records,List.length_map] at size
  rw [Blocks,orderly.shape.records,List.length_map]
  split <;> omega

theorem active_running {limit total : Nat} {trace : List Event} {w : World R S} {active : List Active}
    (orderly : Orderly limit total trace w active) (job : Nat) :
    (∃ a ∈ active, a.job = job) ↔ job < w.id ∧ job ∉ doneJobs trace := by
  have known := orderly.once.mem_iff (a := job)
  rw [List.mem_append,List.mem_range,List.mem_map] at known
  have apart := (List.nodup_append.mp (orderly.once.nodup_iff.mpr List.nodup_range)).2.2
  constructor
  · rintro ⟨a,member,rfl⟩
    refine ⟨known.mp (.inr ⟨a,member,rfl⟩),fun done => ?_⟩
    exact apart _ done _ (List.mem_map_of_mem member) rfl
  · rintro ⟨low,running⟩
    exact (known.mpr low).resolve_left running

theorem step_pool (sub : Subclass G R S) (jobs : Nat → JobEnd R) (limit total : Nat) (few : total < 2^32)
    (trace : List Event) (w w' : World R S) (active : List Active) (event : Event)
    (orderly : Orderly limit total trace w active) (step : Moves sub jobs limit total w event w') :
    JobPool.Step limit total (pool w trace) (poolEvent event) (pool w' (trace ++ [event])) := by
  rcases Step.cases_ok sub jobs limit total few trace w w' active event orderly step with
    ⟨pid,rd,wr,rfl,_,_,next,_⟩ | ⟨a,member,_,_,_,rfl,_,_,_,next,_⟩
  · have room : ¬ JobPool.Full limit total (pool w trace) := by
      obtain ⟨_,more,room⟩ := fork_guards step
      have size := activeJobs_length orderly
      rintro (all | busy)
      · exact more all
      · exact room (by simp only [pool] at busy; omega)
    rw [pool_forked w w' trace w.id pid next]
    exact .start (pool w trace) room
  · obtain ⟨blocks,_⟩ := wait_guards step
    obtain ⟨low,running⟩ := (active_running orderly a.job).mp ⟨a,member,rfl⟩
    rw [pool_reaped w w' trace a.child (some a.data) next]
    exact .finish (pool w trace) a.job (blocks_full orderly blocks) low running

theorem run_pool (sub : Subclass G R S) (jobs : Nat → JobEnd R) (limit total : Nat) (few : total < 2^32)
    (results : S) (trace : List Event) (w : World R S) (run : Run (Moves sub jobs limit total) {results} trace w) :
    Run (JobPool.Step limit total) {} (trace.map poolEvent) (pool w trace) := by
  induction run with
  | nil => exact .nil
  | snoc trace w event w' run step ih =>
    obtain ⟨active,orderly⟩ := run_orderly sub jobs limit total few results trace w run
    rw [List.map_append]
    exact .snoc _ _ _ _ ih (step_pool sub jobs limit total few trace w w' active event orderly step)

theorem pool_step (sub : Subclass G R S) [Inhabited G] (jobs : Nat → JobEnd R) (limit total : Nat)
    (few : total < 2^32) (absorb : Nat → S → S) (takes : Takes sub jobs total absorb) (trace : List Event)
    (w : World R S) (active : List Active) (orderly : Orderly limit total trace w active) (move : JobPool.Event)
    (next : JobPool.Pool) (step : JobPool.Step limit total (pool w trace) move next) :
    ∃ event w', Moves sub jobs limit total w event w' ∧ poolEvent event = move ∧ pool w' (trace ++ [event]) = next := by
  cases step with
  | start room =>
    have upTo := orderly.upTo
    rw [JobPool.Full,not_or] at room
    have more : w.id ≠ total := room.1
    have one : 1 ≤ limit := by
      have behind := (activeJobs_length orderly).trans_ne room.2
      have atMost := (inStep_of_orderly limit total trace w active orderly).atMost
      simp only [pool] at behind
      omega
    rcases orderly.progress sub jobs one default (fun ended => more ended.1) with
      ⟨_,pid,rd,wr,forks⟩ | ⟨a,_,waits⟩
    · exact ⟨_,_,forks,rfl,pool_forked w _ trace w.id pid (forkJob_id pid rd wr w (by omega))⟩
    · exact absurd (blocks_full orderly (wait_guards waits).1) (not_or.mpr room)
  | finish job full low running =>
    obtain ⟨a,member,rfl⟩ := (active_running orderly job).mpr ⟨low,running⟩
    have left : a.child ∈ w.children := by
      rw [orderly.shape.children]
      exact List.mem_map_of_mem member
    have waits : Step sub jobs limit total w _ _ := .wait w a.child default (full_blocks orderly a member full) left
    obtain ⟨w',same⟩ := steps_succeed sub jobs limit total absorb takes trace w active orderly _ _ waits
    rw [same] at waits
    refine ⟨_,w',waits,rfl,?_⟩
    rcases Step.cases_ok sub jobs limit total few trace w w' active _ orderly waits with
      ⟨_,_,_,other,_⟩ | ⟨_,_,_,_,_,_,_,_,_,kept,_⟩
    · simp at other
    · exact pool_reaped w w' trace a.child _ kept

theorem pool_run (sub : Subclass G R S) [Inhabited G] (jobs : Nat → JobEnd R) (limit total : Nat)
    (few : total < 2^32) (absorb : Nat → S → S) (takes : Takes sub jobs total absorb) (results : S)
    (moves : List JobPool.Event) (reached : JobPool.Pool) (run : Run (JobPool.Step limit total) {} moves reached) :
    ∃ trace w, Run (Moves sub jobs limit total) {results} trace w ∧ trace.map poolEvent = moves ∧
      pool w trace = reached := by
  induction run with
  | nil => exact ⟨[],_,.nil,rfl,rfl⟩
  | snoc moves before move after run step ih =>
    obtain ⟨trace,w,steps,same,rfl⟩ := ih
    obtain ⟨active,orderly⟩ := run_orderly sub jobs limit total few results trace w steps
    obtain ⟨event,w',next,shown,reached⟩ :=
      pool_step sub jobs limit total few absorb takes trace w active orderly move after step
    refine ⟨trace ++ [event],w',.snoc _ _ _ _ steps next,?_,reached⟩
    rw [List.map_append,same,List.map_singleton,shown]

/-- The forks and waits that `run(TotalNumJobs)` can have made so far are those of a pool that
starts its jobs in order and collects one only when it is full or has started them all. -/
theorem traces_iff (sub : Subclass G R S) [Inhabited G] (jobs : Nat → JobEnd R) (limit total : Nat)
    (few : total < 2^32) (absorb : Nat → S → S) (takes : Takes sub jobs total absorb) (results : S)
    (moves : List JobPool.Event) :
    (∃ trace w, Run (Moves sub jobs limit total) {results} trace w ∧ trace.map poolEvent = moves) ↔
      ∃ reached, Run (JobPool.Step limit total) {} moves reached := by
  constructor
  · rintro ⟨trace,w,run,rfl⟩
    exact ⟨_,run_pool sub jobs limit total few results trace w run⟩
  · rintro ⟨reached,run⟩
    obtain ⟨trace,w,steps,same,_⟩ := pool_run sub jobs limit total few absorb takes results moves reached run
    exact ⟨trace,w,steps,same⟩

theorem masked_takes (total : Nat) : Takes testJobScheduler (reports fun _ => .masked) total
    fun job stats => count stats (reports (fun _ => FtStatus.masked) job).wrote :=
  test_takes _ total fun job _ => reported_reports _ job (by simp)

theorem twoAtATime_trace : ∃ trace w, Run (Moves testJobScheduler (reports fun _ => .masked) 2 3)
    {results := .zero} trace w ∧ trace.map poolEvent = [.start 0,.start 1,.finish 1,.start 2] := by
  refine (traces_iff testJobScheduler _ 2 3 (by decide) _ (masked_takes 3) .zero _).mpr ⟨⟨3,[1]⟩,?_⟩
  have first : Run (JobPool.Step 2 3) {} _ _ := .snoc _ _ _ _ .nil (.start {} (by simp [JobPool.Full]))
  have second := Run.snoc _ _ _ _ first (.start _ (by simp [JobPool.Full]))
  have third := Run.snoc _ _ _ _ second (.finish _ 1 (by simp [JobPool.Full]) (by simp) (by simp))
  exact .snoc _ _ _ _ third (.start _ (by simp [JobPool.Full]))

theorem finished_iff {limit total : Nat} {trace : List Event} {w : World R S} {active : List Active}
    (orderly : Orderly limit total trace w active) : Finished total w ↔ (doneJobs trace).length = total := by
  have size := activeJobs_length orderly
  have upTo := orderly.upTo
  rw [Finished]
  omega

/-- The loop collects its jobs in every order in which the one behind `k` others is among the
first `limit` + `k`, and in no other; and whenever it waits, as many jobs are active as the
limit and what is left of them allow. -/
theorem reapOrders_iff (sub : Subclass G R S) [Inhabited G] (jobs : Nat → JobEnd R) (limit total : Nat)
    (few : total < 2^32) (absorb : Nat → S → S) (takes : Takes sub jobs total absorb) (results : S) :
    (∀ order : List Nat,
      (∃ trace w, Run (Moves sub jobs limit total) {results} trace w ∧ Finished total w ∧ doneJobs trace = order) ↔
        order.Perm (List.range total) ∧ ∀ k (low : k < order.length), order[k] < limit + k) ∧
    ∀ trace w child record w', Run (Moves sub jobs limit total) {results} trace w →
      Moves sub jobs limit total w (.reaped child record) w' →
      w.activeJobs.length = min limit (total - (doneJobs trace).length) := by
  refine ⟨?_,?_⟩
  · intro order
    rw [← JobPool.orders_iff]
    constructor
    · rintro ⟨trace,w,run,ended,rfl⟩
      obtain ⟨active,orderly⟩ := run_orderly sub jobs limit total few results trace w run
      exact ⟨_,_,run_pool sub jobs limit total few results trace w run,(finished_iff orderly).mp ended,rfl⟩
    · rintro ⟨moves,reached,run,all,rfl⟩
      obtain ⟨trace,w,steps,_,rfl⟩ := pool_run sub jobs limit total few absorb takes results moves reached run
      obtain ⟨active,orderly⟩ := run_orderly sub jobs limit total few results trace w steps
      exact ⟨trace,w,steps,(finished_iff orderly).mpr all,rfl⟩
  · intro trace w child record w' run step
    obtain ⟨active,orderly⟩ := run_orderly sub jobs limit total few results trace w run
    have kept := JobPool.run_kept limit total _ _ (run_pool sub jobs limit total few results trace w run)
    have running := kept.full_running (blocks_full orderly (wait_guards step).1)
    have size := activeJobs_length orderly
    dsimp only [pool] at running
    omega

theorem twoAtATime_orders :
    (∃ trace w, Run (Moves testJobScheduler (reports fun _ => .masked) 2 3) {results := .zero} trace w ∧
      Finished 3 w ∧ doneJobs trace = [1,2,0]) ∧
    ¬ ∃ trace w, Run (Moves testJobScheduler (reports fun _ => .masked) 2 3) {results := .zero} trace w ∧
      Finished 3 w ∧ doneJobs trace = [2,0,1] := by
  have orders := (reapOrders_iff testJobScheduler _ 2 3 (by decide) _ (masked_takes 3) .zero).1
  refine ⟨(orders [1,2,0]).mpr ⟨by decide,by decide⟩,fun reached => ?_⟩
  exact absurd (((orders [2,0,1]).mp reached).2 0 (by decide)) (by decide)

end Zofi.JobOrders
