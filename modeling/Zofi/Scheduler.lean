import Zofi.Lib.Keyed
import Zofi.Lib.Transitions
import Zofi.Model.Threads
import Mathlib.Data.List.Perm.Basic
import Mathlib.Data.Finset.Basic

/-! The scheduler's loop keeps its records, its descriptors and its unreaped children in
step: they are three views of one list of active jobs. -/
namespace Zofi.Scheduler
open Keyed Transitions Model.Utils Model.WaitStatus Model.Outcomes Model.Threads

variable {G R S : Type}

structure Active where
  pid : Nat
  job : Nat
  pipe : Nat
  rd : Nat
  wr : Nat
  deriving DecidableEq

def Active.data (a : Active) : JobData := ⟨a.pid,toInt a.job,(a.rd,a.wr)⟩
def Active.child (a : Active) : Child := ⟨a.pid,a.job,a.pipe⟩
def Active.fd (a : Active) : Nat × PipeEnd := (a.rd,.readEnd a.pipe)

structure Shape (w : World R S) (active : List Active) : Prop where
  records : w.activeJobs = active.map Active.data
  children : w.children = active.map Active.child
  fds : w.fds = active.map Active.fd
  pids : (active.map Active.pid).Nodup
  rds : (active.map Active.rd).Nodup
  numbers : (active.map Active.pipe).Nodup
  unread : ∀ a ∈ active, w.pipes[a.pipe]? = some {}

theorem setBackPID_concat (jobs : List JobData) (data : JobData) (pid : Nat) :
    setBackPID (jobs ++ [data]) pid = jobs ++ [{data with childPID := pid}] := by
  simp [setBackPID]

theorem close_new (fds : List (Nat × PipeEnd)) (rd wr number : Nat) (absent : wr ∉ fds.map (·.1))
    (apart : rd ≠ wr) :
    close (fds ++ [(rd,.readEnd number),(wr,.writeEnd number)]) wr = fds ++ [(rd,.readEnd number)] := by
  have none : ∀ entry ∈ fds, ¬ (entry.1 == wr) = true := by
    intro entry member same
    exact absent (List.mem_map.mpr ⟨entry,member,by simpa using same⟩)
  rw [close,List.eraseP_append_right _ none]
  simp [apart]

theorem forkJob_id (pid rd wr : Nat) (w : World R S) (few : w.id + 1 < 2^32) :
    (forkJob pid rd wr w).id = w.id + 1 := by
  rw [show (forkJob pid rd wr w).id = (w.id + 1) % 2^32 from rfl,Nat.mod_eq_of_lt few]

def started (w : World R S) (pid rd wr : Nat) : Active := ⟨pid,w.id,w.pipes.length,rd,wr⟩

theorem forkJob_shape (w : World R S) (active : List Active) (shape : Shape w active) (pid rd wr : Nat)
    (newPid : pid ∉ w.children.map (·.pid)) (newRd : rd ∉ w.fds.map (·.1)) (newWr : wr ∉ w.fds.map (·.1))
    (apart : rd ≠ wr) : Shape (forkJob pid rd wr w) (active ++ [started w pid rd wr]) := by
  have bounds : ∀ a ∈ active, a.pipe < w.pipes.length := fun a member =>
    (List.getElem?_eq_some_iff.mp (shape.unread a member)).1
  refine ⟨?_,?_,?_,?_,?_,?_,?_⟩
  · simp only [forkJob,setBackPID_concat,shape.records,List.map_append,List.map_singleton]
    rfl
  · simp only [forkJob,shape.children,List.map_append,List.map_singleton]
    rfl
  · simp only [forkJob,close_new _ _ _ _ newWr apart]
    rw [shape.fds,List.map_append]
    rfl
  · rw [shape.children,List.map_map] at newPid
    rw [List.map_append,List.map_singleton,List.nodup_append_comm,List.singleton_append,List.nodup_cons]
    exact ⟨newPid,shape.pids⟩
  · rw [shape.fds,List.map_map] at newRd
    rw [List.map_append,List.map_singleton,List.nodup_append_comm,List.singleton_append,List.nodup_cons]
    exact ⟨newRd,shape.rds⟩
  · rw [List.map_append,List.map_singleton,List.nodup_append_comm,List.singleton_append,List.nodup_cons]
    refine ⟨?_,shape.numbers⟩
    intro member
    obtain ⟨a,inside,same⟩ := List.mem_map.mp member
    have bound := bounds a inside
    rw [same] at bound
    exact absurd bound (lt_irrefl _)
  · intro a member
    simp only [forkJob]
    rcases List.mem_append.mp member with old | new
    · rw [List.getElem?_append_left (bounds a old)]
      exact shape.unread a old
    · rw [List.mem_singleton.mp new]
      simp [started]

theorem Shape.of_child (w : World R S) (active : List Active) (shape : Shape w active) (child : Child)
    (member : child ∈ w.children) : ∃ a ∈ active, child = a.child := by
  rw [shape.children] at member
  obtain ⟨a,inside,same⟩ := List.mem_map.mp member
  exact ⟨a,inside,same.symm⟩

theorem Shape.find_record (w : World R S) (active : List Active) (shape : Shape w active) (a : Active)
    (member : a ∈ active) : w.activeJobs.find? (·.childPID == a.pid) = some a.data := by
  rw [shape.records,List.find?_map]
  exact congrArg (Option.map Active.data)
    (find_key Active.pid active a member (unique_of_nodup shape.pids member))

theorem Shape.read_ended (w : World R S) (active : List Active) (shape : Shape w active) (a : Active)
    (member : a ∈ active) (job : JobEnd R) : (endChild job a.child w).read a.rd = .ok job.wrote := by
  have entry : w.fds.lookup a.rd = some (.readEnd a.pipe) := by
    rw [shape.fds]
    exact lookup_key Active.rd (fun a => PipeEnd.readEnd a.pipe) active a member
      (unique_of_nodup shape.rds member)
  have content : (endChild job a.child w).pipes[a.pipe]? = some ⟨job.wrote,false⟩ := by
    simp [endChild,Active.child,shape.unread a member]
  simp only [World.read,show (endChild job a.child w).fds = w.fds from rfl,entry,content]
  cases job.wrote <;> rfl

def reaped (job : JobEnd R) (a : Active) (results : S) (w : World R S) : World R S :=
  {endChild job a.child w with
    results
    fds := close w.fds a.rd
    activeJobs := w.activeJobs.eraseP (·.childPID == a.pid)}

theorem reaped_shape (w : World R S) (active : List Active) (shape : Shape w active) (a : Active)
    (member : a ∈ active) (job : JobEnd R) (results : S) :
    Shape (reaped job a results w) (active.erase a) := by
  have byPid := eraseP_key Active.pid active a (unique_of_nodup shape.pids member)
  have byRd := eraseP_key Active.rd active a (unique_of_nodup shape.rds member)
  have distinct : active.Nodup := shape.pids.of_map _
  refine ⟨?_,?_,?_,?_,?_,?_,?_⟩
  · rw [← byPid]
    simp only [reaped,shape.records,List.eraseP_map]
    rfl
  · rw [← byPid]
    simp only [reaped,endChild,shape.children,List.eraseP_map]
    rfl
  · rw [← byRd]
    simp only [reaped,shape.fds,close,List.eraseP_map]
    rfl
  · exact shape.pids.sublist (List.erase_sublist.map _)
  · exact shape.rds.sublist (List.erase_sublist.map _)
  · exact shape.numbers.sublist (List.erase_sublist.map _)
  · intro b rest
    obtain ⟨different,inside⟩ := (List.Nodup.mem_erase_iff distinct).mp rest
    have apart : a.pipe ≠ b.pipe := fun same =>
      different (unique_of_nodup shape.numbers member b inside same.symm)
    simp only [reaped,endChild,Active.child,List.getElem?_modify,if_neg apart,shape.unread b inside]
    rfl

/-- What `waitForJob` does for a child that exited: the subclass gets the child's own record
and what the child wrote. -/
theorem waitForJob_exited (sub : Subclass G R S) (garbage : G) (w : World R S) (active : List Active)
    (shape : Shape w active) (a : Active) (member : a ∈ active) (job : JobEnd R) (code : Fin 256)
    (exited : job.ending = .exited code) :
    waitForJob sub garbage a.pid job.ending.status (endChild job a.child w) =
      (sub.jobFinishedParentCode garbage (endChild job a.child w).read a.data w.results).map
        fun results => reaped job a results w := by
  have found := shape.find_record w active a member
  have status := exited_status code
  have normally : wIfExited (Ending.exited code).status = true := by
    unfold getWaitPidExitState at status
    split at status
    · assumption
    · split at status
      · simp at status
      · split at status <;> simp at status
  rw [waitForJob,exited,status,normally]
  simp only [assert,if_true,bind,Except.bind,pure,Except.pure,
    show (endChild job a.child w).activeJobs = w.activeJobs from rfl,found]
  rfl

theorem waitForJob_signaled (sub : Subclass G R S) (garbage : G) (pid : Nat) (w : World R S)
    (signal : Signal) (core : Bool) :
    waitForJob sub garbage pid (Ending.signaled signal core).status w =
      .error (.assertion "Expected child to have exited.") := by
  have status := signaled_status signal core
  have abnormally : wIfExited (Ending.signaled signal core).status = false := by
    unfold getWaitPidExitState at status
    split at status
    · simp at status
    · next no => simpa using no
  rw [waitForJob,status,abnormally]
  rfl

def forkedId : Event → Option Nat
  | .forked id _ => some id
  | .reaped _ _ => none

def reapedJob : Event → Option Nat
  | .forked _ _ => none
  | .reaped child _ => some child.job

def doneJobs (trace : List Event) : List Nat := trace.filterMap reapedJob

theorem doneJobs_forked (trace : List Event) (id pid : Nat) :
    doneJobs (trace ++ [.forked id pid]) = doneJobs trace := by
  rw [doneJobs,List.filterMap_append]
  exact List.append_nil _

theorem doneJobs_reaped (trace : List Event) (child : Child) (record : Option JobData) :
    doneJobs (trace ++ [.reaped child record]) = doneJobs trace ++ [child.job] := by
  rw [doneJobs,List.filterMap_append]
  rfl

structure Orderly (limit total : Nat) (trace : List Event) (w : World R S) (active : List Active) : Prop where
  shape : Shape w active
  atMost : active.length ≤ limit
  upTo : w.id ≤ total
  inOrder : trace.filterMap forkedId = List.range w.id
  once : (doneJobs trace ++ active.map Active.job).Perm (List.range w.id)
  forkedAs : ∀ a ∈ active, .forked a.job a.pid ∈ trace
  paired : ∀ child record, .reaped child record ∈ trace →
    .forked child.job child.pid ∈ trace ∧
      ∃ data, record = some data ∧ data.childPID = child.pid ∧ data.id = toInt child.job

theorem start_orderly (limit total : Nat) (results : S) :
    Orderly limit total [] ({results} : World R S) [] := by
  refine ⟨⟨rfl,rfl,rfl,?_,?_,?_,?_⟩,Nat.zero_le _,Nat.zero_le _,rfl,?_,?_,?_⟩ <;> simp [doneJobs]

theorem fork_orderly (limit total : Nat) (few : total < 2^32) (trace : List Event) (w : World R S)
    (active : List Active) (orderly : Orderly limit total trace w active) (pid rd wr : Nat)
    (more : w.id ≠ total) (room : w.activeJobs.length ≠ limit) (newPid : pid ∉ w.children.map (·.pid))
    (newRd : rd ∉ w.fds.map (·.1)) (newWr : wr ∉ w.fds.map (·.1)) (apart : rd ≠ wr) :
    Orderly limit total (trace ++ [.forked w.id pid]) (forkJob pid rd wr w)
      (active ++ [started w pid rd wr]) := by
  have upTo := orderly.upTo
  have atMost := orderly.atMost
  rw [orderly.shape.records,List.length_map] at room
  have next := forkJob_id pid rd wr w (by omega)
  refine ⟨forkJob_shape w active orderly.shape pid rd wr newPid newRd newWr apart,?_,?_,?_,?_,?_,?_⟩
  · rw [List.length_append,List.length_singleton]
    omega
  · rw [next]
    omega
  · rw [next,List.range_succ,List.filterMap_append,orderly.inOrder]
    rfl
  · rw [next,List.range_succ]
    rw [doneJobs_forked,List.map_append,← List.append_assoc]
    exact orderly.once.append_right _
  · intro a member
    rcases List.mem_append.mp member with old | new
    · exact List.mem_append_left _ (orderly.forkedAs a old)
    · rw [List.mem_singleton.mp new]
      exact List.mem_append_right _ (by simp [started])
  · intro child record member
    rcases List.mem_append.mp member with old | new
    · obtain ⟨forked,rest⟩ := orderly.paired child record old
      exact ⟨List.mem_append_left _ forked,rest⟩
    · simp at new

theorem reap_orderly (limit total : Nat) (trace : List Event) (w : World R S) (active : List Active)
    (orderly : Orderly limit total trace w active) (a : Active) (member : a ∈ active) (job : JobEnd R)
    (results : S) :
    Orderly limit total (trace ++ [.reaped a.child (some a.data)]) (reaped job a results w)
      (active.erase a) := by
  refine ⟨reaped_shape w active orderly.shape a member job results,?_,orderly.upTo,?_,?_,?_,?_⟩
  · exact (List.erase_sublist.length_le).trans orderly.atMost
  · rw [List.filterMap_append,orderly.inOrder]
    exact List.append_nil _
  · rw [doneJobs_reaped,List.append_assoc,List.singleton_append]
    exact (((List.perm_cons_erase member).symm.map Active.job).append_left _).trans orderly.once
  · intro b inside
    exact List.mem_append_left _ (orderly.forkedAs b (List.mem_of_mem_erase inside))
  · intro child record inside
    rcases List.mem_append.mp inside with old | new
    · obtain ⟨forked,rest⟩ := orderly.paired child record old
      exact ⟨List.mem_append_left _ forked,rest⟩
    · simp only [List.mem_singleton,Event.reaped.injEq] at new
      obtain ⟨rfl,rfl⟩ := new
      exact ⟨List.mem_append_left _ (orderly.forkedAs a member),a.data,rfl,rfl,rfl⟩

/-- A step that succeeds is a fork, or the reaping of one active job that had exited, whose
record the subclass has taken in. -/
theorem Step.cases_ok (sub : Subclass G R S) (jobs : Nat → JobEnd R) (limit total : Nat) (few : total < 2^32)
    (trace : List Event) (w w' : World R S) (active : List Active) (event : Event)
    (orderly : Orderly limit total trace w active)
    (step : Step sub jobs limit total w event (.ok w')) :
    (∃ pid rd wr, event = .forked w.id pid ∧ w' = forkJob pid rd wr w ∧ w'.results = w.results ∧
        w'.id = w.id + 1 ∧ Orderly limit total (trace ++ [event]) w' (active ++ [started w pid rd wr])) ∨
      ∃ a ∈ active, ∃ garbage code results, event = .reaped a.child (some a.data) ∧
        (jobs a.job).ending = .exited code ∧
        sub.jobFinishedParentCode garbage (endChild (jobs a.job) a.child w).read a.data w.results =
          .ok results ∧
        w'.results = results ∧ w'.id = w.id ∧ Orderly limit total (trace ++ [event]) w' (active.erase a) := by
  generalize target : Except.ok w' = result at step
  cases step with
  | fork pid rd wr more room newPid newRd newWr apart =>
    obtain rfl := Except.ok.inj target
    have next := fork_orderly limit total few trace w active orderly pid rd wr more room newPid newRd newWr apart
    have upTo := orderly.upTo
    exact .inl ⟨pid,rd,wr,rfl,rfl,rfl,forkJob_id pid rd wr w (by omega),next⟩
  | wait child garbage blocks member =>
    obtain ⟨a,inside,rfl⟩ := orderly.shape.of_child _ _ child member
    have found := orderly.shape.find_record w active a inside
    have found : w.activeJobs.find? (·.childPID == a.child.pid) = some a.data := found
    rw [found]
    cases how : (jobs a.child.job).ending with
    | signaled signal core =>
      rw [how,waitForJob_signaled] at target
      simp at target
    | exited code =>
      have reap := waitForJob_exited sub garbage w active orderly.shape a inside (jobs a.job) code how
      rw [show waitForJob sub garbage a.child.pid (jobs a.child.job).ending.status
        (endChild (jobs a.child.job) a.child w) = _ from reap] at target
      cases taken : sub.jobFinishedParentCode garbage (endChild (jobs a.job) a.child w).read a.data w.results with
      | error e => rw [taken] at target; simp [Except.map] at target
      | ok results =>
        rw [taken] at target
        obtain rfl : w' = reaped (jobs a.job) a results w := by simpa [Except.map] using target
        exact .inr ⟨a,inside,garbage,code,results,rfl,how,taken,rfl,rfl,
          reap_orderly limit total trace w active orderly a inside (jobs a.job) results⟩

def Moves (sub : Subclass G R S) (jobs : Nat → JobEnd R) (limit total : Nat) (w : World R S) (event : Event)
    (w' : World R S) : Prop :=
  Step sub jobs limit total w event (.ok w')

theorem run_orderly (sub : Subclass G R S) (jobs : Nat → JobEnd R) (limit total : Nat) (few : total < 2^32)
    (results : S) (trace : List Event) (w : World R S)
    (run : Run (Moves sub jobs limit total) {results} trace w) :
    ∃ active, Orderly limit total trace w active := by
  refine Run.invariant (fun trace w => ∃ active, Orderly limit total trace w active)
    ⟨[],start_orderly limit total results⟩ ?_ run
  rintro trace w event w' ⟨active,orderly⟩ step
  rcases Step.cases_ok sub jobs limit total few trace w w' active event orderly step with
    ⟨_,_,_,_,_,_,_,next⟩ | ⟨_,_,_,_,_,_,_,_,_,_,next⟩
  · exact ⟨_,next⟩
  · exact ⟨_,next⟩

theorem Orderly.job_lt {limit total : Nat} {trace : List Event} {w : World R S} {active : List Active}
    (orderly : Orderly limit total trace w active) (a : Active) (member : a ∈ active) : a.job < total := by
  have inside : a.job ∈ List.range w.id :=
    orderly.once.mem_iff.mp (List.mem_append_right _ (List.mem_map_of_mem member))
  exact (List.mem_range.mp inside).trans_le orderly.upTo

theorem Orderly.steps_le {limit total : Nat} {trace : List Event} {w : World R S} {active : List Active}
    (orderly : Orderly limit total trace w active) : trace.length ≤ 2 * total := by
  have split : ∀ events : List Event,
      events.length = (events.filterMap forkedId).length + (doneJobs events).length := by
    intro events
    induction events with
    | nil => rfl
    | cons event events ih =>
      cases event with
      | forked id pid =>
        rw [doneJobs,List.filterMap_cons_some (f := forkedId) (b := id) rfl,
          List.filterMap_cons_none (f := reapedJob) rfl,List.length_cons,List.length_cons,ih,doneJobs]
        omega
      | reaped child record =>
        rw [doneJobs,List.filterMap_cons_none (f := forkedId) rfl,
          List.filterMap_cons_some (f := reapedJob) (b := child.job) rfl,List.length_cons,List.length_cons,
          ih,doneJobs]
        omega
  have forks := congrArg List.length orderly.inOrder
  have sizes := orderly.once.length_eq
  simp only [List.length_range,List.length_append] at forks sizes
  have upTo := orderly.upTo
  rw [split trace]
  omega

theorem Orderly.finished {limit total : Nat} {trace : List Event} {w : World R S} {active : List Active}
    (orderly : Orderly limit total trace w active) (ended : Finished total w) :
    w.activeJobs = [] ∧ w.fds = [] ∧ w.children = [] ∧ (doneJobs trace).Perm (List.range total) := by
  obtain ⟨all,none⟩ := ended
  rw [orderly.shape.records,List.length_map,List.length_eq_zero_iff] at none
  subst none
  have once := orderly.once
  rw [all,List.map_nil,List.append_nil] at once
  exact ⟨orderly.shape.records,orderly.shape.fds,orderly.shape.children,once⟩

theorem Orderly.progress {limit total : Nat} {trace : List Event} {w : World R S} {active : List Active}
    (sub : Subclass G R S) (jobs : Nat → JobEnd R) (orderly : Orderly limit total trace w active)
    (one : 1 ≤ limit) (garbage : G) (going : ¬ Finished total w) :
    (w.id ≠ total ∧ ∃ pid rd wr, Step sub jobs limit total w (.forked w.id pid) (.ok (forkJob pid rd wr w))) ∨
      ∃ a ∈ active, Step sub jobs limit total w (.reaped a.child (some a.data))
        (waitForJob sub garbage a.pid (jobs a.job).ending.status (endChild (jobs a.job) a.child w)) := by
  by_cases blocks : Blocks limit total w
  · have occupied : 0 < w.activeJobs.length := by
      unfold Blocks at blocks
      split at blocks <;> omega
    rw [orderly.shape.records,List.length_map] at occupied
    obtain ⟨a,member⟩ := List.exists_mem_of_length_pos occupied
    have left : a.child ∈ w.children := by
      rw [orderly.shape.children]
      exact List.mem_map_of_mem member
    have waits : Step sub jobs limit total w _ _ := .wait w a.child garbage blocks left
    have found : w.activeJobs.find? (·.childPID == a.child.pid) = some a.data :=
      orderly.shape.find_record w active a member
    rw [found] at waits
    exact .inr ⟨a,member,waits⟩
  · have more : w.id ≠ total := by
      intro all
      rw [Blocks,if_pos all] at blocks
      exact going ⟨all,by omega⟩
    rw [Blocks,if_neg more] at blocks
    obtain ⟨pid,newPid⟩ := Infinite.exists_notMem_finset (w.children.map (·.pid)).toFinset
    obtain ⟨rd,newRd⟩ := Infinite.exists_notMem_finset (w.fds.map (·.1)).toFinset
    obtain ⟨wr,newWr⟩ := Infinite.exists_notMem_finset (insert rd (w.fds.map (·.1)).toFinset)
    rw [List.mem_toFinset] at newPid newRd
    rw [Finset.mem_insert,not_or,List.mem_toFinset] at newWr
    exact .inl ⟨more,pid,rd,wr,.fork w pid rd wr more blocks newPid newRd newWr.2 fun same => newWr.1 same.symm⟩

/-- What the records add up to: `absorb` is the effect of one job on the results. -/
def Takes (sub : Subclass G R S) (jobs : Nat → JobEnd R) (total : Nat) (absorb : Nat → S → S) : Prop :=
  ∀ job < total, (∃ code, (jobs job).ending = .exited code) ∧
    ∀ garbage read data results, read data.pipe.1 = .ok (jobs job).wrote → data.id = toInt job →
      sub.jobFinishedParentCode garbage read data results = .ok (absorb job results)

def Absorbs (sub : Subclass G R S) (jobs : Nat → JobEnd R) (total : Nat) (absorb : Nat → S → S) : Prop :=
  ∀ job < total, ∀ garbage read data results taken, read data.pipe.1 = .ok (jobs job).wrote → data.id = toInt job →
    sub.jobFinishedParentCode garbage read data results = .ok taken → taken = absorb job results

theorem Takes.absorbs {sub : Subclass G R S} {jobs : Nat → JobEnd R} {total : Nat} {absorb : Nat → S → S}
    (takes : Takes sub jobs total absorb) : Absorbs sub jobs total absorb := by
  intro job low garbage read data results taken delivered same finished
  have effect := (takes job low).2 garbage read data results delivered same
  exact Except.ok.inj (finished.symm.trans effect)

theorem run_results (sub : Subclass G R S) (jobs : Nat → JobEnd R) (limit total : Nat) (few : total < 2^32)
    (absorb : Nat → S → S) (absorbs : Absorbs sub jobs total absorb) (results : S) (trace : List Event)
    (w : World R S) (run : Run (Moves sub jobs limit total) {results} trace w) :
    w.results = (doneJobs trace).foldl (fun sum job => absorb job sum) results := by
  have both : (∃ active, Orderly limit total trace w active) ∧
      w.results = (doneJobs trace).foldl (fun sum job => absorb job sum) results := by
    refine Run.invariant (fun trace w => (∃ active, Orderly limit total trace w active) ∧
      w.results = (doneJobs trace).foldl (fun sum job => absorb job sum) results)
      ⟨⟨[],start_orderly limit total results⟩,rfl⟩ ?_ run
    rintro trace w event w' ⟨⟨active,orderly⟩,same⟩ step
    rcases Step.cases_ok sub jobs limit total few trace w w' active event orderly step with
      ⟨_,_,_,rfl,_,kept,_,next⟩ | ⟨a,member,garbage,_,taken,rfl,_,finished,became,_,next⟩
    · refine ⟨⟨_,next⟩,?_⟩
      rw [kept,same,doneJobs_forked]
    · refine ⟨⟨_,next⟩,?_⟩
      have record := orderly.shape.read_ended w active a member (jobs a.job)
      obtain rfl : taken = absorb a.job w.results :=
        absorbs a.job (orderly.job_lt a member) garbage _ a.data w.results taken record rfl finished
      rw [became,same,doneJobs_reaped,List.foldl_append]
      rfl
  exact both.2

theorem steps_succeed (sub : Subclass G R S) (jobs : Nat → JobEnd R) (limit total : Nat)
    (absorb : Nat → S → S) (takes : Takes sub jobs total absorb) (trace : List Event) (w : World R S)
    (active : List Active) (orderly : Orderly limit total trace w active) (event : Event)
    (result : Except Halt (World R S)) (step : Step sub jobs limit total w event result) :
    ∃ w', result = .ok w' := by
  cases step with
  | fork pid rd wr more room newPid newRd newWr apart => exact ⟨_,rfl⟩
  | wait child garbage blocks member =>
    obtain ⟨a,inside,rfl⟩ := orderly.shape.of_child _ _ child member
    obtain ⟨⟨code,exited⟩,effect⟩ := takes a.job (orderly.job_lt a inside)
    have record := orderly.shape.read_ended w active a inside (jobs a.job)
    refine ⟨reaped (jobs a.job) a (absorb a.job w.results) w,?_⟩
    refine (waitForJob_exited sub garbage w active orderly.shape a inside (jobs a.job) code exited).trans ?_
    rw [effect garbage _ a.data w.results record rfl]
    rfl

end Zofi.Scheduler
