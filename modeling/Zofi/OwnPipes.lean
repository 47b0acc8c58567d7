import Zofi.Campaign
import Zofi.Semantics.Families

/-! A job's pipe is held open by its own family alone: whatever the processes of the other
jobs do, they cannot keep the scheduler waiting for its record. -/
namespace Zofi.OwnPipes
open Transitions Model.Utils Model.WaitStatus Model.Outcomes Model.Threads Scheduler Campaign Semantics.Families

variable {G R S : Type}

theorem holds_iff (p : Process) (number : Nat) : p.holds number = true ↔ ∃ fd, (fd,.writeEnd number) ∈ p.fds := by
  simp only [Process.holds,List.any_eq_true,beq_iff_eq,Prod.exists]
  constructor
  · rintro ⟨fd,_,member,rfl⟩
    exact ⟨fd,member⟩
  · rintro ⟨fd,member⟩
    exact ⟨fd,_,member,rfl⟩

theorem writable_iff (processes : List Process) (number : Nat) :
    writable processes number = true ↔ ∃ p ∈ processes, p.holds number = true := by
  rw [writable,List.any_eq_true]

/-- No process holds the write end of a pipe that is not its family's own. -/
structure Private (h : Host R S) : Prop where
  own : ∀ p ∈ h.processes, ∀ number, p.holds number = true → number = p.pipe
  older : ∀ p ∈ h.processes, p.pipe < h.world.pipes.length
  family : ∀ p ∈ h.processes, ∀ child ∈ h.world.children, p.pipe = child.pipe → p.job = child.job

def Inherits (before after : List Process) : Prop :=
  ∀ p ∈ after, ∃ parent ∈ before, p.job = parent.job ∧ p.pipe = parent.pipe ∧
    ∀ number, p.holds number = true → parent.holds number = true

theorem Inherits.keeps {before after : List Process} (inherits : Inherits before after) {w : World R S}
    (holds : Private (⟨w,before⟩ : Host R S)) : Private (⟨w,after⟩ : Host R S) := by
  refine ⟨?_,?_,?_⟩
  · intro p member number held
    obtain ⟨parent,old,_,same,had⟩ := inherits p member
    rw [same]
    exact holds.own parent old number (had number held)
  · intro p member
    obtain ⟨parent,old,_,same,_⟩ := inherits p member
    rw [same]
    exact holds.older parent old
  · intro p member child left equal
    obtain ⟨parent,old,job,same,_⟩ := inherits p member
    rw [job]
    exact holds.family parent old child left (same.symm.trans equal)

theorem inherits_change (before after : List Process) (p q : Process) (job : q.job = p.job) (pipe : q.pipe = p.pipe)
    (fewer : ∀ fd number, (fd,.writeEnd number) ∈ q.fds → ∃ fd, (fd,.writeEnd number) ∈ p.fds) :
    Inherits (before ++ p :: after) (before ++ q :: after) := by
  intro other member
  rcases List.mem_append.mp member with left | right
  · exact ⟨other,List.mem_append_left _ left,rfl,rfl,fun _ held => held⟩
  · rcases List.mem_cons.mp right with rfl | right
    · refine ⟨p,by simp,job,pipe,fun number held => ?_⟩
      obtain ⟨fd,open'⟩ := (holds_iff _ _).mp held
      exact (holds_iff _ _).mpr (fewer fd number open')
    · exact ⟨other,by simp [right],rfl,rfl,fun _ held => held⟩

theorem inherits_fewer (before after : List Process) (fewer : ∀ p ∈ after, p ∈ before) : Inherits before after :=
  fun p member => ⟨p,fewer p member,rfl,rfl,fun _ held => held⟩

/-! The loop's own steps, whoever else holds the pipe of a job that is reaped. -/

theorem waitForJob_taken (sub : Subclass G R S) (garbage : G) (pid : Nat) (code : Fin 256) (w : World R S)
    (data : JobData) (found : w.activeJobs.find? (·.childPID == pid) = some data) :
    waitForJob sub garbage pid (Ending.exited code).status w =
      (sub.jobFinishedParentCode garbage w.read data w.results).map fun results => {w with
        results
        fds := Model.Threads.close w.fds data.pipe.1
        activeJobs := w.activeJobs.eraseP (·.childPID == pid)} := by
  have status := exited_status code
  have normally : wIfExited (Ending.exited code).status = true := by
    unfold getWaitPidExitState at status
    split at status
    · assumption
    · split at status
      · simp at status
      · split at status <;> simp at status
  rw [waitForJob,status,normally]
  simp only [assert,if_true,bind,Except.bind,pure,Except.pure,found]
  rfl

theorem read_reaped (w : World R S) (active : List Active) (shape : Shape w active) (a : Active)
    (member : a ∈ active) (job : JobEnd R) (held : Bool) :
    (reapChild job a.child held w).read a.rd =
      match job.wrote with
      | some record => .ok (some record)
      | none => if held then .error .waiting else .ok none := by
  have entry : w.fds.lookup a.rd = some (.readEnd a.pipe) := by
    rw [shape.fds]
    exact Keyed.lookup_key Active.rd (fun a => PipeEnd.readEnd a.pipe) active a member
      (Keyed.unique_of_nodup shape.rds member)
  have content : (reapChild job a.child held w).pipes[a.pipe]? = some ⟨job.wrote,held⟩ := by
    simp [reapChild,Active.child,shape.unread a member]
  have same : (reapChild job a.child held w).fds = w.fds := rfl
  cases wrote : job.wrote with
  | some record => simp [World.read,same,entry,content,wrote]
  | none => cases held <;> simp [World.read,same,entry,content,wrote]

def reapedHeld (job : JobEnd R) (a : Active) (held : Bool) (results : S) (w : World R S) : World R S :=
  {reaped job a results w with pipes := w.pipes.modify a.pipe fun pipe => ⟨pipe.content.or job.wrote,held⟩}

theorem reapedHeld_shape (w : World R S) (active : List Active) (shape : Shape w active) (a : Active)
    (member : a ∈ active) (job : JobEnd R) (held : Bool) (results : S) :
    Shape (reapedHeld job a held results w) (active.erase a) := by
  obtain ⟨records,children,fds,pids,rds,numbers,_⟩ := reaped_shape w active shape a member job results
  refine ⟨records,children,fds,pids,rds,numbers,?_⟩
  intro b rest
  have distinct : active.Nodup := shape.pids.of_map _
  obtain ⟨different,inside⟩ := (List.Nodup.mem_erase_iff distinct).mp rest
  have apart : a.pipe ≠ b.pipe := fun same =>
    different (Keyed.unique_of_nodup shape.numbers member b inside same.symm)
  simp only [reapedHeld,List.getElem?_modify,if_neg apart,shape.unread b inside]
  rfl

theorem waitForJob_held (sub : Subclass G R S) (garbage : G) (w : World R S) (active : List Active)
    (shape : Shape w active) (a : Active) (member : a ∈ active) (job : JobEnd R) (held : Bool) (code : Fin 256) :
    waitForJob sub garbage a.pid (Ending.exited code).status (reapChild job a.child held w) =
      (sub.jobFinishedParentCode garbage (reapChild job a.child held w).read a.data w.results).map
        fun results => reapedHeld job a held results w := by
  have found : (reapChild job a.child held w).activeJobs.find? (·.childPID == a.pid) = some a.data :=
    shape.find_record w active a member
  rw [waitForJob_taken sub garbage a.pid code _ a.data found]
  rfl

theorem reapedHeld_orderly (limit total : Nat) (trace : List Event) (w : World R S) (active : List Active)
    (orderly : Orderly limit total trace w active) (a : Active) (member : a ∈ active) (job : JobEnd R) (held : Bool)
    (results : S) :
    Orderly limit total (trace ++ [.reaped a.child (some a.data)]) (reapedHeld job a held results w) (active.erase a) := by
  have next := reap_orderly limit total trace w active orderly a member job results
  exact {
    next with shape := reapedHeld_shape w active orderly.shape a member job held results }

theorem private_fork (w : World R S) (active : List Active) (shape : Shape w active) (processes : List Process)
    (holds : Private (⟨w,processes⟩ : Host R S)) (pid rd wr : Nat) :
    Private (⟨forkJob pid rd wr w,processes ++ [jobProcess pid rd wr w]⟩ : Host R S) := by
  have pipes : (forkJob pid rd wr w).pipes.length = w.pipes.length + 1 := by simp [forkJob]
  have children : (forkJob pid rd wr w).children = w.children ++ [⟨pid,w.id,w.pipes.length⟩] := rfl
  have bound : ∀ child ∈ w.children, child.pipe < w.pipes.length := by
    intro child member
    obtain ⟨a,inside,rfl⟩ := shape.of_child w active child member
    exact (List.getElem?_eq_some_iff.mp (shape.unread a inside)).1
  refine ⟨?_,?_,?_⟩
  · intro p member number held
    rcases List.mem_append.mp member with old | new
    · exact holds.own p old number held
    · rw [List.mem_singleton.mp new] at held ⊢
      -- the inherited table holds the read ends of the other jobs, but no write end of theirs
      obtain ⟨fd,open'⟩ := (holds_iff _ _).mp held
      have open' : (fd,PipeEnd.writeEnd number) ∈ w.fds ++ [(rd,.readEnd w.pipes.length),(wr,.writeEnd w.pipes.length)] :=
        open'
      rw [shape.fds,List.mem_append] at open'
      rcases open' with others | own
      · obtain ⟨a,_,same⟩ := List.mem_map.mp others
        simp [Active.fd] at same
      · simp only [List.mem_cons,Prod.mk.injEq,reduceCtorEq,and_false,PipeEnd.writeEnd.injEq,List.not_mem_nil,
          or_false,false_or] at own
        exact own.2
  · intro p member
    change p.pipe < (forkJob pid rd wr w).pipes.length
    rw [pipes]
    rcases List.mem_append.mp member with old | new
    · exact Nat.lt_succ_of_lt (holds.older p old)
    · rw [List.mem_singleton.mp new]
      exact Nat.lt_succ_self _
  · intro p member child left equal
    have left : child ∈ w.children ++ [⟨pid,w.id,w.pipes.length⟩] := left
    rcases List.mem_append.mp member with old | new <;> rcases List.mem_append.mp left with before | fresh
    · exact holds.family p old child before equal
    · rw [List.mem_singleton.mp fresh] at equal
      exact absurd (holds.older p old) (by rw [equal]; exact lt_irrefl _)
    · rw [List.mem_singleton.mp new] at equal
      exact absurd (bound child before) (by rw [← equal]; exact lt_irrefl _)
    · rw [List.mem_singleton.mp new,List.mem_singleton.mp fresh]
      rfl

theorem private_reaped (w : World R S) (processes : List Process) (holds : Private (⟨w,processes⟩ : Host R S))
    (job : JobEnd R) (a : Active) (held : Bool) (results : S) :
    Private (⟨reapedHeld job a held results w,processes⟩ : Host R S) where
  own := holds.own
  older p member := by
    change p.pipe < (w.pipes.modify a.pipe _).length
    rw [List.length_modify]
    exact holds.older p member
  family p member child left := holds.family p member child (List.mem_of_mem_eraseP left)

def loopTrace (trace : List (Option Event)) : List Event := trace.filterMap id

theorem loopTrace_loop (trace : List (Option Event)) (event : Event) :
    loopTrace (trace ++ [some event]) = loopTrace trace ++ [event] := by
  rw [loopTrace,List.filterMap_append]
  rfl

theorem loopTrace_process (trace : List (Option Event)) : loopTrace (trace ++ [none]) = loopTrace trace := by
  rw [loopTrace,List.filterMap_append]
  exact List.append_nil _

structure CanFork (limit total : Nat) (w : World R S) (pid rd wr : Nat) : Prop where
  more : w.id ≠ total
  room : w.activeJobs.length ≠ limit
  newPid : pid ∉ w.children.map (·.pid)
  newRd : rd ∉ w.fds.map (·.1)
  newWr : wr ∉ w.fds.map (·.1)
  apart : rd ≠ wr

theorem CanFork.moves {limit total : Nat} {w : World R S} {pid rd wr : Nat} (can : CanFork limit total w pid rd wr)
    (sub : Subclass G R S) (jobs : Nat → JobEnd R) :
    Moves sub jobs limit total w (.forked w.id pid) (forkJob pid rd wr w) :=
  .fork w pid rd wr can.more can.room can.newPid can.newRd can.newWr can.apart

theorem hostMoves_cases (sub : Subclass G R S) (jobs : Nat → JobEnd R) (limit total : Nat) (h h' : Host R S)
    (active : List Active) (shape : Shape h.world active) (event : Option Event)
    (move : HostMoves sub jobs limit total h event h') :
    (∃ pid rd wr, event = some (.forked h.world.id pid) ∧ CanFork limit total h.world pid rd wr ∧
        h' = ⟨forkJob pid rd wr h.world,h.processes ++ [jobProcess pid rd wr h.world]⟩) ∨
      (∃ a ∈ active, ∃ garbage code results, event = some (.reaped a.child (some a.data)) ∧
        Blocks limit total h.world ∧ (jobs a.job).ending = .exited code ∧
        sub.jobFinishedParentCode garbage (reapChild (jobs a.job) a.child (writable h.processes a.pipe) h.world).read
          a.data h.world.results = .ok results ∧
        h' = ⟨reapedHeld (jobs a.job) a (writable h.processes a.pipe) results h.world,h.processes⟩) ∨
      event = none ∧ h'.world = h.world ∧ Inherits h.processes h'.processes := by
  unfold HostMoves at move
  generalize target : Except.ok h' = result at move
  cases move with
  | fork pid rd wr more room newPid newRd newWr apart unused =>
    exact .inl ⟨pid,rd,wr,rfl,⟨more,room,newPid,newRd,newWr,apart⟩,Except.ok.inj target⟩
  | wait child garbage blocks member ended =>
    obtain ⟨a,inside,rfl⟩ := shape.of_child _ _ child member
    have found : h.world.activeJobs.find? (·.childPID == a.child.pid) = some a.data := shape.find_record h.world active a inside
    rw [found]
    cases how : (jobs a.child.job).ending with
    | signaled signal core =>
      rw [how,waitForJob_signaled] at target
      simp [Except.map] at target
    | exited code =>
      have reap : waitForJob sub garbage a.child.pid (Ending.exited code).status
          (reapChild (jobs a.child.job) a.child (writable h.processes a.child.pipe) h.world) = _ :=
        waitForJob_held sub garbage h.world active shape a inside (jobs a.job) (writable h.processes a.pipe) code
      rw [how,reap] at target
      cases taken : sub.jobFinishedParentCode garbage
          (reapChild (jobs a.job) a.child (writable h.processes a.pipe) h.world).read a.data h.world.results with
      | error e => rw [taken] at target; simp [Except.map] at target
      | ok results =>
        rw [taken] at target
        exact .inr (.inl ⟨a,inside,garbage,code,results,rfl,blocks,how,taken,by simpa [Except.map] using target⟩)
  | spawn p member pid newPid unused =>
    obtain rfl := Except.ok.inj target
    refine .inr (.inr ⟨rfl,rfl,fun q new => ?_⟩)
    rcases List.mem_append.mp new with old | copy
    · exact ⟨q,old,rfl,rfl,fun _ held => held⟩
    · rw [List.mem_singleton.mp copy]
      exact ⟨p,member,rfl,rfl,fun _ held => held⟩
  | dup before after p split fd new pipeEnd opened =>
    obtain rfl := Except.ok.inj target
    refine .inr (.inr ⟨rfl,rfl,?_⟩)
    rw [split]
    refine inherits_change before after p _ rfl rfl fun other number member => ?_
    rcases List.mem_cons.mp member with same | rest
    · obtain ⟨rfl,rfl⟩ := Prod.mk.inj same
      exact ⟨fd,opened⟩
    · exact ⟨other,List.mem_of_mem_eraseP rest⟩
  | close before after p split fd =>
    obtain rfl := Except.ok.inj target
    refine .inr (.inr ⟨rfl,rfl,?_⟩)
    rw [split]
    exact inherits_change before after p _ rfl rfl fun other number member => ⟨other,List.mem_of_mem_eraseP member⟩
  | exit before after p split =>
    obtain rfl := Except.ok.inj target
    refine .inr (.inr ⟨rfl,rfl,inherits_fewer _ _ fun q member => ?_⟩)
    rw [split]
    rcases List.mem_append.mp member with left | right
    · exact List.mem_append_left _ left
    · simp [right]

theorem run_private (sub : Subclass G R S) (jobs : Nat → JobEnd R) (limit total : Nat) (few : total < 2^32) (results : S)
    (trace : List (Option Event)) (h : Host R S)
    (run : Run (HostMoves sub jobs limit total) ⟨{results},[]⟩ trace h) :
    ∃ active, Orderly limit total (loopTrace trace) h.world active ∧ Private h := by
  refine Run.invariant (fun trace (h : Host R S) => ∃ active, Orderly limit total (loopTrace trace) h.world active ∧
    Private h) ?_ ?_ run
  · exact ⟨[],start_orderly limit total results,⟨by simp,by simp,by simp⟩⟩
  rintro trace h event h' ⟨active,orderly,holds⟩ move
  rcases hostMoves_cases sub jobs limit total h h' active orderly.shape event move with
    ⟨pid,rd,wr,rfl,can,rfl⟩ | ⟨a,member,_,_,results,rfl,_,_,_,rfl⟩ | ⟨rfl,same,inherits⟩
  · rw [loopTrace_loop]
    exact ⟨_,fork_orderly limit total few _ h.world active orderly pid rd wr can.more can.room can.newPid can.newRd
      can.newWr can.apart,private_fork h.world active orderly.shape h.processes holds pid rd wr⟩
  · rw [loopTrace_loop]
    exact ⟨_,reapedHeld_orderly limit total _ h.world active orderly a member _ _ results,
      private_reaped h.world h.processes holds _ a _ results⟩
  · rw [loopTrace_process,same]
    refine ⟨active,orderly,?_⟩
    have kept : Private (⟨h.world,h'.processes⟩ : Host R S) := inherits.keeps holds
    rw [← same] at kept
    exact kept

/-! The loop alone, in which a pipe closes with its job, makes the same moves. -/

/-- The loop's state but for who still holds the pipes. -/
structure SameLoop (w v : World R S) : Prop where
  loop : w = {v with pipes := w.pipes}
  made : w.pipes.length = v.pipes.length

theorem SameLoop.activeJobs {w v : World R S} (same : SameLoop w v) : w.activeJobs = v.activeJobs := by rw [same.loop]
theorem SameLoop.children {w v : World R S} (same : SameLoop w v) : w.children = v.children := by rw [same.loop]
theorem SameLoop.fds {w v : World R S} (same : SameLoop w v) : w.fds = v.fds := by rw [same.loop]
theorem SameLoop.id {w v : World R S} (same : SameLoop w v) : w.id = v.id := by rw [same.loop]
theorem SameLoop.results {w v : World R S} (same : SameLoop w v) : w.results = v.results := by rw [same.loop]

theorem SameLoop.canFork {w v : World R S} (same : SameLoop w v) {limit total pid rd wr : Nat}
    (can : CanFork limit total v pid rd wr) : CanFork limit total w pid rd wr := by
  obtain ⟨more,room,newPid,newRd,newWr,apart⟩ := can
  rw [← same.id] at more
  rw [← same.activeJobs] at room
  rw [← same.children] at newPid
  rw [← same.fds] at newRd newWr
  exact ⟨more,room,newPid,newRd,newWr,apart⟩

theorem SameLoop.blocks {w v : World R S} (same : SameLoop w v) {limit total : Nat} (blocks : Blocks limit total v) :
    Blocks limit total w := by
  rw [Blocks,same.id,same.activeJobs]
  exact blocks

theorem forkJob_same {w v : World R S} (same : SameLoop w v) (pid rd wr : Nat) :
    SameLoop (forkJob pid rd wr w) (forkJob pid rd wr v) := by
  obtain ⟨loop,made⟩ := same
  refine ⟨?_,by simp [forkJob,made]⟩
  rw [loop]
  simp only [forkJob,made]

theorem reaped_same {w v : World R S} (same : SameLoop w v) (job : JobEnd R) (a : Active) (held : Bool) (results : S) :
    SameLoop (reaped job a results w) (reapedHeld job a held results v) := by
  obtain ⟨loop,made⟩ := same
  refine ⟨?_,by simp [reaped,reapedHeld,endChild,made]⟩
  rw [loop]
  rfl

theorem SameLoop.active {w v : World R S} (same : SameLoop w v) {own active : List Active} (one : Shape w own)
    (two : Shape v active) (a : Active) (member : a ∈ active) : a ∈ own := by
  have left : a.child ∈ w.children := by
    rw [same.children,two.children]
    exact List.mem_map_of_mem member
  obtain ⟨b,inside,child⟩ := one.of_child w own a.child left
  have pid : a.pid = b.pid := congrArg Child.pid child
  have record := one.find_record w own b inside
  rw [same.activeJobs,← pid,two.find_record v active a member] at record
  have equal : b = a := by
    obtain ⟨_,_,_,_,_⟩ := a
    obtain ⟨_,_,_,_,_⟩ := b
    simp_all [Active.child,Active.data]
  exact equal ▸ inside

theorem test_taken (garbage : Option FtStatus) (read : Nat → Except Halt (Option FtStatus)) (data : JobData)
    (stats results : Statistics)
    (taken : testJobScheduler.jobFinishedParentCode garbage read data stats = .ok results) :
    ∃ record, read data.pipe.1 = .ok record := by
  cases got : read data.pipe.1 with
  | ok record => exact ⟨record,rfl⟩
  | error e =>
    simp only [testJobScheduler,got,bind,Except.bind] at taken
    cases taken

theorem test_same (garbage : Option FtStatus) (one two : Nat → Except Halt (Option FtStatus)) (data : JobData)
    (stats : Statistics) (same : one data.pipe.1 = two data.pipe.1) :
    testJobScheduler.jobFinishedParentCode garbage one data stats =
      testJobScheduler.jobFinishedParentCode garbage two data stats := by
  simp only [testJobScheduler,same]

theorem run_refines (jobs : Nat → JobEnd FtStatus) (limit total : Nat) (few : total < 2^32) (stats : Statistics)
    (trace : List (Option Event)) (h : Host FtStatus Statistics)
    (run : Run (HostMoves testJobScheduler jobs limit total) ⟨{results := stats},[]⟩ trace h) :
    ∃ w, Run (Moves testJobScheduler jobs limit total) {results := stats} (loopTrace trace) w ∧ SameLoop w h.world := by
  induction run with
  | nil => exact ⟨_,.nil,rfl,rfl⟩
  | snoc trace h event h' run move ih =>
    obtain ⟨w,steps,same⟩ := ih
    obtain ⟨active,orderly,_⟩ := run_private testJobScheduler jobs limit total few stats trace h run
    obtain ⟨own,kept⟩ := run_orderly testJobScheduler jobs limit total few stats _ w steps
    rcases hostMoves_cases testJobScheduler jobs limit total h h' active orderly.shape event move with
      ⟨pid,rd,wr,rfl,can,rfl⟩ | ⟨a,member,garbage,code,results,rfl,blocks,how,taken,rfl⟩ | ⟨rfl,unchanged,_⟩
    · have can := same.canFork can
      refine ⟨_,?_,forkJob_same same pid rd wr⟩
      rw [loopTrace_loop,← same.id]
      exact .snoc _ _ _ _ steps (can.moves testJobScheduler jobs)
    · have inside := same.active kept.shape orderly.shape a member
      obtain ⟨record,got⟩ := test_taken _ _ _ _ _ taken
      have got : (reapChild (jobs a.job) a.child (writable h.processes a.pipe) h.world).read a.rd = .ok record := got
      have ended := kept.shape.read_ended w own a inside (jobs a.job)
      have delivered : (reapChild (jobs a.job) a.child (writable h.processes a.pipe) h.world).read a.rd =
          (endChild (jobs a.job) a.child w).read a.rd := by
        rw [read_reaped h.world active orderly.shape a member] at got ⊢
        rw [ended]
        cases wrote : (jobs a.job).wrote with
        | some record => rfl
        | none =>
          simp only [wrote] at got ⊢
          split at got <;> simp_all
      rw [test_same garbage _ _ a.data _ delivered,← same.results] at taken
      have step : Step testJobScheduler jobs limit total w _ _ := .wait w a.child garbage (same.blocks blocks) (by
        rw [kept.shape.children]
        exact List.mem_map_of_mem inside)
      have found : w.activeJobs.find? (·.childPID == a.child.pid) = some a.data := kept.shape.find_record w own a inside
      have reap : waitForJob testJobScheduler garbage a.child.pid (jobs a.child.job).ending.status
          (endChild (jobs a.child.job) a.child w) = .ok (reaped (jobs a.job) a results w) := by
        refine (waitForJob_exited testJobScheduler garbage w own kept.shape a inside (jobs a.job) code how).trans ?_
        rw [taken]
        rfl
      rw [found,reap] at step
      rw [loopTrace_loop]
      exact ⟨_,.snoc _ _ _ _ steps step,reaped_same same _ a _ results⟩
    · rw [loopTrace_process,unchanged]
      exact ⟨w,steps,same⟩

theorem counted_not_waiting (stats : Statistics) (status : Option FtStatus) :
    incrStatsCounter stats status ≠ .error .waiting := by
  cases status with
  | none => simp [incrStatsCounter]
  | some outcome => cases outcome <;> simp [incrStatsCounter,counterOf,Statistics.incr,isCounter]

/-- Reading the record of a job that has ended blocks exactly if it wrote none and a process
of its own family still holds its pipe. -/
theorem wait_waits_iff (jobs : Nat → JobEnd FtStatus) (limit total : Nat) (h : Host FtStatus Statistics)
    (active : List Active) (shape : Shape h.world active) (holds : Private h) (child : Child) (record : Option JobData)
    (result : Except Halt (Host FtStatus Statistics))
    (step : HostStep testJobScheduler jobs limit total h (some (.reaped child record)) result) (code : Fin 256)
    (exited : (jobs child.job).ending = .exited code) :
    result = .error .waiting ↔
      (jobs child.job).wrote = none ∧ ∃ p ∈ h.processes, p.job = child.job ∧ p.holds child.pipe = true := by
  have family : writable h.processes child.pipe = true ↔ ∃ p ∈ h.processes, p.job = child.job ∧ p.holds child.pipe = true := by
    rw [writable_iff]
    cases step with
    | wait _ garbage blocks member ended =>
      constructor
      · rintro ⟨p,inside,held⟩
        exact ⟨p,inside,holds.family p inside child member (holds.own p inside _ held).symm,held⟩
      · rintro ⟨p,inside,_,held⟩
        exact ⟨p,inside,held⟩
  rw [← family]
  cases step with
  | wait _ garbage blocks member ended =>
    obtain ⟨a,inside,rfl⟩ := shape.of_child _ _ child member
    have reap : waitForJob testJobScheduler garbage a.child.pid (Ending.exited code).status
        (reapChild (jobs a.child.job) a.child (writable h.processes a.child.pipe) h.world) = _ :=
      waitForJob_held testJobScheduler garbage h.world active shape a inside (jobs a.job)
        (writable h.processes a.pipe) code
    have read := read_reaped h.world active shape a inside (jobs a.job) (writable h.processes a.pipe)
    rw [exited,reap]
    simp only [testJobScheduler,show a.data.pipe.1 = a.rd from rfl,read,show a.child.job = a.job from rfl,
      show a.child.pipe = a.pipe from rfl]
    cases wrote : (jobs a.job).wrote with
    | some outcome =>
      have counts := counted_not_waiting h.world.results (some outcome)
      cases taken : incrStatsCounter h.world.results (some outcome) with
      | ok results => simp [bind,Except.bind,Except.map,taken]
      | error e =>
        rw [taken] at counts
        simpa [bind,Except.bind,Except.map,taken] using counts
    | none =>
      cases writable h.processes a.pipe with
      | true => simp [bind,Except.bind,Except.map]
      | false =>
        have counts := counted_not_waiting h.world.results garbage
        cases taken : incrStatsCounter h.world.results garbage with
        | ok results => simp [bind,Except.bind,Except.map,taken]
        | error e =>
          rw [taken] at counts
          simpa [bind,Except.bind,Except.map,taken] using counts

/-- Whatever the processes of the jobs fork, duplicate, close and leave behind, the scheduler
makes the moves it makes alone, and it waits for a record only while a process of that same
job holds its pipe without having written one. -/
theorem host_refines (jobs : Nat → JobEnd FtStatus) (limit total : Nat) (few : total < 2^32) (stats : Statistics)
    (trace : List (Option Event)) (h : Host FtStatus Statistics)
    (run : Run (HostMoves testJobScheduler jobs limit total) ⟨{results := stats},[]⟩ trace h) :
    (∃ w, Run (Moves testJobScheduler jobs limit total) {results := stats} (loopTrace trace) w ∧ SameLoop w h.world) ∧
    ∀ child record result code, HostStep testJobScheduler jobs limit total h (some (.reaped child record)) result →
      (jobs child.job).ending = .exited code →
      (result = .error .waiting ↔
        (jobs child.job).wrote = none ∧ ∃ p ∈ h.processes, p.job = child.job ∧ p.holds child.pipe = true) := by
  refine ⟨run_refines jobs limit total few stats trace h run,?_⟩
  intro child record result code step exited
  obtain ⟨active,orderly,holds⟩ := run_private testJobScheduler jobs limit total few stats trace h run
  exact wait_waits_iff jobs limit total h active orderly.shape holds child record result step code exited

def firstJob : Process := jobProcess 7 3 4 ({results := .zero} : World FtStatus Statistics)

def workload : Process := {firstJob with pid := 9}

def left : Host FtStatus Statistics := ⟨oneForked,[workload]⟩

theorem left_reached : Run (HostMoves testJobScheduler (fun _ => gaveUp) 1 1) ⟨{results := .zero},[]⟩
    [some (.forked 0 7),none,none] left := by
  have forks : HostMoves testJobScheduler (fun _ => gaveUp) 1 1 ⟨{results := .zero},[]⟩ (some (.forked 0 7))
      ⟨oneForked,[firstJob]⟩ :=
    .fork _ 7 3 4 (by decide) (by decide) (by decide) (by decide) (by decide) (by decide) (by decide)
  have spawns : HostMoves testJobScheduler (fun _ => gaveUp) 1 1 ⟨oneForked,[firstJob]⟩ none
      ⟨oneForked,[firstJob,workload]⟩ :=
    .spawn _ firstJob (by simp) 9 (by decide) (by decide)
  have exits : HostMoves testJobScheduler (fun _ => gaveUp) 1 1 ⟨oneForked,[firstJob,workload]⟩ none left :=
    .exit _ [] [workload] firstJob rfl
  exact .snoc _ _ _ _ (.snoc _ _ _ _ (.snoc _ _ _ _ .nil forks) spawns) exits

/-- A job that gave up without a record keeps the scheduler waiting while its workload goes on. -/
theorem workload_delays : ∃ child record,
    HostStep testJobScheduler (fun _ => gaveUp) 1 1 left (some (.reaped child record)) (.error .waiting) := by
  have waits : HostStep testJobScheduler (fun _ => gaveUp) 1 1 left _ _ :=
    .wait left oneJob.child none (by simp [Blocks,left,oneForked,forkJob,setBackPID]) (by decide) (by decide)
  have delays := ((host_refines (fun _ => gaveUp) 1 1 (by decide) .zero _ left left_reached).2 _ _ _ exitFailure waits
    rfl).mpr ⟨rfl,workload,by simp [left],rfl,by decide⟩
  rw [delays] at waits
  exact ⟨_,_,waits⟩

end Zofi.OwnPipes
