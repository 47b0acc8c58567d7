import Zofi.Lib.Triple
import Zofi.Semantics.Ptrace

/-! What the kernel can do by itself to the threads of the child, and what the calls of the
tool find when they are served. -/
namespace Zofi.KernelMoves
open Sys Schedule Model.Utils Model.WaitStatus Model.Wait Semantics.Ptrace

section
variable (k : Kernel) (t other : Nat) (task : Task)

@[simp] theorem put_same : (k.put t task).task t = some task := Finmap.lookup_insert k.tasks

theorem put_task : (k.put t task).task other = if other = t then some task else k.task other := by
  by_cases same : other = t
  · rw [if_pos same,same,put_same]
  · rw [if_neg same]
    exact Finmap.lookup_insert_of_ne k.tasks same

theorem erase_task : (k.tasks.erase t).lookup other = if other = t then none else k.task other := by
  by_cases same : other = t
  · rw [if_pos same,same]
    exact Finmap.lookup_erase t k.tasks
  · rw [if_neg same]
    exact Finmap.lookup_erase_ne same

end

/-- The thread is neither stopped nor dead, and nothing keeps it from going on. -/
structure Loose (k : Kernel) (t : Nat) : Prop where
  alive : k.killed = none
  going : k.task t = some .running ∨ k.task t = some .stepping ∨ k.task t = some .starting

theorem loose_of_runs (k : Kernel) (t : Nat) (runs : k.runs t = true) : Loose k t := by
  simp only [Kernel.runs,Bool.and_eq_true,Bool.or_eq_true,Option.isNone_iff_eq_none,beq_iff_eq] at runs
  exact ⟨runs.1,runs.2.imp_right .inl⟩

theorem Loose.present {k : Kernel} {t : Nat} (loose : Loose k t) : k.task t ≠ none := by
  obtain ⟨_,running | stepping | starting⟩ := loose <;> simp [*]

theorem Loose.not_stopped {k : Kernel} {t : Nat} (loose : Loose k t) (why : Why) (reported : Bool) :
    k.task t ≠ some (.stopped why reported) := by
  obtain ⟨_,running | stepping | starting⟩ := loose <;> simp [*]

inductive Moved (k : Kernel) : Move → Kernel → Prop
  | idle (move : Move) : Moved k move k
  | stops (move : Move) (t : Nat) (why : Why) (loose : Loose k t) (own : why ≠ .toolTrap) :
      Moved k move (k.put t (.stopped why false))
  | takes (t : Nat) (loose : Loose k t) (pending : k.trapPending = true) :
      Moved k (.takeTrap t) {k.put t (.stopped .toolTrap false) with trapPending := false}
  | clones (t new : Nat) (loose : Loose k t) (fresh : k.task new = none) :
      Moved k (.clone t new) ((k.put new .starting).put t (.stopped (.clone new) false))
  | exits (t : Nat) (code : Fin 256) (loose : Loose k t) : Moved k (.exit t code) (k.put t (.dead (.exited code)))
  | killed (how : Ending) (alive : k.killed = none) : Moved k (.kill how) {k with killed := some how}
  | dies (t : Nat) (how : Ending) (dying : k.killed = some how) (present : k.task t ≠ none) :
      Moved k (.die t) (k.put t (.dead how))

theorem moved_if {k next : Kernel} {move : Move} (enabled : Bool) (does : enabled = true → Moved k move next) :
    Moved k move (if enabled then next else k) := by
  cases enabled with
  | true => exact does rfl
  | false => exact .idle move

theorem move_moved (k : Kernel) (move : Move) : Moved k move (k.move move) := by
  cases move with
  | stop t sig =>
    refine moved_if _ fun enabled => ?_
    rw [Bool.and_eq_true] at enabled
    exact .stops _ t _ (loose_of_runs k t enabled.1) (by simp)
  | takeTrap t =>
    refine moved_if _ fun enabled => ?_
    rw [Bool.and_eq_true] at enabled
    exact .takes t (loose_of_runs k t enabled.1) enabled.2
  | clone t new =>
    refine moved_if _ fun enabled => ?_
    rw [Bool.and_eq_true,Option.isNone_iff_eq_none] at enabled
    exact .clones t new (loose_of_runs k t enabled.1) enabled.2
  | start t =>
    refine moved_if _ fun enabled => ?_
    rw [Bool.and_eq_true,Option.isNone_iff_eq_none,beq_iff_eq] at enabled
    exact .stops _ t _ ⟨enabled.1,.inr (.inr enabled.2)⟩ (by simp)
  | step t =>
    refine moved_if _ fun enabled => ?_
    rw [Bool.and_eq_true,Option.isNone_iff_eq_none,beq_iff_eq] at enabled
    exact .stops _ t _ ⟨enabled.1,.inr (.inl enabled.2)⟩ (by simp)
  | exit t code => exact moved_if _ fun enabled => .exits t code (loose_of_runs k t enabled)
  | kill how => exact moved_if _ fun enabled => .killed how (Option.isNone_iff_eq_none.mp enabled)
  | die t =>
    rw [Kernel.move]
    split
    next how task dying present => exact .dies t how dying (by simp [present])
    next => exact .idle _

theorem put_other (k : Kernel) (t u : Nat) (task target : Task) (fresh : task ≠ target)
    (after : (k.put u task).task t = some target) : k.task t = some target := by
  rw [put_task] at after
  split at after
  · exact absurd (Option.some.inj after) fresh
  · exact after

theorem move_reported (k : Kernel) (move : Move) (t : Nat) (why : Why)
    (after : (k.move move).task t = some (.stopped why true)) : k.task t = some (.stopped why true) := by
  have moved := move_moved k move
  generalize k.move move = next at moved after
  cases moved with
  | idle => exact after
  | killed how alive => exact after
  | stops _ u other loose own => exact put_other k t u _ _ (by simp) after
  | takes u loose pending => exact put_other k t u _ _ (by simp) after
  | clones u new loose fresh =>
    have before := put_other _ t u _ _ (by simp) after
    exact put_other k t new _ _ (by simp) before
  | exits u code loose => exact put_other k t u _ _ (by simp) after
  | dies u how dying present => exact put_other k t u _ _ (by simp) after

/-- The thread is in a reported stop, out of which only the tool can take it. -/
structure Holding (k : Kernel) (t : Nat) (why : Why) : Prop where
  alive : k.killed = none
  stop : k.task t = some (.stopped why true)

theorem Holding.stopped {k : Kernel} {t : Nat} {why : Why} (holding : Holding k t why) : k.stopped t = true := by
  simp [Kernel.stopped,holding.alive,holding.stop]

theorem Holding.put {k : Kernel} {t : Nat} {why : Why} (holding : Holding k t why) (u : Nat) (task : Task)
    (other : t ≠ u) : Holding (k.put u task) t why := by
  refine ⟨holding.alive,?_⟩
  rw [put_task,if_neg other]
  exact holding.stop

theorem Holding.apart {k : Kernel} {t u : Nat} {why : Why} (holding : Holding k t why) (loose : Loose k u) :
    t ≠ u := by
  rintro rfl
  exact loose.not_stopped why true holding.stop

theorem Holding.move {k : Kernel} {t : Nat} {why : Why} (holding : Holding k t why) (move : Move)
    (patient : ∀ how, move ≠ .kill how) : Holding (k.move move) t why := by
  have moved := move_moved k move
  generalize k.move move = next at moved
  cases moved with
  | idle => exact holding
  | killed how alive => exact absurd rfl (patient how)
  | stops _ u other loose own => exact holding.put u _ (holding.apart loose)
  | takes u loose pending =>
    have kept := holding.put u (.stopped .toolTrap false) (holding.apart loose)
    exact ⟨kept.alive,kept.stop⟩
  | clones u new loose fresh =>
    have apart : t ≠ new := by
      rintro rfl
      rw [holding.stop] at fresh
      simp at fresh
    exact (holding.put new _ apart).put u _ (holding.apart loose)
  | exits u code loose => exact holding.put u _ (holding.apart loose)
  | dies u how dying present =>
    rw [holding.alive] at dying
    simp at dying

theorem held_iff (k : Kernel) (t : Nat) : k.held t = true ↔ ∃ why, k.task t = some (.stopped why true) := by
  rw [Kernel.held]
  constructor
  · intro held
    split at held
    next why stop => exact ⟨why,stop⟩
    next => simp at held
  · rintro ⟨why,stop⟩
    rw [stop]

def noneHeld (k : Kernel) : Bool := decide (∀ t ∈ k.tasks.keys, k.held t = false)

theorem Holding.refuses {k : Kernel} {t : Nat} {why : Why} (holding : Holding k t why) : noneHeld k = false := by
  rw [noneHeld,decide_eq_false_iff_not]
  intro none
  have member : t ∈ k.tasks.keys := Finmap.mem_keys.mpr (Finmap.mem_of_lookup_eq_some holding.stop)
  have free := none t member
  rw [(held_iff k t).mpr ⟨why,holding.stop⟩] at free
  simp at free

/-! The second thread of the tool changes no thread of the child. -/

inductive Woken (w : World Kernel) : World Kernel → Prop
  | idle : Woken w w
  | selects (pid : Nat) (asleep : w.outside.thread = .asleep) :
      Woken w ⟨{w.runner with childPIDToInject := pid},{w.outside with thread := .selected}⟩

theorem wake_woken (w : World Kernel) (rand : Nat) : Woken w (wake w rand) := by
  rw [wake]
  split
  next asleep _ => exact .selects _ asleep
  next => exact .idle

inductive TrapSent (w : World Kernel) : World Kernel → Prop
  | idle : TrapSent w w
  | gone (selected : w.outside.thread = .selected) (reaped : w.outside.task w.runner.childPIDToInject = none) :
      TrapSent w {w with outside := {w.outside with thread := .done false}}
  | sent (selected : w.outside.thread = .selected) (present : w.outside.task w.runner.childPIDToInject ≠ none) :
      TrapSent w {w with outside := {w.outside with trapPending := true,thread := .done true}}

theorem sendTrap_sent (w : World Kernel) : TrapSent w (sendTrap w) := by
  rw [sendTrap]
  split
  next selected =>
    rw [Kernel.kill]
    cases target : w.outside.task w.runner.childPIDToInject with
    | none => exact .gone selected target
    | some task => exact .sent selected (by simp [target])
  next => exact .idle

inductive Stepped (w : World Kernel) : Ev → World Kernel → Prop
  | move (move : Move) (next : Kernel) (moved : Moved w.outside move next) :
      Stepped w (.move move) {w with outside := next}
  | wake (rand : Nat) (next : World Kernel) (woken : Woken w next) : Stepped w (.wake rand) next
  | kill (next : World Kernel) (sent : TrapSent w next) : Stepped w .kill next
  | call : Stepped w .call w
  | report (t : Nat) : Stepped w (.report t) w

theorem step_stepped (w : World Kernel) (event : Ev) : Stepped w event (step w event) := by
  cases event with
  | move move => exact .move move _ (move_moved w.outside move)
  | wake rand => exact .wake rand _ (wake_woken w rand)
  | kill => exact .kill _ (sendTrap_sent w)
  | call => exact .call
  | report t => exact .report t

structure SameTasks (w w' : World Kernel) : Prop where
  tasks : w'.outside.tasks = w.outside.tasks
  killed : w'.outside.killed = w.outside.killed
  leader : w'.outside.leader = w.outside.leader

theorem step_sameTasks (w : World Kernel) (event : Ev) :
    (∃ move, event = .move move) ∨ SameTasks w (step w event) := by
  have stepped := step_stepped w event
  generalize step w event = next at stepped
  cases stepped with
  | move move next moved => exact .inl ⟨move,rfl⟩
  | wake rand next woken => cases woken <;> exact .inr ⟨rfl,rfl,rfl⟩
  | kill next sent => cases sent <;> exact .inr ⟨rfl,rfl,rfl⟩
  | call => exact .inr ⟨rfl,rfl,rfl⟩
  | report t => exact .inr ⟨rfl,rfl,rfl⟩

theorem SameTasks.task {w w' : World Kernel} (same : SameTasks w w') (t : Nat) :
    w'.outside.task t = w.outside.task t := by
  rw [Kernel.task,same.tasks]
  rfl

theorem step_runner (w : World Kernel) (event : Ev) :
    (step w event).runner.childThreads = w.runner.childThreads ∧
      (step w event).runner.childPID = w.runner.childPID := by
  have stepped := step_stepped w event
  generalize step w event = next at stepped
  cases stepped with
  | wake rand next woken => cases woken <;> exact ⟨rfl,rfl⟩
  | kill next sent => cases sent <;> exact ⟨rfl,rfl⟩
  | _ => exact ⟨rfl,rfl⟩

theorem step_reported (w : World Kernel) (event : Ev) (t : Nat) (why : Why)
    (after : (step w event).outside.task t = some (.stopped why true)) :
    w.outside.task t = some (.stopped why true) := by
  obtain ⟨move,rfl⟩ | same := step_sameTasks w event
  · exact move_reported w.outside move t why after
  · rw [same.task] at after
    exact after

theorem step_held (w : World Kernel) (event : Ev) (t : Nat) (held : (step w event).outside.held t = true) :
    w.outside.held t = true := by
  obtain ⟨why,stop⟩ := (held_iff _ t).mp held
  exact (held_iff _ t).mpr ⟨why,step_reported w event t why stop⟩

theorem Holding.step {w : World Kernel} {t : Nat} {why : Why} (holding : Holding w.outside t why) (event : Ev)
    (patient : ∀ how, event ≠ .move (.kill how)) : Holding (step w event).outside t why := by
  obtain ⟨move,rfl⟩ | same := step_sameTasks w event
  · exact holding.move move fun how same => patient how (congrArg Ev.move same)
  · refine ⟨same.killed.trans holding.alive,?_⟩
    rw [same.task]
    exact holding.stop

theorem holding_stable {allows : World Kernel → Ev → Bool}
    (patient : ∀ w how, allows w (.move (.kill how)) = true → noneHeld w.outside = true) (t : Nat) (why : Why) :
    Stable (environment allows) fun w => Holding w.outside t why := by
  intro w event allowed holding
  refine holding.step event ?_
  rintro how rfl
  have free := patient w how allowed
  rw [holding.refuses] at free
  simp at free

theorem afterRun_task (leader inject t : Nat) (future : List Ev) :
    (now (afterRun leader inject future)).outside.task t = if t = leader then some .running else none := by
  change (Finmap.singleton leader Task.running : Finmap fun _ : Nat => Task).lookup t = _
  split
  next same => rw [same,Finmap.lookup_singleton_eq]
  next other => exact Finmap.lookup_eq_none.mpr (by simpa using other)

theorem afterRun_free (leader inject t : Nat) (future : List Ev) :
    (afterRun leader inject future).outside.kernel.held t = false := by
  refine Bool.eq_false_iff.mpr fun held => ?_
  obtain ⟨why,stop⟩ := (held_iff _ t).mp held
  have task := afterRun_task leader inject t future
  rw [now,stop] at task
  split at task <;> simp at task

end Zofi.KernelMoves
