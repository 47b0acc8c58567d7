import Zofi.WaitLoop

/-! stopChildAfter returns true only behind the tool's own stop in every run in which no
other stop is reported to it, and with whatever stop came first where one is. -/
namespace Zofi.Stopping
open Sys Schedule Model.Utils Model.WaitStatus Model.Wait Model.Inject Semantics.Ptrace KernelMoves WaitLoop

/-- The only stops that are reported are the ones the loop skips and the one by the tool's
SIGTRAP, which the selected thread takes; and the process is not killed while a stop that
was reported lasts. -/
def ownTrapOnly (w : World Kernel) : Ev → Bool
  | .report t =>
    match w.outside.task t with
    | some (.stopped why false) =>
      why == .toolTrap || isCloneEvent why.status ||
        (isThreadState why.status && decide (t ∈ w.runner.childThreads))
    | _ => true
  | .move (.takeTrap t) => t == w.runner.childPIDToInject
  | .move (.kill _) => noneHeld w.outside
  | _ => true

/-- The tool's SIGTRAP is sent once, and is pending or has stopped the selected thread. -/
structure TrapAccounted (w : World Kernel) : Prop where
  stopped : ∀ t reported, w.outside.task t = some (.stopped .toolTrap reported) →
    t = w.runner.childPIDToInject ∧ w.outside.thread = .done true ∧ w.outside.trapPending = false
  pending : w.outside.trapPending = true → w.outside.thread = .done true

theorem TrapAccounted.put {w : World Kernel} (accounted : TrapAccounted w) (t : Nat) (task : Task)
    (other : ∀ reported, task ≠ .stopped .toolTrap reported) :
    TrapAccounted {w with outside := w.outside.put t task} := by
  refine ⟨?_,accounted.pending⟩
  intro u reported stop
  exact accounted.stopped u reported (put_other _ _ _ _ _ (other reported) stop)

theorem TrapAccounted.move {w : World Kernel} (accounted : TrapAccounted w) {move : Move} {next : Kernel}
    (allowed : ownTrapOnly w (.move move) = true) (moved : Moved w.outside move next) :
    TrapAccounted {w with outside := next} := by
  cases moved with
  | idle => exact accounted
  | killed how alive => exact ⟨accounted.stopped,accounted.pending⟩
  | stops _ t why loose own => exact accounted.put t _ (by simp [own])
  | takes t loose pending =>
    refine ⟨?_,by simp⟩
    intro u reported stop
    change (w.outside.put t _).task u = _ at stop
    rw [put_task] at stop
    split at stop
    next same =>
      rw [same]
      exact ⟨by simpa [ownTrapOnly] using allowed,accounted.pending pending,rfl⟩
    next =>
      have spent := (accounted.stopped u reported stop).2.2
      rw [pending] at spent
      simp at spent
  | clones t new loose fresh => exact (accounted.put new _ (by simp)).put t _ (by simp)
  | exits t code loose => exact accounted.put t _ (by simp)
  | dies t how dying present => exact accounted.put t _ (by simp)

theorem TrapAccounted.unsent {w : World Kernel} (accounted : TrapAccounted w)
    (other : w.outside.thread ≠ .done true) :
    w.outside.trapPending = false ∧ ∀ t reported, w.outside.task t ≠ some (.stopped .toolTrap reported) :=
  ⟨Bool.eq_false_iff.mpr fun pending => other (accounted.pending pending),
    fun t reported stop => other (accounted.stopped t reported stop).2.1⟩

theorem accounted_of_unsent {w : World Kernel} (clear : w.outside.trapPending = false)
    (free : ∀ t reported, w.outside.task t ≠ some (.stopped .toolTrap reported)) : TrapAccounted w := by
  constructor
  · intro t reported stop
    exact absurd stop (free t reported)
  · intro pending
    rw [clear] at pending
    simp at pending

theorem TrapAccounted.woken {w next : World Kernel} (accounted : TrapAccounted w) (woken : Woken w next) :
    TrapAccounted next := by
  cases woken with
  | idle => exact accounted
  | selects pid asleep =>
    obtain ⟨clear,free⟩ := accounted.unsent (by simp [asleep])
    exact accounted_of_unsent clear free

theorem TrapAccounted.sent {w next : World Kernel} (accounted : TrapAccounted w) (sent : TrapSent w next) :
    TrapAccounted next := by
  cases sent with
  | idle => exact accounted
  | gone selected reaped =>
    obtain ⟨clear,free⟩ := accounted.unsent (by simp [selected])
    exact accounted_of_unsent clear free
  | sent selected present =>
    obtain ⟨_,free⟩ := accounted.unsent (by simp [selected])
    exact ⟨fun t reported stop => absurd stop (free t reported),fun _ => rfl⟩

theorem trapAccounted_stable : Stable (environment ownTrapOnly) TrapAccounted := by
  intro w event allowed accounted
  have stepped := step_stepped w event
  change TrapAccounted (step w event)
  generalize step w event = next at stepped
  cases stepped with
  | move move next moved => exact accounted.move allowed moved
  | wake rand next woken => exact accounted.woken woken
  | kill next sent => exact accounted.sent sent
  | call => exact accounted
  | report t => exact accounted

theorem trap_stable (t : Nat) : Stable (environment ownTrapOnly) fun w => Holding w.outside t .toolTrap :=
  holding_stable (fun _ _ free => free) t .toolTrap

/-- What the loop can have read: the tool's stop, something it skips, or an end. -/
inductive Read (pid status : Nat) (w : World Kernel) : Prop
  | trap (shown : status = Why.toolTrap.status) (holding : Holding w.outside pid .toolTrap) : Read pid status w
  | skipped (state : isCloneEvent status = true ∨ isThreadState status = true ∧ pid ∈ w.runner.childThreads) :
      Read pid status w
  | ending (how : Ending) (shown : status = how.status) : Read pid status w

theorem read_stable (pid status : Nat) : Stable (environment ownTrapOnly) (Read pid status) := by
  intro w event allowed read
  cases read with
  | trap shown holding => exact .trap shown (trap_stable pid w event allowed holding)
  | skipped state =>
    refine .skipped ?_
    rw [(step_runner w event).1]
    exact state
  | ending how shown => exact .ending how shown

theorem reads (w : World Kernel) (pid status : Nat) (accounted : TrapAccounted w)
    (allowed : ownTrapOnly w (.report pid) = true) (pending : w.outside.pending pid = some status) :
    TrapAccounted {w with outside := w.outside.reap pid} ∧
      Read pid status {w with outside := w.outside.reap pid} := by
  obtain ⟨why,stop,shown,alive⟩ | ⟨how,dead,shown,last⟩ := pending_cases w.outside pid status pending
  · rw [reap_stopped w.outside pid why false stop]
    by_cases own : why = .toolTrap
    · subst own
      refine ⟨⟨?_,accounted.pending⟩,.trap shown ⟨alive,put_same _ _ _⟩⟩
      intro t reported after
      rw [put_task] at after
      split at after
      next same =>
        rw [same]
        exact accounted.stopped pid false stop
      next => exact accounted.stopped t reported after
    · refine ⟨accounted.put pid _ (by simp [own]),.skipped ?_⟩
      rw [shown]
      simpa [ownTrapOnly,stop,own] using allowed
  · rw [reap_dead w.outside pid how dead]
    refine ⟨⟨?_,accounted.pending⟩,.ending _ shown⟩
    intro t reported after
    change (w.outside.tasks.erase pid).lookup t = _ at after
    rw [erase_task] at after
    split at after
    next => simp at after
    next => exact accounted.stopped t reported after

inductive Returned (pid status : Nat) (w : World Kernel) : Prop
  | trap (shown : status = Why.toolTrap.status) (holding : Holding w.outside pid .toolTrap) : Returned pid status w
  | ending (how : Ending) (shown : status = how.status) : Returned pid status w

theorem loopProof : LoopProof ownTrapOnly (fun _ => True) TrapAccounted
    (fun pid status w => TrapAccounted w ∧ Read pid status w)
    (fun pid status w => TrapAccounted w ∧ Returned pid status w) where
  waits := trivial
  childless := trivial
  stable := trapAccounted_stable
  midStable pid status := trapAccounted_stable.and (read_stable pid status)
  reads := reads
  asks w pid status both clone := by
    split
    next new _ =>
      refine ⟨⟨both.1.stopped,both.1.pending⟩,.skipped (.inl clone)⟩
    next => trivial
  created w pid status both clone := by
    split
    · exact both.1.put _ _ (by simp)
    · trivial
  continued w pid status both noClone member stop := by
    split
    · exact both.1.put _ _ (by simp)
    · trivial
  ended w pid status both noClone member isOver := ⟨both.1.stopped,both.1.pending⟩
  returned w pid status both noClone skips := by
    refine ⟨both.1,?_⟩
    cases both.2 with
    | trap shown holding => exact .trap shown holding
    | skipped state =>
      obtain clone | ⟨state,member⟩ := state
      · rw [clone] at noClone
        simp at noClone
      · rw [skips member] at state
        simp at state
    | ending how shown => exact .ending how shown

structure StoppedByTool (w : World Kernel) : Prop where
  stop : Holding w.outside w.runner.childPIDToInject .toolTrap
  clear : w.outside.trapPending = false

theorem stoppedBy_true (allows : World Kernel → Ev → Bool) (replies : Replies) (fuel status : Nat)
    (w w' : World Timeline) (ran : exec (stoppedBy (os allows replies) fuel status) w = (.ok true,w')) :
    w' = w ∧ ∃ sig, getWaitPidExitState status = .ok ⟨.stopped,sig⟩ := by
  obtain ⟨⟨type,sig⟩,middle,judged,ran⟩ := bind_ok _ _ _ _ _ ran
  obtain ⟨state,rfl⟩ := lift_ok _ _ _ _ judged
  cases type with
  | invalid => simp at ran
  | exited => simp at ran
  | signaled =>
    obtain ⟨_,_,_,ran⟩ := bind_ok _ _ _ _ _ ran
    obtain ⟨_,_,_,ran⟩ := bind_ok _ _ _ _ _ ran
    obtain ⟨_,_,_,ran⟩ := bind_ok _ _ _ _ _ ran
    simp at ran
  | stopped => exact ⟨(pure_ok _ _ _ _ ran).2,sig,state⟩

theorem ending_not_stopped_state (how : Ending) (sig : Nat) :
    getWaitPidExitState how.status ≠ .ok ⟨.stopped,sig⟩ := by
  cases how with
  | exited code => simp [exited_status]
  | signaled signal core => simp [signaled_status]

structure NoTrap (w : World Kernel) : Prop where
  absent : w.outside.thread = .absent
  clear : w.outside.trapPending = false
  free : ∀ t reported, w.outside.task t ≠ some (.stopped .toolTrap reported)

theorem noTrap_accounted (w : World Kernel) (thread : SleepAndKill) (noTrap : NoTrap w) :
    TrapAccounted {w with outside := {w.outside with thread}} := accounted_of_unsent noTrap.clear noTrap.free

theorem noTrap_stable : Stable (environment ownTrapOnly) NoTrap := by
  intro w event allowed noTrap
  have accounted : TrapAccounted (step w event) :=
    trapAccounted_stable w event allowed (noTrap_accounted w w.outside.thread noTrap)
  have absent : (step w event).outside.thread = .absent := by
    have stepped := step_stepped w event
    generalize step w event = next at stepped
    cases stepped with
    | move move next moved => cases moved <;> exact noTrap.absent
    | wake rand next woken =>
      cases woken with
      | idle => exact noTrap.absent
      | selects pid asleep => exact absurd (noTrap.absent.symm.trans asleep) (by simp)
    | kill next sent =>
      cases sent with
      | idle => exact noTrap.absent
      | gone selected reaped => exact absurd (noTrap.absent.symm.trans selected) (by simp)
      | sent selected present => exact absurd (noTrap.absent.symm.trans selected) (by simp)
    | call => exact noTrap.absent
    | report t => exact noTrap.absent
  obtain ⟨clear,free⟩ := accounted.unsent (by simp [absent])
  exact ⟨absent,clear,free⟩

theorem stopChildAfter_triple (replies : Replies) (fuel : Nat) :
    Triple (fun _ => True) (fun w => NoTrap (now w)) (stopChildAfter (os ownTrapOnly replies) fuel)
      fun stopped w => stopped = true → StoppedByTool (now w) := by
  have spawned : Triple (fun _ => True) (fun w => NoTrap (now w)) (os ownTrapOnly replies).sleepAndKillThread
      fun _ w => TrapAccounted (now w) :=
    call_triple (fun _ w => TrapAccounted w) trivial noTrap_stable fun w noTrap =>
      noTrap_accounted w .asleep noTrap
  refine Triple.bind spawned fun _ => ?_
  refine Triple.bind (loopProof.loop fuel) fun data => ?_
  obtain ⟨pid,status⟩ := data
  have stable : Stable (environment ownTrapOnly) fun w => TrapAccounted w ∧ Returned pid status w := by
    refine trapAccounted_stable.and ?_
    intro w event allowed returned
    cases returned with
    | trap shown holding => exact .trap shown (trap_stable pid w event allowed holding)
    | ending how shown => exact .ending how shown
  have join : Triple (fun _ => True) (fun w => TrapAccounted (now w) ∧ Returned pid status (now w))
      (os ownTrapOnly replies).join fun _ w =>
        StoppedByTool (now w) ∨ ∃ how : Ending, status = how.status := by
    refine join_triple replies (fun _ w => StoppedByTool w ∨ ∃ how : Ending, status = how.status) trivial stable ?_
    rintro w ret ⟨accounted,returned⟩ past
    cases returned with
    | ending how shown => exact .inr ⟨how,shown⟩
    | trap shown holding =>
      obtain ⟨rfl,_,clear⟩ := accounted.stopped pid true holding.stop
      exact .inl ⟨⟨holding.alive,holding.stop⟩,clear⟩
  refine Triple.bind join fun killSuccess => ?_
  cases killSuccess with
  | false => exact Triple.pure _ fun _ _ failed => by simp at failed
  | true =>
    apply Triple.of_runs
    · intro w stopped w' found ran yes
      subst yes
      obtain ⟨rfl,sig,state⟩ := stoppedBy_true _ _ _ _ _ _ ran
      obtain byTool | ⟨how,rfl⟩ := found
      · exact byTool
      · exact absurd state (ending_not_stopped_state how sig)
    · intro _ _ _ _ _
      trivial

theorem afterRun_noTrap (leader inject : Nat) (future : List Ev) : NoTrap (now (afterRun leader inject future)) := by
  refine ⟨rfl,rfl,?_⟩
  intro t reported
  rw [afterRun_task]
  split <;> simp

/-- For every process, every schedule and every result of the kill(), as long as no other
stop is reported that the loop does not skip: where `stopChildAfter` returns true, the
selected thread has stopped for the tool's SIGTRAP. -/
theorem stopChildAfter_trap (replies : Replies) (fuel leader inject : Nat) (future : List Ev)
    (w' : World Timeline)
    (ran : exec (stopChildAfter (os ownTrapOnly replies) fuel) (afterRun leader inject future) = (.ok true,w')) :
    StoppedByTool (now w') :=
  (stopChildAfter_triple replies fuel).ok (afterRun_noTrap leader inject future) ran rfl

def trapped : List Ev :=
  [.call,.move (.clone 7 8),.report 7,.call,.call,.wake 0,.move (.start 8),.kill,.report 8,.call,
    .move (.takeTrap 7),.report 7,.call]

theorem trapped_stopped : ∃ w', exec (stopChildAfter (os ownTrapOnly noReplies) 3) (afterRun 7 0 trapped) =
    (.ok true,w') ∧ StoppedByTool (now w') := by
  have ran : (exec (stopChildAfter (os ownTrapOnly noReplies) 3) (afterRun 7 0 trapped)).1 = .ok true := by
    decide +kernel
  exact ⟨_,Prod.ext ran rfl,stopChildAfter_trap noReplies 3 7 0 trapped _ (Prod.ext ran rfl)⟩

/-- Process 7 gets a SIGSEGV before the tool's SIGTRAP is sent. -/
def faulted : List Ev :=
  [.call,.move (.stop 7 Signal.segv),.report 7,.wake 0,.kill,.call]

theorem faulted_stopped : ∃ w', exec (stopChildAfter (os unrestricted noReplies) 1) (afterRun 7 0 faulted) =
    (.ok true,w') ∧ ¬ StoppedByTool (now w') := by
  have ran : (exec (stopChildAfter (os unrestricted noReplies) 1) (afterRun 7 0 faulted)).1 = .ok true := by
    decide +kernel
  have pending : (exec (stopChildAfter (os unrestricted noReplies) 1)
      (afterRun 7 0 faulted)).2.outside.kernel.trapPending = true := by decide +kernel
  refine ⟨_,Prod.ext ran rfl,?_⟩
  intro byTool
  exact absurd (pending.symm.trans byTool.clear) (by simp)

end Zofi.Stopping
