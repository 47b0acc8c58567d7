import Zofi.WaitLoop

/-! The SIGSTOP a new thread starts with is skipped by waitpidSkipThreadState in every run in
which the kernel reports the thread's clone event first, and is returned where it does not. -/
namespace Zofi.InitialStops
open Sys Schedule Model.Utils Model.WaitStatus Model.Wait Semantics.Ptrace KernelMoves WaitLoop

/-- The first stop of a thread is reported only when the thread has been announced. -/
def announcedFirst (w : World Kernel) : Ev → Bool
  | .report t => w.outside.task t != some (.stopped .initial false) || decide (t ∈ w.runner.childThreads)
  | _ => true

def InitialStop (k : Kernel) (t : Nat) : Prop := k.task t = some (.stopped .initial true)

def Same (start w : World Kernel) : Prop := ∀ t, InitialStop w.outside t → InitialStop start.outside t

/-- Between waitpid() and the end of the iteration, the thread that was reported can be in
its first stop. -/
structure Reading (start : World Kernel) (pid status : Nat) (w : World Kernel) : Prop where
  others : ∀ t, t ≠ pid → InitialStop w.outside t → InitialStop start.outside t
  own : InitialStop w.outside pid → pid ∈ w.runner.childThreads ∧ status = Why.initial.status

theorem initial_status : isCloneEvent Why.initial.status = false ∧ isThreadState Why.initial.status = true ∧
    (wIfExited Why.initial.status || wIfSignaled Why.initial.status) = false := by decide

theorem Reading.same {start w : World Kernel} {pid status : Nat} (reading : Reading start pid status w)
    (past : ¬ InitialStop w.outside pid) : Same start w := by
  intro t stop
  by_cases own : t = pid
  · rw [own] at stop
    exact absurd stop past
  · exact reading.others t own stop

theorem initialStop_put (k : Kernel) (t u : Nat) (stop : InitialStop (k.put u .running) t) :
    t ≠ u ∧ InitialStop k t := by
  unfold InitialStop at stop
  rw [put_task] at stop
  split at stop
  · simp at stop
  · exact ⟨by assumption,stop⟩

theorem reads (start w : World Kernel) (pid status : Nat) (same : Same start w)
    (allowed : announcedFirst w (.report pid) = true) (pending : w.outside.pending pid = some status) :
    Reading start pid status {w with outside := w.outside.reap pid} := by
  constructor
  · intro t other initial
    have before := (reap_other w.outside pid t other).symm.trans initial
    exact same t before
  · intro initial
    unfold InitialStop at initial
    obtain ⟨why,stop,shown,alive⟩ | ⟨how,dead,shown,last⟩ := pending_cases w.outside pid status pending
    · rw [reap_stopped w.outside pid why false stop,put_same,Option.some.injEq,Task.stopped.injEq] at initial
      rw [initial.1] at stop shown
      refine ⟨?_,shown⟩
      simpa [announcedFirst,stop] using allowed
    · rw [reap_dead_task w.outside pid how dead] at initial
      simp at initial

theorem loopProof (start : World Kernel) :
    LoopProof announcedFirst (fun _ => True) (Same start) (Reading start) fun pid _ w =>
      ¬ InitialStop w.outside pid ∧ Same start w where
  waits := trivial
  childless := trivial
  stable w event _ same t stop := same t (step_reported w event t _ stop)
  midStable pid status w event _ reading := by
    constructor
    · intro t other stop
      exact reading.others t other (step_reported w event t _ stop)
    · intro stop
      rw [(step_runner w event).1]
      exact reading.own (step_reported w event pid _ stop)
  reads := reads start
  asks w pid status reading clone := by
    split
    next new _ =>
      refine ⟨reading.others,?_⟩
      intro stop
      obtain ⟨member,shown⟩ := reading.own stop
      exact ⟨Finset.mem_insert_of_mem member,shown⟩
    next => trivial
  created w pid status reading clone := by
    split
    · intro t stop
      have before := (initialStop_put _ _ _ stop).2
      refine reading.same ?_ t before
      intro initial
      rw [(reading.own initial).2,initial_status.1] at clone
      simp at clone
    · trivial
  continued w pid status reading noClone member stopped := by
    split
    · intro t stop
      obtain ⟨other,before⟩ := initialStop_put _ _ _ stop
      exact reading.others t other before
    · trivial
  ended w pid status reading noClone member isOver := by
    apply reading.same
    intro initial
    rw [(reading.own initial).2,initial_status.2.2] at isOver
    simp at isOver
  returned w pid status reading noClone skips := by
    have past : ¬ InitialStop w.outside pid := by
      intro initial
      obtain ⟨member,shown⟩ := reading.own initial
      have never := skips member
      rw [shown,initial_status.2.1] at never
      simp at never
    exact ⟨past,reading.same past⟩

/-- From `w` on, no call of the loop returns the first stop of a thread, and whenever it waits
or returns it has continued every thread whose first stop it has read. -/
structure SkipsInitialStops (allows : World Kernel → Ev → Bool) (w : World Timeline) : Prop where
  waits : ∀ head, Heads allows w head → ∀ t, InitialStop head.outside.kernel t → InitialStop w.outside.kernel t
  returns : ∀ fuel pid status w',
    exec (waitpidSkipThreadState (waitCalls allows) fuel) w = (.ok (pid,status),w') →
      ¬ InitialStop w'.outside.kernel pid ∧ ∀ t, InitialStop w'.outside.kernel t → InitialStop w.outside.kernel t

/-- For every process, every number of threads and every order of events in which a thread's
clone event is reported before its first stop. -/
theorem waitpidSkipThreadState_skips (w : World Timeline) : SkipsInitialStops announcedFirst w := by
  constructor
  · intro head heads
    exact (loopProof (now w)).head (fun _ stop => stop) heads
  · intro fuel pid status w' ran
    exact ((loopProof (now w)).loop fuel).ok (s := w) (fun _ stop => stop) ran

def cloneFirst : World Timeline :=
  afterRun 7 0 [.move (.clone 7 8),.report 7,.call,.call,.move (.start 8),.report 8,.call,
    .move (.stop 7 Signal.segv),.report 7]

theorem cloneFirst_skipped : ∃ w', exec (waitpidSkipThreadState (waitCalls announcedFirst) 3) cloneFirst =
    (.ok (7,stoppedStatus 11),w') ∧ ¬ InitialStop w'.outside.kernel 7 ∧
      w'.outside.kernel.task 8 = some .running := by
  have ran : (exec (waitpidSkipThreadState (waitCalls announcedFirst) 3) cloneFirst).1 =
      .ok (7,stoppedStatus 11) := by decide +kernel
  refine ⟨_,Prod.ext ran rfl,?_,by decide +kernel⟩
  exact ((waitpidSkipThreadState_skips cloneFirst).returns 3 7 _ _ (Prod.ext ran rfl)).1

/-- The condition is needed: the first stop of a thread that is not in the set is returned. -/
theorem unannounced_returned (allows : World Kernel → Ev → Bool) (pid : Nat) (w : World Timeline)
    (absent : pid ∉ w.runner.childThreads) :
    exec (threadStateChanged (waitCalls allows) pid Why.initial.status) w = (.ok false,w) := by
  simp [threadStateChanged,initial_status.1,exec_bind,absent]

def stopFirst : World Timeline := afterRun 7 0 [.move (.clone 7 8),.move (.start 8),.report 8]

theorem stopFirst_returned : ¬ SkipsInitialStops unrestricted stopFirst := by
  intro skips
  have ran : (exec (waitpidSkipThreadState (waitCalls unrestricted) 1) stopFirst).1 =
      .ok (8,Why.initial.status) := by decide +kernel
  have stop : (exec (waitpidSkipThreadState (waitCalls unrestricted) 1) stopFirst).2.outside.kernel.task 8 =
      some (.stopped .initial true) := by decide +kernel
  exact (skips.returns 1 8 _ _ (Prod.ext ran rfl)).1 stop

end Zofi.InitialStops
