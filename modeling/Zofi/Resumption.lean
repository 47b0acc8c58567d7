import Zofi.WaitLoop

/-! Every thread whose stop waitpidSkipThreadState skips is continued, and only stopped
threads are, in every run in which the process itself creates all the threads. -/
namespace Zofi.Resumption
open Sys Schedule Model.Utils Model.WaitStatus Model.Wait Semantics.Ptrace KernelMoves WaitLoop

/-- Clone events are reported of ChildPID only, and the process is not killed while a stop
that was reported lasts. -/
def createdByChild (w : World Kernel) : Ev → Bool
  | .report t =>
    match w.outside.task t with
    | some (.stopped (.clone _) false) => t == w.runner.childPID
    | _ => true
  | .move (.kill _) => noneHeld w.outside
  | _ => true

def NoneLeft (start w : World Kernel) : Prop := ∀ t, w.outside.held t = true → start.outside.held t = true

inductive Reported (pid status : Nat) (w : World Kernel) : Prop
  | stop (why : Why) (shown : status = why.status) (holding : Holding w.outside pid why)
      (creator : isCloneEvent status = true → pid = w.runner.childPID) : Reported pid status w
  | ending (how : Ending) (shown : status = how.status) (free : w.outside.held pid = false) :
      Reported pid status w

structure Handling (start : World Kernel) (pid status : Nat) (w : World Kernel) : Prop where
  others : ∀ t, t ≠ pid → w.outside.held t = true → start.outside.held t = true
  reported : Reported pid status w

theorem Reported.holding {pid status : Nat} {w : World Kernel} (reported : Reported pid status w)
    (stopped : wIfStopped status = true) : ∃ why, status = why.status ∧ Holding w.outside pid why ∧
      (isCloneEvent status = true → pid = w.runner.childPID) := by
  cases reported with
  | stop why shown holding creator => exact ⟨why,shown,holding,creator⟩
  | ending how shown free =>
    rw [shown,ending_not_stopped] at stopped
    simp at stopped

theorem clone_stopped (status : Nat) (clone : isCloneEvent status = true) : wIfStopped status = true := by
  rw [isCloneEvent,Bool.and_eq_true] at clone
  exact clone.1

theorem held_put (k : Kernel) (t u : Nat) (held : (k.put u .running).held t = true) : t ≠ u ∧ k.held t = true := by
  obtain ⟨why,stop⟩ := (held_iff _ t).mp held
  rw [put_task] at stop
  split at stop
  · simp at stop
  · exact ⟨by assumption,(held_iff k t).mpr ⟨why,stop⟩⟩

theorem Handling.resumed {start w : World Kernel} {pid status : Nat} (handling : Handling start pid status w) :
    NoneLeft start {w with outside := w.outside.put pid .running} := by
  intro t held
  obtain ⟨other,before⟩ := held_put w.outside t pid held
  exact handling.others t other before

theorem reads (start w : World Kernel) (pid status : Nat) (left : NoneLeft start w)
    (allowed : createdByChild w (.report pid) = true) (pending : w.outside.pending pid = some status) :
    Handling start pid status {w with outside := w.outside.reap pid} := by
  constructor
  · intro t other held
    obtain ⟨why,still⟩ := (held_iff _ t).mp held
    have before := (reap_other w.outside pid t other).symm.trans still
    exact left t ((held_iff _ t).mpr ⟨why,before⟩)
  · obtain ⟨why,stop,shown,alive⟩ | ⟨how,dead,shown,last⟩ := pending_cases w.outside pid status pending
    · rw [reap_stopped w.outside pid why false stop]
      refine .stop why shown ⟨alive,put_same _ _ _⟩ fun clone => ?_
      rw [shown] at clone
      obtain ⟨new,rfl⟩ := why_clone why clone
      simpa [createdByChild,stop] using allowed
    · refine .ending _ shown ?_
      rw [Kernel.held,reap_dead_task w.outside pid how dead]

theorem patient (w : World Kernel) (how : Ending) (allowed : createdByChild w (.move (.kill how)) = true) :
    noneHeld w.outside = true := allowed

theorem reported_stable (pid status : Nat) : Stable (environment createdByChild) (Reported pid status) := by
  intro w event allowed reported
  cases reported with
  | stop why shown holding creator =>
    refine .stop why shown (holding_stable patient pid why w event allowed holding) ?_
    rw [(step_runner w event).2]
    exact creator
  | ending how shown free =>
    refine .ending how shown (Bool.eq_false_iff.mpr fun held => ?_)
    rw [step_held w event pid held] at free
    simp at free

def NotRefused (halt : Halt) : Prop := halt ≠ .die "ptrace() failed."

theorem loopProof (start : World Kernel) :
    LoopProof createdByChild NotRefused (NoneLeft start) (Handling start) fun pid _ w =>
      ∀ t, w.outside.held t = true → t = pid ∨ start.outside.held t = true where
  waits := by simp [NotRefused]
  childless := by simp [NotRefused]
  stable w event _ left t held := left t (step_held w event t held)
  midStable pid status w event allowed handling := by
    refine ⟨?_,reported_stable pid status w event allowed handling.reported⟩
    intro t other held
    exact handling.others t other (step_held w event t held)
  reads := reads start
  asks w pid status handling clone := by
    obtain ⟨why,shown,holding,creator⟩ := handling.reported.holding (clone_stopped status clone)
    have cloning := clone
    rw [shown] at cloning
    obtain ⟨new,rfl⟩ := why_clone why cloning
    have message : w.outside.eventMsg pid = some new := by
      rw [Kernel.eventMsg,holding.alive,holding.stop]
    rw [message]
    exact ⟨handling.others,.stop _ shown holding creator⟩
  created w pid status handling clone := by
    obtain ⟨why,shown,holding,creator⟩ := handling.reported.holding (clone_stopped status clone)
    rw [← creator clone,if_pos holding.stopped]
    exact handling.resumed
  continued w pid status handling noClone member stop := by
    rw [Bool.and_eq_true] at stop
    obtain ⟨why,shown,holding,creator⟩ := handling.reported.holding stop.1
    rw [if_pos holding.stopped]
    exact handling.resumed
  ended w pid status handling noClone member isOver := by
    intro t held
    by_cases own : t = pid
    · obtain ⟨why,shown,holding,creator⟩ | ⟨how,shown,free⟩ := handling.reported
      · have alive := stopped_not_ended status (shown ▸ why_stopped why)
        rw [alive.1,alive.2] at isOver
        simp at isOver
      · rw [own] at held
        exact absurd (held.symm.trans free) (by simp)
    · exact handling.others t own held
  returned w pid status handling noClone skips := by
    intro t held
    by_cases own : t = pid
    · exact .inl own
    · exact .inr (handling.others t own held)

/-- From `w` on: whenever the loop waits, it has continued every thread whose stop it has
read; when it returns, every one but the thread it returns; and no request of it is refused,
so each was made of a stopped thread. -/
structure ResumesSkipped (allows : World Kernel → Ev → Bool) (w : World Timeline) : Prop where
  waits : ∀ head, Heads allows w head → ∀ t, head.outside.kernel.held t = true →
    w.outside.kernel.held t = true
  returns : ∀ fuel pid status w',
    exec (waitpidSkipThreadState (waitCalls allows) fuel) w = (.ok (pid,status),w') →
      ∀ t, w'.outside.kernel.held t = true → t = pid ∨ w.outside.kernel.held t = true
  requests : ∀ fuel, (exec (waitpidSkipThreadState (waitCalls allows) fuel) w).1 ≠
    .error (.die "ptrace() failed.")

/-- For every process, every number of threads and every order of events in which the
process itself creates the threads. -/
theorem waitpidSkipThreadState_resumes (w : World Timeline) : ResumesSkipped createdByChild w := by
  constructor
  · intro head heads
    exact (loopProof (now w)).head (fun _ held => held) heads
  · intro fuel pid status w' ran
    exact ((loopProof (now w)).loop fuel).ok (s := w) (fun _ held => held) ran
  · intro fuel refused
    exact ((loopProof (now w)).loop fuel).error (s := w) (fun _ held => held) refused rfl

def flat : World Timeline :=
  afterRun 7 0 [.move (.clone 7 8),.report 7,.call,.call,.move (.start 8),.report 8,.call,
    .move (.exit 8 exitSuccess),.report 8,.move (.stop 7 Signal.segv),.report 7]

theorem flat_resumed : ∃ w', exec (waitpidSkipThreadState (waitCalls createdByChild) 4) flat =
    (.ok (7,stoppedStatus 11),w') ∧ ∀ t, w'.outside.kernel.held t = true → t = 7 := by
  have ran : (exec (waitpidSkipThreadState (waitCalls createdByChild) 4) flat).1 =
      .ok (7,stoppedStatus 11) := by decide +kernel
  refine ⟨_,Prod.ext ran rfl,?_⟩
  intro t held
  obtain own | before := (waitpidSkipThreadState_resumes flat).returns 4 7 _ _ (Prod.ext ran rfl) t held
  · exact own
  · exact absurd (before.symm.trans (afterRun_free 7 0 t _)) (by simp)

/-- The condition is needed: where another thread than ChildPID has created one, it is left
in its stop, unless the request to continue ChildPID is refused. -/
theorem creator_left (pid new : Nat) :
    Triple (fun _ => True)
      (fun w => Holding (now w).outside pid (.clone new) ∧ pid ≠ (now w).runner.childPID)
      (threadCreated (waitCalls createdByChild) pid) fun _ w => (now w).outside.held pid = true := by
  have stable : Stable (environment createdByChild) fun w =>
      Holding w.outside pid (.clone new) ∧ pid ≠ w.runner.childPID := by
    refine (holding_stable patient pid _).and ?_
    intro w event _ elsewhere
    rw [(step_runner w event).2]
    exact elsewhere
  refine Triple.bind (call_triple (fun _ w => Holding w.outside pid (.clone new) ∧ pid ≠ w.runner.childPID)
    trivial stable fun _ both => both) fun answer => ?_
  cases answer with
  | none => exact Triple.throw _ fun _ _ => trivial
  | some announced =>
    refine Triple.bind (Triple.modify (fun w => Holding (now w).outside pid (.clone new) ∧
      pid ≠ (now w).runner.childPID) _ fun _ both => both) fun _ => ?_
    refine Triple.bind Triple.get fun seen => ?_
    have same : Stable (environment createdByChild) fun w =>
        Holding w.outside pid (.clone new) ∧ pid ≠ seen.runner.childPID :=
      (holding_stable patient pid _).and fun _ _ _ elsewhere => elsewhere
    refine (cont_triple seen.runner.childPID (fun w => w.outside.held pid = true) trivial same ?_).weaken ?_
      fun _ _ held => held
    · rintro w ⟨holding,elsewhere⟩
      split
      · exact (held_iff _ _).mpr ⟨_,(holding.put _ .running elsewhere).stop⟩
      · trivial
    · rintro _ ⟨rfl,both⟩
      exact both

def nested : World Timeline :=
  afterRun 7 0 [.move (.clone 7 8),.report 7,.call,.call,.move (.start 8),.report 8,.call,
    .move (.clone 8 9),.report 8,.call,.call]

theorem nested_refused : ¬ ResumesSkipped unrestricted nested := by
  intro resumes
  exact resumes.requests 3 (by decide +kernel)

end Zofi.Resumption
