import Zofi.Semantics.WaitEvents

/-! ChildThreads is, after every call of waitpidSkipThreadState, the set of live threads of
the events read so far, and what a call returns is no change of a thread's state. -/
namespace Zofi.ThreadSet
open Sys Model.Utils Model.WaitStatus Model.Wait Semantics.WaitEvents

theorem live_nil (thread : Nat) : ¬ Live [] thread := by
  rintro ⟨before,event,after,split,_⟩
  simp at split

theorem live_snoc (events : List WaitEvent) (event : WaitEvent) (thread : Nat) :
    Live (events ++ [event]) thread ↔
      announced event = some thread ∨ Live events thread ∧ ended event ≠ some thread := by
  constructor
  · rintro ⟨before,first,after,split,announces,lasts⟩
    rcases List.eq_nil_or_concat after with rfl | ⟨rest,last,rfl⟩
    · obtain ⟨_,same⟩ := List.append_inj' split rfl
      rw [List.singleton_inj.mp same]
      exact .inl announces
    · rw [List.concat_eq_append,← List.cons_append,← List.append_assoc] at split
      obtain ⟨old,same⟩ := List.append_inj' split rfl
      rw [List.singleton_inj.mp same]
      refine .inr ⟨⟨before,first,rest,old,announces,?_⟩,lasts last (by simp)⟩
      intro later member
      exact lasts later (by simp [member])
  · rintro (announces | ⟨⟨before,first,after,rfl,announces,lasts⟩,remains⟩)
    · exact ⟨events,event,[],rfl,announces,by simp⟩
    · refine ⟨before,first,after ++ [event],by simp,announces,?_⟩
      intro later member
      rcases List.mem_append.mp member with old | new
      · exact lasts later old
      · rw [List.mem_singleton.mp new]
        exact remains

theorem clone_not_ended (status : Nat) (clone : isCloneEvent status = true) :
    wIfExited status = false ∧ wIfSignaled status = false := by
  rw [isCloneEvent,Bool.and_eq_true] at clone
  exact stopped_not_ended status clone.1

/-- The set of threads is exact, and no event was lost or read twice. -/
structure Exact (events : List WaitEvent) (w : World Events) : Prop where
  threads : ∀ thread, thread ∈ w.runner.childThreads ↔ Live w.outside.consumed thread
  each : w.outside.consumed ++ w.outside.coming = events

structure NoThreadState (before : List WaitEvent) (event : WaitEvent) : Prop where
  noClone : isCloneEvent event.status = false
  noEnd : Live before event.pid → ended event = none
  noStop : Live before event.pid → ¬ (wIfStopped event.status = true ∧ wStopSig event.status = sigStop)

theorem waitpid_event (continues : Nat → Bool) (w w' : World Events) (pid status : Nat)
    (ran : exec (waitpidSafe (calls continues).waitpidAny) w = (.ok (pid,status),w')) :
    ∃ event rest, w.outside.coming = event :: rest ∧ event.pid = pid ∧ event.status = status ∧
      w' = {w with outside := ⟨w.outside.consumed ++ [event],rest⟩} := by
  cases coming : w.outside.coming with
  | nil => simp [waitpidSafe,calls,waitpidAny,exec_bind,coming] at ran
  | cons event rest =>
    simp only [waitpidSafe,calls,waitpidAny,exec_bind,exec_get,coming,exec_set,exec_pure,Prod.mk.injEq,
      Except.ok.injEq] at ran
    obtain ⟨⟨rfl,rfl⟩,rfl⟩ := ran
    exact ⟨event,rest,rfl,rfl,rfl,rfl⟩

theorem ptraceSafe_ok (continues : Nat → Bool) (pid : Nat) (w w' : World Events)
    (ran : exec (ptraceSafe ((calls continues).cont pid)) w = (.ok (),w')) : w' = w := by
  cases success : continues pid <;> simp [ptraceSafe,calls,success] at ran
  exact ran.symm

theorem threadCreated_ok (continues : Nat → Bool) (before : List WaitEvent) (event : WaitEvent)
    (w w' : World Events) (read : w.outside.consumed = before ++ [event])
    (ran : exec (threadCreated (calls continues) event.pid) w = (.ok (),w')) :
    w' = {w with runner := {w.runner with childThreads := insert event.message w.runner.childThreads}} := by
  obtain ⟨message,asked,got,ran⟩ := bind_ok _ _ _ _ _ ran
  simp only [calls,exec_bind,exec_get,exec_pure,read,List.getLast?_append_cons,List.getLast?_singleton,
    Option.map_some,Prod.mk.injEq,Except.ok.injEq] at got
  obtain ⟨rfl,rfl⟩ := got
  obtain ⟨_,inserted,changed,ran⟩ := bind_ok _ _ _ _ _ ran
  obtain ⟨now,seen,looked,ran⟩ := bind_ok _ _ _ _ _ ran
  rw [ptraceSafe_ok continues _ _ _ ran]
  simp only [modifyThreads,exec_modify,Prod.mk.injEq,true_and] at changed
  simp only [exec_get,Prod.mk.injEq] at looked
  rw [← looked.2,← changed]

theorem live_created (before : List WaitEvent) (event : WaitEvent) (thread : Nat)
    (clone : isCloneEvent event.status = true) :
    Live (before ++ [event]) thread ↔ thread = event.message ∨ Live before thread := by
  have lasts : ended event = none := by simp [ended,clone_not_ended event.status clone]
  rw [live_snoc,lasts,announced,if_pos clone,Option.some.injEq,eq_comm]
  simp

theorem live_ended (before : List WaitEvent) (event : WaitEvent) (thread : Nat)
    (noClone : isCloneEvent event.status = false)
    (isOver : (wIfExited event.status || wIfSignaled event.status) = true) :
    Live (before ++ [event]) thread ↔ thread ≠ event.pid ∧ Live before thread := by
  have silent : announced event = none := by rw [announced,noClone,if_neg (by simp)]
  have last : ended event = some event.pid := by rw [ended,if_pos isOver]
  rw [live_snoc,silent,last]
  constructor
  · rintro (new | ⟨live,apart⟩)
    · simp at new
    · exact ⟨fun same => apart (congrArg some same.symm),live⟩
  · rintro ⟨apart,live⟩
    exact .inr ⟨live,fun same => apart (Option.some.inj same).symm⟩

theorem live_same (before : List WaitEvent) (event : WaitEvent) (thread : Nat)
    (noClone : isCloneEvent event.status = false) (lasts : ended event = none ∨ ¬ Live before event.pid) :
    Live (before ++ [event]) thread ↔ Live before thread := by
  have silent : announced event = none := by rw [announced,noClone,if_neg (by simp)]
  rw [live_snoc,silent]
  constructor
  · rintro (new | ⟨live,_⟩)
    · simp at new
    · exact live
  · intro live
    refine .inr ⟨live,?_⟩
    intro isOver
    rcases lasts with quiet | dead
    · rw [quiet] at isOver
      simp at isOver
    · rw [ended] at isOver
      split at isOver
      · rw [Option.some.inj isOver] at dead
        exact dead live
      · simp at isOver

inductive Judged (w : World Events) (event : WaitEvent) : Bool → World Events → Prop
  | created (clone : isCloneEvent event.status = true) :
      Judged w event true
        {w with runner := {w.runner with childThreads := insert event.message w.runner.childThreads}}
  | stopped (noClone : isCloneEvent event.status = false)
      (stop : wIfStopped event.status = true ∧ wStopSig event.status = sigStop) : Judged w event true w
  | ended (noClone : isCloneEvent event.status = false)
      (isOver : (wIfExited event.status || wIfSignaled event.status) = true) :
      Judged w event true
        {w with runner := {w.runner with childThreads := w.runner.childThreads.erase event.pid}}
  | other (noClone : isCloneEvent event.status = false)
      (quiet : event.pid ∈ w.runner.childThreads → Semantics.WaitEvents.ended event = none ∧
        ¬ (wIfStopped event.status = true ∧ wStopSig event.status = sigStop)) : Judged w event false w

theorem threadStateChanged_judged (continues : Nat → Bool) (before : List WaitEvent) (event : WaitEvent)
    (w w' : World Events) (changed : Bool) (read : w.outside.consumed = before ++ [event])
    (ran : exec (threadStateChanged (calls continues) event.pid event.status) w = (.ok changed,w')) :
    Judged w event changed w' := by
  unfold threadStateChanged at ran
  by_cases clone : isCloneEvent event.status = true
  · rw [if_pos clone] at ran
    obtain ⟨_,_,created,ran⟩ := bind_ok _ _ _ _ _ ran
    obtain ⟨rfl,rfl⟩ := pure_ok _ _ _ _ ran
    rw [threadCreated_ok continues before event w _ read created]
    exact .created clone
  · have noClone : isCloneEvent event.status = false := by simpa using clone
    rw [if_neg clone] at ran
    obtain ⟨now,seen,looked,ran⟩ := bind_ok _ _ _ _ _ ran
    simp only [exec_get,Prod.mk.injEq,Except.ok.injEq] at looked
    obtain ⟨rfl,rfl⟩ := looked
    by_cases member : event.pid ∈ w.runner.childThreads
    · rw [if_pos member] at ran
      by_cases stop : (wIfStopped event.status && wStopSig event.status == sigStop) = true
      · rw [if_pos stop] at ran
        obtain ⟨_,_,continued,ran⟩ := bind_ok _ _ _ _ _ ran
        obtain ⟨rfl,rfl⟩ := pure_ok _ _ _ _ ran
        rw [ptraceSafe_ok continues _ _ _ continued]
        exact .stopped noClone (by simpa using stop)
      · rw [if_neg stop] at ran
        by_cases isOver : (wIfExited event.status || wIfSignaled event.status) = true
        · rw [if_pos isOver] at ran
          obtain ⟨_,_,erased,ran⟩ := bind_ok _ _ _ _ _ ran
          obtain ⟨rfl,rfl⟩ := pure_ok _ _ _ _ ran
          simp only [modifyThreads,exec_modify,Prod.mk.injEq,true_and] at erased
          subst erased
          exact .ended noClone isOver
        · rw [if_neg isOver] at ran
          obtain ⟨rfl,rfl⟩ := pure_ok _ _ _ _ ran
          refine .other noClone fun _ => ⟨?_,by simpa using stop⟩
          rw [Semantics.WaitEvents.ended,if_neg isOver]
    · rw [if_neg member] at ran
      obtain ⟨rfl,rfl⟩ := pure_ok _ _ _ _ ran
      exact .other noClone fun inside => absurd inside member

theorem judged_exact (before : List WaitEvent) (event : WaitEvent) (w w' : World Events) (changed : Bool)
    (threads : ∀ thread, thread ∈ w.runner.childThreads ↔ Live before thread)
    (judged : Judged w event changed w') :
    w'.outside = w.outside ∧ (∀ thread, thread ∈ w'.runner.childThreads ↔ Live (before ++ [event]) thread) ∧
      w'.runner.childPID = w.runner.childPID ∧ (changed = false → NoThreadState before event) := by
  cases judged with
  | created clone =>
    refine ⟨rfl,?_,rfl,by simp⟩
    intro thread
    rw [live_created before event thread clone,Finset.mem_insert,threads]
  | stopped noClone stop =>
    have quiet : ended event = none := by simp [ended,stopped_not_ended event.status stop.1]
    refine ⟨rfl,?_,rfl,by simp⟩
    intro thread
    rw [live_same before event thread noClone (.inl quiet),threads]
  | ended noClone isOver =>
    refine ⟨rfl,?_,rfl,by simp⟩
    intro thread
    rw [live_ended before event thread noClone isOver,Finset.mem_erase,threads]
  | other noClone quiet =>
    refine ⟨rfl,?_,rfl,fun _ => ⟨noClone,?_,?_⟩⟩
    · intro thread
      have lasts : ended event = none ∨ ¬ Live before event.pid := by
        by_cases live : Live before event.pid
        · exact .inl (quiet ((threads event.pid).mpr live)).1
        · exact .inr live
      rw [live_same before event thread noClone lasts,threads]
    · exact fun live => (quiet ((threads event.pid).mpr live)).1
    · exact fun live => (quiet ((threads event.pid).mpr live)).2

theorem iteration_exact (continues : Nat → Bool) (events : List WaitEvent) (w read middle : World Events)
    (pid status : Nat) (changed : Bool) (start : Exact events w)
    (first : exec (waitpidSafe (calls continues).waitpidAny) w = (.ok (pid,status),read))
    (judged : exec (threadStateChanged (calls continues) pid status) read = (.ok changed,middle)) :
    Exact events middle ∧ middle.runner.childPID = w.runner.childPID ∧ ∃ event : WaitEvent,
      event.pid = pid ∧ event.status = status ∧ middle.outside.consumed = w.outside.consumed ++ [event] ∧
        (changed = false → NoThreadState w.outside.consumed event) := by
  obtain ⟨event,rest,coming,rfl,rfl,same⟩ := waitpid_event continues w read pid status first
  have consumed : read.outside.consumed = w.outside.consumed ++ [event] := by rw [same]
  have threads : ∀ thread, thread ∈ read.runner.childThreads ↔ Live w.outside.consumed thread := by
    rw [same]
    exact start.threads
  obtain ⟨outside,exactly,childPID,skipped⟩ := judged_exact w.outside.consumed event read middle changed
    threads (threadStateChanged_judged continues w.outside.consumed event read middle changed consumed judged)
  refine ⟨⟨?_,?_⟩,?_,event,rfl,rfl,?_,skipped⟩
  · rw [outside,consumed]
    exact exactly
  · rw [outside,same,← start.each,coming]
    simp
  · rw [childPID,same]
  · rw [outside,consumed]

/-- What one call returns: the last event it has read, which is no change of a thread's
state, all of them read one after the other. -/
structure Returned (events : List WaitEvent) (w w' : World Events) (pid status : Nat) : Prop where
  kept : Exact events w'
  childPID : w'.runner.childPID = w.runner.childPID
  last : ∃ skipped event, w'.outside.consumed = w.outside.consumed ++ skipped ++ [event] ∧
    event.pid = pid ∧ event.status = status ∧ NoThreadState (w.outside.consumed ++ skipped) event

theorem loop_returned (continues : Nat → Bool) (events : List WaitEvent) (fuel : Nat) (w w' : World Events)
    (pid status : Nat) (start : Exact events w)
    (ran : exec (waitpidSkipThreadState (calls continues) fuel) w = (.ok (pid,status),w')) :
    Returned events w w' pid status := by
  induction fuel generalizing w with
  | zero => simp [waitpidSkipThreadState] at ran
  | succ fuel ih =>
    obtain ⟨⟨pidWaited,waited⟩,read,first,ran⟩ := bind_ok _ _ _ _ _ ran
    obtain ⟨changed,middle,judged,ran⟩ := bind_ok _ _ _ _ _ ran
    obtain ⟨next,same,event,rfl,rfl,consumed,skipped⟩ :=
      iteration_exact continues events w read middle pidWaited waited changed start first judged
    cases changed with
    | true =>
      rw [if_pos rfl] at ran
      obtain ⟨kept,samePID,more,last,split,isPid,isStatus,noState⟩ := ih middle next ran
      rw [consumed] at split noState
      refine ⟨kept,samePID.trans same,event :: more,last,?_,isPid,isStatus,?_⟩
      · simpa using split
      · simpa using noState
    | false =>
      rw [if_neg (by simp)] at ran
      obtain ⟨result,rfl⟩ := pure_ok _ _ _ _ ran
      obtain ⟨rfl,rfl⟩ := Prod.mk.inj result
      refine ⟨next,same,[],event,?_,rfl,rfl,?_⟩
      · rw [consumed,List.append_nil]
      · rw [List.append_nil]
        exact skipped rfl

/-- The states of one attempt: `run` has cleared the set and every later call of the loop
goes on with the events that are left. -/
inductive Attempt (continues : Nat → Bool) (childPID : Nat) (events : List WaitEvent) : World Events → Prop
  | run : Attempt continues childPID events ⟨{childPID},{coming := events}⟩
  | call (w : World Events) (fuel pid status : Nat) (w' : World Events)
      (before : Attempt continues childPID events w)
      (ran : exec (waitpidSkipThreadState (calls continues) fuel) w = (.ok (pid,status),w')) :
      Attempt continues childPID events w'
  | select (w : World Events) (pid : Nat) (before : Attempt continues childPID events w) :
      Attempt continues childPID events {w with runner := {w.runner with childPIDToInject := pid}}

theorem attempt_exact (continues : Nat → Bool) (childPID : Nat) (events : List WaitEvent) (w : World Events)
    (attempt : Attempt continues childPID events w) :
    Exact events w ∧ w.runner.childPID = childPID := by
  induction attempt with
  | run =>
    refine ⟨⟨?_,rfl⟩,rfl⟩
    intro thread
    simp [live_nil]
  | call w fuel pid status w' _ ran ih =>
    have returned := loop_returned continues events fuel w w' pid status ih.1 ran
    exact ⟨returned.kept,returned.childPID.trans ih.2⟩
  | select w pid _ ih => exact ⟨⟨ih.1.threads,ih.1.each⟩,ih.2⟩

/-- For every sequence of wait events and every call of an attempt: the set of threads is
exact, the event that is returned is no change of a thread's state, no event is lost, and
the process itself is not in the set unless it was announced as a thread. -/
theorem waitpidSkipThreadState_exact (continues : Nat → Bool) (childPID : Nat) (events : List WaitEvent)
    (w w' : World Events) (attempt : Attempt continues childPID events w) (fuel pid status : Nat)
    (ran : exec (waitpidSkipThreadState (calls continues) fuel) w = (.ok (pid,status),w')) :
    Returned events w w' pid status ∧
      ((∀ event ∈ w'.outside.consumed, announced event ≠ some childPID) →
        childPID ∉ w'.runner.childThreads) := by
  obtain ⟨start,same⟩ := attempt_exact continues childPID events w attempt
  have returned := loop_returned continues events fuel w w' pid status start ran
  refine ⟨returned,?_⟩
  intro never member
  obtain ⟨before,event,after,split,announces,_⟩ := (returned.kept.threads childPID).mp member
  exact never event (by rw [split]; simp) announces

def oneThread : List WaitEvent := [⟨7,0x3057f,8⟩,⟨8,0x137f,0⟩,⟨7,0,0⟩]

theorem oneThread_returned :
    Returned oneThread ⟨{childPID := 7},{coming := oneThread}⟩
      ⟨{childPID := 7,childThreads := {8}},⟨oneThread,[]⟩⟩ 7 0 :=
  (waitpidSkipThreadState_exact (fun _ => true) 7 oneThread _ _ .run 3 7 0 rfl).1

end Zofi.ThreadSet
