import Zofi.Cleanup
import Zofi.Semantics.Forks

/-! Runner::runAndWait has at most one child at a time: at the start of every attempt nothing is
left of the attempts before it, and in the end nothing is left but a child of which another
thread than the main one has stopped. -/
namespace Zofi.OneChild
open Sys Schedule Model.Utils Model.WaitStatus Model.RegManip Model.Outcomes Model.Wait Model.Inject Model.TestRun
open Model.InjectionRun Semantics.Ptrace Semantics.Forks KernelMoves WaitLoop Cleanup

/-- The process is not killed from outside while a stop that was reported lasts. -/
def undisturbed (w : World Kernel) : Ev → Bool
  | .move (.kill _) => noneHeld w.outside
  | event => knownEnds w event

theorem undisturbed_known (w : World Kernel) (event : Ev) (allowed : undisturbed w event = true) :
    knownEnds w event = true := by
  unfold undisturbed at allowed
  split at allowed
  · rfl
  · exact allowed

theorem patient (w : World Kernel) (how : Ending) (allowed : undisturbed w (.move (.kill how)) = true) :
    noneHeld w.outside = true := allowed

def Holds (w : World Kernel) (t : Nat) : Prop := ∃ why, Holding w.outside t why

theorem holds_stable (t : Nat) : Stable (environment undisturbed) fun w => Holds w t :=
  Stable.any fun why => holding_stable patient t why

theorem child_stable {allows : World Kernel → Ev → Bool} (pid : Nat) :
    Stable (environment allows) fun w => w.runner.childPID = pid :=
  fun w event _ same => (step_runner w event).2.trans same

theorem Attached.kept {w : World Kernel} (attached : Attached w) : Kept w :=
  ⟨attached.rooted,by simp [attached.joined]⟩

theorem Attached.doomed {w : World Kernel} (attached : Attached w) (gone : Gone w.outside) :
    Doomed w.runner.childPID w := gone_doomed w attached.rooted gone

/-! One call of run(). -/

theorem newChild_attached (runner : RunnerBase) (pid : Nat) (own : runner.childPID = pid) :
    Attached ⟨runner,newChild pid⟩ := by
  refine ⟨⟨own.symm,.inr ?_⟩,rfl⟩
  change (Finmap.singleton pid Task.running : Finmap fun _ : Nat => Task).lookup pid ≠ none
  simp

def Reported (pid : Nat) (w : World Kernel) : Prop :=
  Attached w ∧ w.runner.childPID = pid ∧ (Gone w.outside ∨ Holds w pid)

theorem reported_stable (pid : Nat) : Stable (environment undisturbed) (Reported pid) :=
  attached_stable.and ((child_stable pid).and (gone_stable.or (holds_stable pid)))

theorem reap_reported (w : World Kernel) (pid status : Nat) (attached : Attached w) (own : w.runner.childPID = pid)
    (pending : w.outside.pending pid = some status) : Gone (w.outside.reap pid) ∨ Holds ⟨w.runner,w.outside.reap pid⟩ pid := by
  obtain ⟨why,stop,_,alive⟩ | ⟨how,dead,_,last⟩ := pending_cases w.outside pid status pending
  · right
    rw [reap_stopped w.outside pid why false stop]
    exact ⟨why,alive,put_same _ _ _⟩
  · left
    rw [reap_dead w.outside pid how dead,Gone]
    change (w.outside.tasks.erase pid).keys = ∅
    rw [Finmap.keys_erase,last (own.symm.trans attached.rooted.leads.symm),Finset.erase_singleton]

section
variable (replies : Replies) (forking : Forking)

theorem fork_triple :
    Triple (fun _ => True) (fun w => Gone (now w).outside) (runOs undisturbed replies forking).fork
      fun answer w => ∀ pid, answer = some pid → (now w).outside = newChild pid := by
  refine call_triple (fun answer w => ∀ pid, answer = some pid → w.outside = newChild pid) trivial gone_stable ?_
  intro w gone pid answered
  simp only [forked] at answered ⊢
  split at answered
  · cases answered
  next new _ =>
    cases answered
    exact if_pos gone

theorem waited_triple (pid : Nat) :
    Triple (fun _ => True) (fun w => Attached (now w) ∧ (now w).runner.childPID = pid)
      (waitpidSafe ((runOs undisturbed replies forking).waitpid pid)) fun _ w => Reported pid (now w) := by
  have asks : Triple (fun _ => True) (fun w => Attached (now w) ∧ (now w).runner.childPID = pid)
      ((runOs undisturbed replies forking).waitpid pid) fun answer w => answer ≠ none → Reported pid (now w) := by
    refine request_triple (fun answer w => answer ≠ none → Reported pid w) trivial
      (attached_stable.and (child_stable pid)) ?_
    rintro w event answer w' ⟨attached,own⟩ _ served found
    have kept := attached.waited served
    obtain ⟨rfl,_⟩ | ⟨t,status,_,_,asked,pending,rfl⟩ := waited_answer served
    · exact absurd rfl found
    · obtain rfl : t = pid := by simpa using asked
      exact ⟨kept,own,reap_reported w t status attached own pending⟩
  refine Triple.bind asks fun answer => ?_
  cases answer with
  | none => exact Triple.throw _ fun _ _ => trivial
  | some data => exact Triple.pure _ fun _ reported => reported (by simp)

theorem setOptions_triple (pid : Nat) :
    Triple (fun _ => True) (fun w => Reported pid (now w)) ((runOs undisturbed replies forking).setOptions pid)
      fun (success : Bool) w => Attached (now w) ∧ if success then Holds (now w) pid else Gone (now w).outside := by
  refine call_triple (fun (success : Bool) w => Attached w ∧ if success then Holds w pid else Gone w.outside) trivial
    (reported_stable pid) ?_
  rintro w ⟨attached,own,gone | ⟨why,holding⟩⟩
  · refine ⟨attached,?_⟩
    have none := (gone_iff _).mp gone pid
    simpa [onKernel,Kernel.stopped,none] using gone
  · refine ⟨attached,?_⟩
    simp only [onKernel,holding.stopped,if_true]
    exact ⟨why,holding⟩

theorem run_triple :
    Triple (fun _ => True) (fun w => Gone (now w).outside) (run (runOs undisturbed replies forking))
      fun (success : Bool) w => Attached (now w) ∧ (success = false → Gone (now w).outside) := by
  refine Triple.bind (Triple.modify (fun w => Gone (now w).outside) _ fun _ gone => gone) fun _ => ?_
  refine Triple.bind (fork_triple replies forking) fun answer => ?_
  cases answer with
  | none => exact Triple.throw _ fun _ _ => trivial
  | some pid =>
    refine Triple.bind (Triple.modify (fun w => Attached (now w) ∧ (now w).runner.childPID = pid) _ ?_) fun _ => ?_
    · intro w forked
      have fresh : w.outside.kernel = newChild pid := forked pid rfl
      refine ⟨?_,rfl⟩
      simp only [now,fresh]
      exact newChild_attached _ pid rfl
    refine Triple.bind (waited_triple replies forking pid) fun _ => ?_
    refine Triple.bind (setOptions_triple replies forking pid) fun success => ?_
    cases success with
    | false => exact Triple.pure _ fun _ both => ⟨both.1,fun _ => both.2⟩
    | true =>
      have continued : Triple (fun _ => True) (fun w => Attached (now w) ∧ Holds (now w) pid)
          (Model.Wait.ptraceSafe ((runOs undisturbed replies forking).cont pid)) fun _ w => Attached (now w) := by
        refine cont_triple pid Attached trivial (attached_stable.and (holds_stable pid)) ?_
        rintro w ⟨attached,why,holding⟩
        rw [if_pos holding.stopped]
        exact ⟨attached.rooted.put pid _ (stopped_present _ _ holding.stopped),attached.joined⟩
      exact Triple.bind continued fun _ => Triple.pure _ fun _ attached => ⟨attached,by simp⟩

/-! The attempts. -/

variable (setup : Setup) (fuel : Nat)

theorem attempt_attached (stats : Statistics) :
    Triple (fun _ => True) (fun w => Gone (now w).outside) (attempt (runOs undisturbed replies forking) setup fuel stats)
      fun (result : Bool × Statistics) w =>
        if result.1 = false ∧ 0 < setup.options.injectionsPerRun then Gone (now w).outside else Attached (now w) := by
  refine Triple.bind (run_triple replies forking) fun success => ?_
  cases success with
  | false =>
    refine Triple.pure _ fun w both => ?_
    split
    · exact both.2 rfl
    · exact both.1
  | true =>
    by_cases none : setup.options.injectionsPerRun = 0
    · simp only [none]
      exact Triple.pure _ fun _ both => by simpa using both.1
    · simp only [none]
      refine (attempt_triple replies fuel setup.cs setup.registers setup.garbage stats undisturbed_known).weaken
        (fun _ both => Attached.kept both.1) ?_
      rintro ⟨injectOK,stats'⟩ w holds
      cases injectOK with
      | true => simpa using holds
      | false => simpa [Nat.pos_of_ne_zero none] using holds

theorem attemptLoop_attached (attempts : Nat) (stats : Statistics) :
    Triple (fun _ => True) (fun w => Gone (now w).outside)
      (attemptLoop (runOs undisturbed replies forking) setup fuel attempts stats) fun _ w => Attached (now w) := by
  induction attempts generalizing stats with
  | zero => exact Triple.throw _ fun _ _ => trivial
  | succ attempts ih =>
    refine Triple.bind (attempt_attached replies forking setup fuel stats) fun result => ?_
    obtain ⟨injectOK,stats⟩ := result
    by_cases again : injectOK = false ∧ 0 < setup.options.injectionsPerRun
    · simp only [again.1,again.2,decide_true,Bool.not_false,Bool.and_true,if_true,and_self]
      exact ih stats
    · have leaves : (!injectOK && decide (setup.options.injectionsPerRun > 0)) = false := by
        simpa using again
      simp only [leaves,if_neg again]
      exact Triple.pure _ fun _ attached => attached

end

/-! The last attempt is waited for, and the child killed. -/

def Over (w : World Kernel) : Prop := Gone w.outside ∨ ∃ t, Holds w t

/-- Nothing is left of the child, or another thread than this one has stopped. -/
def Left (pid : Nat) (w : World Kernel) : Prop := Gone w.outside ∨ ∃ t, t ≠ pid ∧ Holds w t

def Mine (pid : Nat) (w : World Kernel) : Prop := Rooted w ∧ w.runner.childPID = pid

theorem Left.over {pid : Nat} {w : World Kernel} (left : Left pid w) : Over w :=
  left.imp_right fun ⟨t,_,holds⟩ => ⟨t,holds⟩

theorem mine_stable (pid : Nat) : Stable (environment undisturbed) (Mine pid) := rooted_stable.and (child_stable pid)

theorem Mine.doomed {pid : Nat} {w : World Kernel} (mine : Mine pid w) (finished : w.outside.killed ≠ none ∨ Gone w.outside) :
    Doomed pid w := ⟨mine.1,mine.1.leads.trans mine.2,finished⟩

theorem Mine.reap {pid : Nat} {w : World Kernel} (mine : Mine pid w) (t status : Nat)
    (pending : w.outside.pending t = some status) : Mine pid ⟨w.runner,w.outside.reap t⟩ :=
  ⟨mine.1.reap t status pending,mine.2⟩

theorem Holds.reap {w : World Kernel} {t u : Nat} (holds : Holds w t) (other : t ≠ u) : Holds ⟨w.runner,w.outside.reap u⟩ t := by
  obtain ⟨why,alive,stop⟩ := holds
  refine ⟨why,?_,(reap_other w.outside u t other).trans stop⟩
  change (w.outside.reap u).killed = none
  rw [Kernel.reap]
  split <;> exact alive

theorem stopProof : LoopProof undisturbed (fun _ => True) (fun _ => True)
    (fun pid status w => wIfStopped status = true → Holds w pid)
    (fun pid status w => wIfStopped status = true → Holds w pid) where
  waits := trivial
  childless := trivial
  stable _ _ _ _ := trivial
  midStable pid status w event allowed holds stopped := holds_stable pid w event allowed (holds stopped)
  reads w pid status _ _ pending stopped := by
    obtain ⟨why,stop,_,alive⟩ | ⟨how,_,shown,_⟩ := pending_cases w.outside pid status pending
    · rw [reap_stopped w.outside pid why false stop]
      exact ⟨why,alive,put_same _ _ _⟩
    · rw [shown,ending_not_stopped] at stopped
      simp at stopped
  asks w pid status holds _ := by
    split
    · exact holds
    · trivial
  created _ _ _ _ _ := by split <;> trivial
  continued _ _ _ _ _ _ _ := by split <;> trivial
  ended _ _ _ _ _ _ _ := trivial
  returned _ _ _ holds _ _ := holds

section
variable (replies : Replies) (fuel pid : Nat)

theorem ptraceKill_keeps : Keeps (fun w w' => Mine pid (now w) → Mine pid (now w'))
    ((os undisturbed replies).ptraceKill pid) := by
  refine call_keeps (mine_stable pid) fun w mine => ?_
  simp only [onKernel,Kernel.ptraceKill]
  split
  · exact ⟨⟨mine.1.leads,mine.1.rooted⟩,mine.2⟩
  · exact mine

theorem ptraceKill_over :
    Triple (fun _ => True) (fun w => Mine pid (now w) ∧ Over (now w)) ((os undisturbed replies).ptraceKill pid)
      fun _ w => Doomed pid (now w) ∨ ∃ t, t ≠ pid ∧ Holds (now w) t := by
  refine call_triple (fun _ w => Doomed pid w ∨ ∃ t, t ≠ pid ∧ Holds w t) trivial
    ((mine_stable pid).and (gone_stable.or (Stable.any holds_stable))) ?_
  rintro w ⟨mine,ending⟩
  simp only [onKernel,Kernel.ptraceKill]
  split
  · exact .inl (Mine.doomed ⟨⟨mine.1.leads,mine.1.rooted⟩,mine.2⟩ (.inl (by simp)))
  next loose =>
    obtain gone | ⟨t,why,holding⟩ := ending
    · exact .inl (mine.doomed (.inr gone))
    · refine .inr ⟨t,?_,why,holding⟩
      rintro rfl
      exact loose holding.stopped

theorem cleanup_left :
    Triple (fun _ => True) (fun w => Doomed pid (now w) ∨ ∃ t, t ≠ pid ∧ Holds (now w) t)
      (cleanupWaitpidState (os undisturbed replies) pid fuel) fun _ w => Left pid (now w) := by
  refine Triple.or ((cleanup_triple replies pid fuel).weaken (fun _ doomed => doomed) fun _ _ gone => .inl gone) ?_
  refine Triple.any fun t => ?_
  intro w
  rintro ⟨other,holds⟩
  exact (cleanup_kept replies pid fuel (holds_stable t) fun _ _ holds _ => holds.reap other).weaken (fun _ holds => holds)
    (fun _ _ holds => .inr ⟨t,other,holds⟩) w holds

theorem ptraceKill_triple :
    Triple (fun _ => True) (fun w => Mine pid (now w) ∧ Over (now w)) ((os undisturbed replies).ptraceKill pid)
      fun _ w => Mine pid (now w) ∧ (Doomed pid (now w) ∨ ∃ t, t ≠ pid ∧ Holds (now w) t) :=
  ((ptraceKill_keeps replies pid).triple.weaken (fun _ both => both.1) fun _ _ mine => mine).and
    (ptraceKill_over replies pid)

theorem cleanup_triple :
    Triple (fun _ => True) (fun w => Mine pid (now w) ∧ (Doomed pid (now w) ∨ ∃ t, t ≠ pid ∧ Holds (now w) t))
      (cleanupWaitpidState (os undisturbed replies) pid fuel) fun _ w => Mine pid (now w) ∧ Left pid (now w) :=
  ((cleanup_kept replies pid fuel (mine_stable pid) fun _ status mine pending => mine.reap pid status pending).weaken
    (fun _ both => both.1) fun _ _ mine => mine).and
    ((cleanup_left replies fuel pid).weaken (fun _ both => both.2) fun _ _ left => left)

theorem killChild_triple :
    Triple (fun _ => True) (fun w => Mine pid (now w) ∧ Over (now w)) (killChild (os undisturbed replies) fuel)
      fun _ w => Mine pid (now w) ∧ Left pid (now w) := by
  refine Triple.bind Triple.get fun seen => ?_
  rintro _ ⟨rfl,mine,ending⟩
  obtain rfl := mine.2
  refine Triple.bind (Triple.bind (ptraceKill_triple replies seen.runner.childPID) fun success => ?_)
    (fun _ => cleanup_triple replies fuel _) seen ⟨mine,ending⟩
  split
  · exact Triple.throw _ fun _ _ => trivial
  · exact Triple.pure _ fun _ holds => holds

theorem judged_triple (status : Nat) :
    Triple (fun _ => True)
      (fun w => Mine pid (now w) ∧ LastEnd status (now w) ∧ (wIfStopped status = true → ∃ t, Holds (now w) t))
      (liftM (getWaitPidExitState status) : Prog Halt (World Timeline) ExitState)
      fun _ w => Mine pid (now w) ∧ Over (now w) := by
  refine Triple.lift _ _ (fun w state ⟨mine,last,stops⟩ judged => ⟨mine,?_⟩) fun _ _ _ _ => trivial
  rw [getWaitPidExitState] at judged
  split at judged
  next exited => exact .inl (last (by simp [exited]))
  next =>
    split at judged
    next signaled => exact .inl (last (by simp [signaled]))
    next =>
      split at judged
      next stopped => exact .inr (stops stopped)
      next => simp at judged

variable (settings : Settings) (disk : Disk) (orig : ExecutionExitState)

theorem classify_triple (r : Runner) :
    Triple (fun _ => True) (fun w => Mine pid (now w) ∧ Over (now w))
      (classify (os undisturbed replies) settings disk orig fuel r) fun _ w => Mine pid (now w) ∧ Over (now w) := by
  have kills : Triple (fun _ => True) (fun w => Mine pid (now w) ∧ Over (now w)) (killChild (os undisturbed replies) fuel)
      fun _ w => Mine pid (now w) ∧ Over (now w) :=
    (killChild_triple replies fuel pid).weaken (fun _ both => both) fun _ _ both => ⟨both.1,both.2.over⟩
  have checks : Triple (fun _ => True) (fun w => Mine pid (now w) ∧ Over (now w))
      (liftM (checkOutput settings disk orig r.exState) : Prog Halt (World Timeline) Bool)
      fun _ w => Mine pid (now w) ∧ Over (now w) :=
    Triple.lift _ _ (fun _ _ both _ => both) fun _ _ _ _ => trivial
  unfold classify
  dsimp only
  split
  · split
    · exact Triple.bind kills fun _ => Triple.pure _ fun _ both => both
    · exact Triple.pure _ fun _ both => both
  · split
    · split
      · exact Triple.pure _ fun _ both => both
      · refine Triple.bind checks fun same => ?_
        split <;> exact Triple.pure _ fun _ both => both
    · split
      · exact Triple.bind kills fun _ => Triple.pure _ fun _ both => both
      · refine Triple.bind checks fun same => ?_
        split <;> exact Triple.pure _ fun _ both => both
    · exact Triple.throw _ fun _ _ => trivial
    · exact Triple.throw _ fun _ _ => trivial

theorem waitChildAndGetStatus_triple (r : Runner) :
    Triple (fun _ => True) (fun w => Kept (now w))
      (waitChildAndGetStatus (os undisturbed replies) settings disk orig fuel r)
      fun _ w => ∃ pid, Mine pid (now w) ∧ Over (now w) := by
  have stops : Triple (fun _ => True) (fun w => Kept (now w))
      (waitpidSkipThreadState (waitCalls undisturbed) fuel) fun (data : Nat × Nat) w =>
        wIfStopped data.2 = true → Holds (now w) data.1 :=
    (stopProof.loop fuel).weaken (fun _ _ => trivial) fun _ _ holds => holds
  have waited : Triple (fun _ => True) (fun w => Kept (now w))
      (waitpidSkipThreadState (waitCalls undisturbed) fuel) fun (data : Nat × Nat) w => ∃ pid,
        Mine pid (now w) ∧ LastEnd data.2 (now w) ∧ (wIfStopped data.2 = true → ∃ t, Holds (now w) t) := by
    refine (((loopProof undisturbed_known).loop fuel).and stops).weaken (fun _ kept => kept) ?_
    rintro ⟨t,status⟩ w ⟨⟨kept,last⟩,holds⟩
    exact ⟨_,⟨kept.rooted,rfl⟩,last,fun stopped => ⟨t,holds stopped⟩⟩
  refine Triple.bind waited fun data => Triple.any fun pid => ?_
  refine Triple.bind (judged_triple pid data.2) fun state => ?_
  refine Triple.bind (classify_triple replies fuel pid settings disk orig _) fun status => ?_
  exact Triple.pure _ fun _ both => ⟨pid,both⟩

theorem finishRun_triple (r : Runner) :
    Triple (fun _ => True) (fun w => Kept (now w)) (finishRun (os undisturbed replies) settings disk orig fuel r)
      fun _ w => Left (now w).runner.childPID (now w) := by
  refine Triple.bind (waitChildAndGetStatus_triple replies fuel settings disk orig r) fun result => ?_
  refine Triple.any fun pid => Triple.bind Triple.get fun seen => ?_
  rintro _ ⟨rfl,mine,ending⟩
  obtain rfl := mine.2
  refine Triple.bind (ptraceKill_triple replies seen.runner.childPID) (fun _ => ?_) seen ⟨mine,ending⟩
  refine Triple.bind (cleanup_triple replies fuel _) fun _ => Triple.pure _ fun w both => ?_
  rw [both.1.2]
  exact both.2

end

inductive Begins (os : RunOs Timeline) (setup : Setup) (fuel : Nat) (start : World Timeline) : World Timeline → Prop
  | first : Begins os setup fuel start start
  | next (head after : World Timeline) (stats stats' : Statistics) (before : Begins os setup fuel start head)
      (failed : exec (attempt os setup fuel stats) head = (.ok (false,stats'),after))
      (again : 0 < setup.options.injectionsPerRun) : Begins os setup fuel start after

theorem beforeRun_gone (future : List Ev) : Gone (now (beforeRun future)).outside := Finmap.keys_empty

section
variable (replies : Replies) (forking : Forking) (setup : Setup) (fuel : Nat)

theorem begins_gone (start head : World Timeline) (gone : Gone (now start).outside)
    (begins : Begins (runOs undisturbed replies forking) setup fuel start head) : Gone (now head).outside := by
  induction begins with
  | first => exact gone
  | next head after stats stats' before failed again ih =>
    have left := (attempt_attached replies forking setup fuel stats).ok ih failed
    rwa [if_pos ⟨rfl,again⟩] at left

theorem runFrom_left (attempts : Nat) (stats : Statistics) :
    Triple (fun _ => True) (fun w => Gone (now w).outside)
      (runFrom (runOs undisturbed replies forking) setup fuel attempts stats)
      fun _ w => Left (now w).runner.childPID (now w) := by
  refine Triple.bind (attemptLoop_attached replies forking setup fuel attempts stats) fun stats => ?_
  refine Triple.bind ((finishRun_triple replies fuel setup.settings setup.disk setup.orig setup.runner).weaken
    (fun _ attached => Attached.kept attached) fun _ _ left => left) fun _ => ?_
  exact Triple.pure _ fun _ left => left

end

def flipping : Replies := {noReplies with
  getRegs := fun _ _ => some fun _ => 0
  setRegs := fun _ _ _ => true
  setRegSet := fun _ _ _ => true
  peekText := fun _ _ _ => 0
  maps := fun _ _ => some []}

/-- The first child is process 7, the next one process 8. -/
def twoPids : Forking := ⟨fun w => some (if w.runner.childPID = 0 then 7 else 8),fun w _ => w.outside⟩

def forcedRax : Setup where
  registers := {forceInjectToReg := some "rax",forceInjectToBit := some "0"}
  cs := noInstructions
  garbage := ⟨0,0,[]⟩
  disk := ⟨fun _ => some [],fun _ => some []⟩
  orig := ⟨⟨.exited,0⟩,3,4,"out","err"⟩
  runner := ⟨⟨{},5,6,"out1","err1"⟩,false⟩

theorem trap_known : 0 < sigTrap ∧ sigTrap ≤ 64 := by decide

/-- Process 7 ends at once; process 8 gets its fault and returns. -/
def twoChildren : List Ev :=
  [.call,.move (.exit 7 exitSuccess),.report 7,.call] ++
    [.call,.move (.stop 8 ⟨sigTrap,trap_known⟩),.report 8,.call,.call] ++
    [.call,.wake 0,.kill,.move (.takeTrap 8),.report 8,.call] ++ List.replicate 24 .call ++
    [.move (.exit 8 exitSuccess),.report 8,.call,.call]

theorem masked_run : ∃ result w, exec (runAndWait (runOs undisturbed flipping twoPids) forcedRax 2 Statistics.zero)
    (beforeRun twoChildren) = (.ok result,w) ∧ result.1 = .masked := by
  have masked : ((exec (runAndWait (runOs undisturbed flipping twoPids) forcedRax 2 Statistics.zero)
      (beforeRun twoChildren)).1.map Prod.fst).toOption = some FtStatus.masked := by
    decide +kernel
  cases run : exec (runAndWait (runOs undisturbed flipping twoPids) forcedRax 2 Statistics.zero) (beforeRun twoChildren) with
  | mk outcome w =>
    rw [run] at masked
    cases outcome with
    | error halt => simp [Except.map,Except.toOption] at masked
    | ok result => exact ⟨result,w,rfl,by simpa [Except.map,Except.toOption] using masked⟩

/-- Process 7 is killed from outside between its first stop and PTRACE_SETOPTIONS. -/
example : (exec (attempt (runOs knownEnds flipping twoPids) forcedRax 2 Statistics.zero)
    (beforeRun [.call,.move (.stop 7 ⟨sigTrap,trap_known⟩),.report 7,.move (.kill (.signaled Signal.kill false)),.call])
    ).2.outside.kernel.tasks.keys = {7} := by decide +kernel

end Zofi.OneChild
