import Zofi.KernelMoves

/-! The rule for waitpidSkipThreadState: what a property of the threads has to satisfy, at
each system call of the loop, to hold whenever the loop waits and when it returns. -/
namespace Zofi.WaitLoop
open Sys Schedule Model.Utils Model.WaitStatus Model.Wait Semantics.Ptrace KernelMoves

theorem why_stopped (why : Why) : wIfStopped why.status = true := by
  have signals : ∀ number : Fin 65, wIfStopped (stoppedStatus number) = true := by decide
  cases why with
  | signal sig =>
    obtain ⟨number,low,high⟩ := sig
    exact signals ⟨number,by omega⟩
  | clone new =>
    change wIfStopped (stoppedStatus (sigTrap ||| ptraceEventClone <<< 8)) = true
    decide
  | _ => decide

theorem why_clone (why : Why) (clone : isCloneEvent why.status = true) : ∃ new, why = .clone new := by
  have signals : ∀ number : Fin 65, isCloneEvent (stoppedStatus number) = false := by decide
  cases why with
  | signal sig =>
    obtain ⟨number,low,high⟩ := sig
    rw [Why.status,signals ⟨number,by omega⟩] at clone
    simp at clone
  | clone new => exact ⟨new,rfl⟩
  | toolTrap => exact absurd clone (by decide)
  | initial => exact absurd clone (by decide)
  | step => exact absurd clone (by decide)

theorem ending_not_stopped (how : Ending) : wIfStopped how.status = false := by
  cases how with
  | exited code =>
    revert code
    decide +kernel
  | signaled sig core =>
    obtain ⟨number,low,high⟩ := sig
    have all : ∀ number : Fin 65, ∀ core : Bool,
        wIfStopped (number.val ||| (if core then 0x80 else 0)) = false := by decide +kernel
    exact all ⟨number,by omega⟩ core

theorem pending_cases (k : Kernel) (t status : Nat) (pending : k.pending t = some status) :
    (∃ why, k.task t = some (.stopped why false) ∧ status = why.status ∧ k.killed = none) ∨
      ∃ how, k.task t = some (.dead how) ∧ status = (k.killed.getD how).status ∧
        (t = k.leader → k.tasks.keys = {t}) := by
  unfold Kernel.pending at pending
  split at pending
  next why stop =>
    split at pending
    next alive => exact .inl ⟨why,stop,(Option.some.inj pending).symm,Option.isNone_iff_eq_none.mp alive⟩
    next => simp at pending
  next how dead =>
    split at pending
    next => simp at pending
    next last => exact .inr ⟨how,dead,(Option.some.inj pending).symm,fun same => by_contra fun more => last ⟨same,more⟩⟩
  next => simp at pending

theorem reap_stopped (k : Kernel) (t : Nat) (why : Why) (reported : Bool)
    (stop : k.task t = some (.stopped why reported)) : k.reap t = k.put t (.stopped why true) := by
  rw [Kernel.reap,stop]

theorem reap_dead (k : Kernel) (t : Nat) (how : Ending) (dead : k.task t = some (.dead how)) :
    k.reap t = {k with tasks := k.tasks.erase t} := by
  rw [Kernel.reap,dead]

theorem reap_other (k : Kernel) (t u : Nat) (other : u ≠ t) : (k.reap t).task u = k.task u := by
  rw [Kernel.reap]
  split
  · rw [put_task,if_neg other]
  · change (k.tasks.erase t).lookup u = _
    rw [erase_task,if_neg other]
  · rfl

theorem reap_dead_task (k : Kernel) (t : Nat) (how : Ending) (dead : k.task t = some (.dead how)) :
    (k.reap t).task t = none := by
  rw [reap_dead k t how dead]
  change (k.tasks.erase t).lookup t = none
  rw [erase_task,if_pos rfl]

theorem request_ok {allows : World Kernel → Ev → Bool} {α : Type}
    {answers : World Kernel → Ev → Option (α × World Kernel)} {w w' : World Timeline} {value : α}
    (ran : exec (request allows answers) w = (.ok value,w')) :
    Served (environment allows) answers (now w) value (now w') := by
  simp only [request,exec_bind,exec_get] at ran
  generalize served : serve (environment allows) answers w.outside.future (now w) = outcome at ran
  obtain ⟨_ | answer,next,left⟩ := outcome
  · simp at ran
  · simp only [exec_set,exec_pure,Prod.mk.injEq,Except.ok.injEq] at ran
    obtain ⟨rfl,rfl⟩ := ran
    exact serve_some _ _ _ _ _ _ _ served

theorem request_error {allows : World Kernel → Ev → Bool} {α : Type}
    {answers : World Kernel → Ev → Option (α × World Kernel)} {w w' : World Timeline} {halt : Halt}
    (ran : exec (request allows answers) w = (.error halt,w')) :
    halt = .waiting ∧ Moves (environment allows) (now w) (now w') := by
  simp only [request,exec_bind,exec_get] at ran
  generalize served : serve (environment allows) answers w.outside.future (now w) = outcome at ran
  obtain ⟨_ | answer,next,left⟩ := outcome
  · simp only [exec_set,exec_throw,Prod.mk.injEq,Except.error.injEq] at ran
    obtain ⟨rfl,rfl⟩ := ran
    exact ⟨rfl,serve_none _ _ _ _ _ _ served⟩
  · simp at ran

section
variable {allows : World Kernel → Ev → Bool} {fails : Halt → Prop} {α : Type}

theorem request_keeps {answers : World Kernel → Ev → Option (α × World Kernel)} {inv : World Kernel → Prop}
    (stable : Stable (environment allows) inv)
    (served : ∀ w event value w', inv w → answers w event = some (value,w') → inv w') :
    Keeps (fun w w' => inv (now w) → inv (now w')) (request allows answers) := by
  intro w start
  cases run : exec (request allows answers) w with
  | mk outcome w' =>
    cases outcome with
    | error halt => exact stable.moves (request_error run).2 start
    | ok value =>
      obtain ⟨middle,event,moves,_,answer⟩ := request_ok run
      exact served middle event value _ (stable.moves moves start) answer

theorem call_keeps {act : World Kernel → α × World Kernel} {inv : World Kernel → Prop}
    (stable : Stable (environment allows) inv) (served : ∀ w, inv w → inv (act w).2) :
    Keeps (fun w w' => inv (now w) → inv (now w')) (request allows (atCall act)) := by
  apply request_keeps stable
  intro w event value w' start answer
  cases event with
  | call =>
    obtain same : act w = (value,w') := Option.some.inj answer
    have kept := served w start
    rw [same] at kept
    exact kept
  | _ => simp [atCall] at answer

theorem request_triple {answers : World Kernel → Ev → Option (α × World Kernel)} {pre : World Kernel → Prop}
    (post : α → World Kernel → Prop) (waits : fails .waiting) (stable : Stable (environment allows) pre)
    (served : ∀ w event value w', pre w → allows w event = true → answers w event = some (value,w') →
      post value w') :
    Triple fails (fun w => pre (now w)) (request allows answers) fun value w => post value (now w) := by
  apply Triple.of_runs
  · intro w value w' start ran
    obtain ⟨middle,event,moves,allowed,answer⟩ := request_ok ran
    exact served middle event value _ (stable.moves moves start) allowed answer
  · intro w halt w' start ran
    rw [(request_error ran).1]
    exact waits

theorem call_triple {act : World Kernel → α × World Kernel} {pre : World Kernel → Prop}
    (post : α → World Kernel → Prop) (waits : fails .waiting) (stable : Stable (environment allows) pre)
    (served : ∀ w, pre w → post (act w).1 (act w).2) :
    Triple fails (fun w => pre (now w)) (request allows (atCall act)) fun value w => post value (now w) := by
  apply request_triple post waits stable
  intro w event value w' start allowed answer
  cases event with
  | call =>
    obtain same : act w = (value,w') := Option.some.inj answer
    have holds := served w start
    rw [same] at holds
    exact holds
  | _ => simp [atCall] at answer

theorem ptraceSafe_triple {program : Prog Halt (World Timeline) Bool} {pre post : World Timeline → Prop}
    (asks : Triple fails pre program fun success w =>
      if success then post w else fails (.die "ptrace() failed.")) :
    Triple fails pre (ptraceSafe program) fun _ => post := by
  refine Triple.bind asks fun success => ?_
  cases success with
  | true => exact Triple.pure _ fun _ holds => holds
  | false => exact Triple.throw _ fun _ failed => failed

theorem waited_answer {wanted : Nat → Bool} {w w' : World Kernel} {event : Ev} {answer : Option (Nat × Nat)}
    (served : waited wanted w event = some (answer,w')) : answer = none ∧ w' = w ∨
      ∃ t status, answer = some (t,status) ∧ event = .report t ∧ wanted t = true ∧
        w.outside.pending t = some status ∧ w' = {w with outside := w.outside.reap t} := by
  cases event with
  | call =>
    simp only [waited] at served
    split at served
    · cases served
      exact .inl ⟨rfl,rfl⟩
    · simp at served
  | report t =>
    simp only [waited] at served
    split at served
    next asked =>
      rw [Option.map_eq_some_iff] at served
      obtain ⟨status,pending,same⟩ := served
      cases same
      exact .inr ⟨t,status,rfl,rfl,asked,pending,rfl⟩
    next => simp at served
  | _ => simp [waited] at served

theorem cont_triple (t : Nat) {pre : World Kernel → Prop} (post : World Kernel → Prop) (waits : fails .waiting)
    (stable : Stable (environment allows) pre)
    (served : ∀ w, pre w → if w.outside.stopped t then post {w with outside := w.outside.put t .running}
      else fails (.die "ptrace() failed.")) :
    Triple fails (fun w => pre (now w)) (ptraceSafe ((waitCalls allows).cont t)) fun _ w => post (now w) := by
  apply ptraceSafe_triple
  refine call_triple (fun success w => if success = true then post w else fails (.die "ptrace() failed.")) waits stable ?_
  intro w start
  have holds := served w start
  rw [onKernel,Kernel.resume]
  split at holds
  next stopped =>
    rw [if_pos stopped]
    exact holds
  next running =>
    rw [if_neg running]
    exact holds

theorem join_triple (replies : Replies) {pre : World Kernel → Prop} (post : Bool → World Kernel → Prop)
    (waits : fails .waiting) (stable : Stable (environment allows) pre)
    (finished : ∀ w ret, pre w → w.outside.thread = .done ret →
      post ret {w with outside := {w.outside with thread := .absent}}) :
    Triple fails (fun w => pre (now w)) (os allows replies).join fun ret w => post ret (now w) := by
  apply request_triple post waits stable
  intro w event ret w' start allowed served
  cases event with
  | call =>
    simp only [joined] at served
    split at served
    next past =>
      cases served
      exact finished w ret start past
    next => simp at served
  | _ => simp [joined] at served

end

def isThreadState (status : Nat) : Bool :=
  (wIfStopped status && wStopSig status == sigStop) || (wIfExited status || wIfSignaled status)

def World.threads (w : World Kernel) (change : Finset Nat → Finset Nat) : World Kernel :=
  {w with runner := {w.runner with childThreads := change w.runner.childThreads}}

/-- What is to be shown, call by call: `inv` holds whenever the loop waits, `mid` from the
return of waitpid() to the end of the iteration, `post` when the loop returns. -/
structure LoopProof (allows : World Kernel → Ev → Bool) (fails : Halt → Prop) (inv : World Kernel → Prop)
    (mid post : Nat → Nat → World Kernel → Prop) : Prop where
  waits : fails .waiting
  childless : fails (.die "waitpid() failed")
  stable : Stable (environment allows) inv
  midStable : ∀ pid status, Stable (environment allows) (mid pid status)
  reads : ∀ w pid status, inv w → allows w (.report pid) = true → w.outside.pending pid = some status →
    mid pid status {w with outside := w.outside.reap pid}
  asks : ∀ w pid status, mid pid status w → isCloneEvent status = true →
    match w.outside.eventMsg pid with
    | some new => mid pid status (World.threads w (insert new))
    | none => fails (.die "ptrace() failed.")
  created : ∀ w pid status, mid pid status w → isCloneEvent status = true →
    if w.outside.stopped w.runner.childPID then inv {w with outside := w.outside.put w.runner.childPID .running}
    else fails (.die "ptrace() failed.")
  continued : ∀ w pid status, mid pid status w → isCloneEvent status = false → pid ∈ w.runner.childThreads →
    (wIfStopped status && wStopSig status == sigStop) = true →
    if w.outside.stopped pid then inv {w with outside := w.outside.put pid .running}
    else fails (.die "ptrace() failed.")
  ended : ∀ w pid status, mid pid status w → isCloneEvent status = false → pid ∈ w.runner.childThreads →
    (wIfExited status || wIfSignaled status) = true → inv (World.threads w (·.erase pid))
  returned : ∀ w pid status, mid pid status w → isCloneEvent status = false →
    (pid ∈ w.runner.childThreads → isThreadState status = false) → post pid status w

namespace LoopProof
variable {allows : World Kernel → Ev → Bool} {fails : Halt → Prop} {inv : World Kernel → Prop}
  {mid post : Nat → Nat → World Kernel → Prop}

theorem waited (proof : LoopProof allows fails inv mid post) :
    Triple fails (fun w => inv (now w)) (waitpidSafe (waitCalls allows).waitpidAny)
      fun (data : Nat × Nat) w => mid data.1 data.2 (now w) := by
  have asks : Triple fails (fun w => inv (now w)) (waitCalls allows).waitpidAny
      fun (answer : Option (Nat × Nat)) w => ∀ data, answer = some data → mid data.1 data.2 (now w) := by
    refine request_triple (fun (answer : Option (Nat × Nat)) w => ∀ data, answer = some data →
      mid data.1 data.2 w) proof.waits proof.stable ?_
    intro w event answer w' start allowed served data found
    obtain ⟨rfl,_⟩ | ⟨t,status,rfl,rfl,_,pending,rfl⟩ := waited_answer served
    · simp at found
    · obtain rfl := Option.some.inj found
      exact proof.reads w t status start allowed pending
  refine Triple.bind asks fun answer => ?_
  cases answer with
  | some data => exact Triple.pure _ fun _ holds => holds data rfl
  | none => exact Triple.throw _ fun _ _ => proof.childless

theorem threadCreated (proof : LoopProof allows fails inv mid post) (pid status : Nat)
    (clone : isCloneEvent status = true) :
    Triple fails (fun w => mid pid status (now w)) (threadCreated (waitCalls allows) pid) fun _ w =>
      inv (now w) := by
  have asks : Triple fails (fun w => mid pid status (now w)) ((waitCalls allows).getEventMsg pid) fun answer w =>
      match answer with
      | some new => mid pid status (World.threads (now w) (insert new))
      | none => fails (.die "ptrace() failed.") := by
    refine call_triple (fun answer w => match answer with
      | some new => mid pid status (World.threads w (insert new))
      | none => fails (.die "ptrace() failed.")) proof.waits (proof.midStable pid status) ?_
    intro w holds
    exact proof.asks w pid status holds clone
  refine Triple.bind asks fun answer => ?_
  cases answer with
  | none => exact Triple.throw _ fun _ failed => failed
  | some new =>
    refine Triple.bind (Triple.modify (fun w => mid pid status (now w)) _ fun w holds => holds) fun _ => ?_
    refine Triple.bind Triple.get fun seen => ?_
    have unchanged : Stable (environment allows) fun w =>
        mid pid status w ∧ w.runner.childPID = seen.runner.childPID := by
      refine (proof.midStable pid status).and ?_
      intro w event _ same
      exact (step_runner w event).2.trans same
    refine (cont_triple seen.runner.childPID inv proof.waits unchanged ?_).weaken ?_ fun _ _ holds => holds
    · rintro w ⟨holds,same⟩
      have next := proof.created w pid status holds clone
      rw [same] at next
      exact next
    · rintro w ⟨rfl,holds⟩
      exact ⟨holds,rfl⟩

theorem judged (proof : LoopProof allows fails inv mid post) (pid status : Nat) :
    Triple fails (fun w => mid pid status (now w)) (threadStateChanged (waitCalls allows) pid status)
      fun changed w => if changed then inv (now w) else post pid status (now w) := by
  unfold threadStateChanged
  by_cases clone : isCloneEvent status = true
  · rw [if_pos clone]
    exact Triple.bind (proof.threadCreated pid status clone) fun _ => Triple.pure _ fun _ holds => holds
  · have noClone : isCloneEvent status = false := by simpa using clone
    rw [if_neg clone]
    refine Triple.bind Triple.get fun seen => ?_
    by_cases member : pid ∈ seen.runner.childThreads
    · rw [if_pos member]
      by_cases stop : (wIfStopped status && wStopSig status == sigStop) = true
      · rw [if_pos stop]
        have unchanged : Stable (environment allows) fun w => mid pid status w ∧ pid ∈ w.runner.childThreads := by
          refine (proof.midStable pid status).and ?_
          intro w event _ inside
          change pid ∈ (step w event).runner.childThreads
          rw [(step_runner w event).1]
          exact inside
        have resumed := cont_triple pid inv proof.waits unchanged fun w both =>
          proof.continued w pid status both.1 noClone both.2 stop
        refine Triple.bind (resumed.weaken ?_ fun _ _ holds => holds) fun _ => Triple.pure _ fun _ holds => holds
        rintro w ⟨rfl,holds⟩
        exact ⟨holds,member⟩
      · rw [if_neg stop]
        by_cases isOver : (wIfExited status || wIfSignaled status) = true
        · rw [if_pos isOver]
          refine Triple.bind (Triple.modify (fun w => inv (now w)) _ ?_) fun _ =>
            Triple.pure _ fun _ holds => holds
          rintro w ⟨rfl,holds⟩
          exact proof.ended _ pid status holds noClone member isOver
        · rw [if_neg isOver]
          refine Triple.pure _ ?_
          rintro w ⟨rfl,holds⟩
          refine proof.returned _ pid status holds noClone fun _ => ?_
          rw [isThreadState,Bool.eq_false_iff.mpr stop,Bool.eq_false_iff.mpr isOver]
          rfl
    · rw [if_neg member]
      refine Triple.pure _ ?_
      rintro w ⟨rfl,holds⟩
      exact proof.returned _ pid status holds noClone fun inside => absurd inside member

theorem loop (proof : LoopProof allows fails inv mid post) (fuel : Nat) :
    Triple fails (fun w => inv (now w)) (waitpidSkipThreadState (waitCalls allows) fuel) fun data w =>
      post data.1 data.2 (now w) := by
  induction fuel with
  | zero => exact Triple.throw _ fun _ _ => proof.waits
  | succ fuel ih =>
    refine Triple.bind proof.waited fun data => ?_
    obtain ⟨pid,status⟩ := data
    refine Triple.bind (proof.judged pid status) fun changed => ?_
    cases changed with
    | true => exact ih
    | false => exact Triple.pure _ fun _ holds => holds

end LoopProof

inductive Heads (allows : World Kernel → Ev → Bool) (w : World Timeline) : World Timeline → Prop
  | first : Heads allows w w
  | next (head read after : World Timeline) (pid status : Nat) (before : Heads allows w head)
      (waited : exec (waitpidSafe (waitCalls allows).waitpidAny) head = (.ok (pid,status),read))
      (skipped : exec (threadStateChanged (waitCalls allows) pid status) read = (.ok true,after)) :
      Heads allows w after

theorem LoopProof.head {allows : World Kernel → Ev → Bool} {fails : Halt → Prop} {inv : World Kernel → Prop}
    {mid post : Nat → Nat → World Kernel → Prop} (proof : LoopProof allows fails inv mid post)
    {w head : World Timeline} (start : inv (now w)) (heads : Heads allows w head) : inv (now head) := by
  induction heads with
  | first => exact start
  | next head read after pid status before waited skipped ih =>
    have holds := proof.waited.ok ih waited
    exact (proof.judged pid status).ok holds skipped

end Zofi.WaitLoop
