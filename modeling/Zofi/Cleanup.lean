import Zofi.BitFlipFrame
import Zofi.WaitLoop

/-! A failed injection leaves no thread and no status of the child behind in every run in
which only known threads end and the kill() fails for a finished process only. -/
namespace Zofi.Cleanup
open Sys Schedule Model.Utils Model.WaitStatus Model.RegManip Model.BitFlip Model.Outcomes Model.Wait Model.Inject
open Semantics.Ptrace KernelMoves WaitLoop BitFlipFrame

def Gone (k : Kernel) : Prop := k.tasks.keys = ∅

theorem mem_keys (k : Kernel) (t : Nat) : t ∈ k.tasks.keys ↔ k.task t ≠ none := by
  rw [Finmap.mem_keys,Kernel.task,Ne,Finmap.lookup_eq_none,not_not]

theorem gone_iff (k : Kernel) : Gone k ↔ ∀ t, k.task t = none := by
  rw [Gone,Finset.eq_empty_iff_forall_notMem]
  simp only [mem_keys,not_not]

/-- Ends are reported of the process and of announced threads, and the kill() of the second
thread fails only if the process is gone. -/
def knownEnds (w : World Kernel) : Ev → Bool
  | .report t =>
    match w.outside.task t with
    | some (.dead _) => t == w.runner.childPID || decide (t ∈ w.runner.childThreads)
    | _ => true
  | .kill => (w.outside.task w.runner.childPIDToInject).isSome || decide (w.outside.tasks.keys = ∅)
  | _ => true

/-- The process lasts as long as any of its threads. -/
structure Rooted (w : World Kernel) : Prop where
  leads : w.outside.leader = w.runner.childPID
  rooted : Gone w.outside ∨ w.outside.task w.outside.leader ≠ none

theorem put_present (k : Kernel) (t u : Nat) (task : Task) (present : k.task t ≠ none) :
    (k.put u task).task t ≠ none := by
  rw [put_task]
  split
  · simp
  · exact present

theorem move_present (k : Kernel) (move : Move) (t : Nat) (present : k.task t ≠ none) :
    (k.move move).task t ≠ none := by
  have moved := move_moved k move
  generalize k.move move = next at moved
  cases moved with
  | idle => exact present
  | killed how alive => exact present
  | stops _ u why loose own => exact put_present k t u _ present
  | takes u loose pending => exact put_present k t u _ present
  | clones u new loose fresh => exact put_present _ t u _ (put_present k t new _ present)
  | exits u code loose => exact put_present k t u _ present
  | dies u how dying present' => exact put_present k t u _ present

theorem move_gone (k : Kernel) (move : Move) (gone : Gone k) : Gone (k.move move) := by
  have none := (gone_iff k).mp gone
  have moved := move_moved k move
  generalize k.move move = next at moved
  cases moved with
  | idle => exact gone
  | killed how alive => exact gone
  | stops _ t why loose own => exact absurd (none t) loose.present
  | takes t loose pending => exact absurd (none t) loose.present
  | clones t new loose fresh => exact absurd (none t) loose.present
  | exits t code loose => exact absurd (none t) loose.present
  | dies t how dying present => exact absurd (none t) present

theorem move_same (k : Kernel) (move : Move) :
    (k.move move).leader = k.leader ∧ (k.move move).thread = k.thread := by
  have moved := move_moved k move
  generalize k.move move = next at moved
  cases moved <;> exact ⟨rfl,rfl⟩

theorem move_killed (k : Kernel) (move : Move) (killed : k.killed ≠ none) : (k.move move).killed ≠ none := by
  have moved := move_moved k move
  generalize k.move move = next at moved
  cases moved with
  | killed how alive => simp
  | _ => exact killed

section
variable {allows : World Kernel → Ev → Bool}

theorem gone_stable : Stable (environment allows) fun w => Gone w.outside := by
  intro w event _ gone
  obtain ⟨move,rfl⟩ | same := step_sameTasks w event
  · exact move_gone w.outside move gone
  · rw [Gone,same.tasks]
    exact gone

theorem rooted_stable : Stable (environment allows) Rooted := by
  intro w event allowed rooted
  have gone := gone_stable w event allowed
  obtain ⟨move,rfl⟩ | same := step_sameTasks w event
  · have same := move_same w.outside move
    refine ⟨same.1.trans rooted.leads,rooted.rooted.imp gone fun present => ?_⟩
    change (w.outside.move move).task (w.outside.move move).leader ≠ none
    rw [same.1]
    exact move_present w.outside move _ present
  · refine ⟨?_,rooted.rooted.imp gone fun present => ?_⟩
    · rw [same.leader,(step_runner w event).2]
      exact rooted.leads
    · rw [same.task,same.leader]
      exact present

theorem Rooted.put {w : World Kernel} (rooted : Rooted w) (t : Nat) (task : Task)
    (present : w.outside.task t ≠ none) : Rooted {w with outside := w.outside.put t task} := by
  refine ⟨rooted.leads,.inr ?_⟩
  obtain gone | leader := rooted.rooted
  · exact absurd ((gone_iff _).mp gone t) present
  · exact put_present _ _ t task leader

theorem stopped_present (k : Kernel) (t : Nat) (stopped : k.stopped t = true) : k.task t ≠ none := by
  rw [Kernel.stopped] at stopped
  split at stopped
  next stop => simp [stop]
  next => simp at stopped

theorem Rooted.resume {w : World Kernel} (rooted : Rooted w) (t : Nat) (mode : Task) :
    Rooted {w with outside := (w.outside.resume t mode).2} := by
  rw [Kernel.resume]
  split
  next stopped => exact rooted.put t mode (stopped_present _ _ stopped)
  next => exact rooted

theorem reap_same (k : Kernel) (t : Nat) : (k.reap t).leader = k.leader ∧ (k.reap t).thread = k.thread := by
  rw [Kernel.reap]
  split <;> exact ⟨rfl,rfl⟩

theorem Rooted.reap {w : World Kernel} (rooted : Rooted w) (t status : Nat)
    (pending : w.outside.pending t = some status) : Rooted {w with outside := w.outside.reap t} := by
  obtain ⟨why,stop,_⟩ | ⟨how,dead,_,last⟩ := pending_cases w.outside t status pending
  · rw [reap_stopped w.outside t why false stop]
    exact rooted.put t _ (by simp [stop])
  · rw [reap_dead w.outside t how dead]
    refine ⟨rooted.leads,?_⟩
    by_cases leader : t = w.outside.leader
    · left
      change (w.outside.tasks.erase t).keys = ∅
      rw [Finmap.keys_erase,last leader,Finset.erase_singleton]
    · right
      change (w.outside.tasks.erase t).lookup w.outside.leader ≠ none
      rw [erase_task,if_neg (Ne.symm leader)]
      obtain gone | present := rooted.rooted
      · exact absurd ((gone_iff _).mp gone t) (by simp [dead])
      · exact present

theorem reap_leader (w : World Kernel) (status : Nat) (killed : w.outside.killed ≠ none)
    (pending : w.outside.pending w.outside.leader = some status) : Gone (w.outside.reap w.outside.leader) := by
  obtain ⟨why,_,_,alive⟩ | ⟨how,dead,_,last⟩ := pending_cases w.outside _ status pending
  · exact absurd alive killed
  · rw [reap_dead w.outside _ how dead,Gone]
    change (w.outside.tasks.erase _).keys = ∅
    rw [Finmap.keys_erase,last rfl,Finset.erase_singleton]

theorem Rooted.waited {w w' : World Kernel} {wanted : Nat → Bool} {event : Ev} {answer : Option (Nat × Nat)}
    (rooted : Rooted w) (served : waited wanted w event = some (answer,w')) : Rooted w' := by
  obtain ⟨_,rfl⟩ | ⟨t,status,_,_,_,pending,rfl⟩ := waited_answer served
  · exact rooted
  · exact rooted.reap t status pending

theorem traceeOf_keeps (replies : Replies) (t : Nat) {inv : World Kernel → Prop}
    (stable : Stable (environment allows) inv)
    (resumes : ∀ w mode, inv w → inv {w with outside := (w.outside.resume t mode).2})
    (waits : ∀ w wanted event answer w', inv w → waited wanted w event = some (answer,w') → inv w') :
    RequestsKeep (fun w w' => inv (now w) → inv (now w')) (traceeOf allows replies t) where
  refl _ holds := holds
  trans _ _ _ first second holds := second (first holds)
  getRegs := call_keeps stable fun _ holds => holds
  getRegSet := call_keeps stable fun _ holds => holds
  peekText _ := call_keeps stable fun _ holds => holds
  maps := call_keeps stable fun _ holds => holds
  rand := call_keeps stable fun _ holds => holds
  setRegs _ := call_keeps stable fun _ holds => holds
  setRegSet _ := call_keeps stable fun _ holds => holds
  singleStep := call_keeps stable fun w holds => resumes w .stepping holds
  waitpid := by
    refine Keeps.bind (fun _ _ _ first second holds => second (first holds)) ?_ fun _ =>
      Keeps.pure (fun _ holds => holds) _
    exact request_keeps stable fun w event answer w' holds served => waits w _ event answer w' holds served

theorem doBitFlip_keeps (replies : Replies) (cs : Capstone) (opts : Options)
    (garbage : Model.AddrSpace.Scanned) (t : Nat) {inv : World Kernel → Prop} (stable : Stable (environment allows) inv)
    (resumes : ∀ w mode, inv w → inv {w with outside := (w.outside.resume t mode).2})
    (waits : ∀ w wanted event answer w', inv w → waited wanted w event = some (answer,w') → inv w') :
    Triple (fun _ => True) (fun w => inv (now w)) (doBitFlip (traceeOf allows replies t) cs opts garbage t)
      fun _ w => inv (now w) := by
  have keep : RequestsKeep (fun w w' => inv (now w) → inv (now w')) (traceeOf allows replies t) :=
    traceeOf_keeps replies t stable resumes waits
  have last : Keeps (fun w w' => inv (now w) → inv (now w'))
      (Model.RegManip.ptraceSafe (traceeOf allows replies t).cont >>= fun _ => pure true) := by
    refine Keeps.bind keep.trans (Keeps.bind keep.trans ?_ fun continued => ?_) fun _ => Keeps.pure keep.refl _
    · exact call_keeps stable fun w holds => resumes w .running holds
    · split
      · exact Keeps.throw keep.refl _
      · exact Keeps.pure keep.refl _
  apply Keeps.triple
  intro w
  exact keep.doBitFlip (fun _ => False) (last.unless _) cs opts garbage t w fun _ _ good => good

structure Doomed (pid : Nat) (w : World Kernel) : Prop where
  rooted : Rooted w
  leader : w.outside.leader = pid
  finished : w.outside.killed ≠ none ∨ Gone w.outside

theorem step_leader (w : World Kernel) (event : Ev) : (step w event).outside.leader = w.outside.leader := by
  obtain ⟨move,rfl⟩ | same := step_sameTasks w event
  · exact (move_same w.outside move).1
  · exact same.leader

theorem doomed_stable (pid : Nat) : Stable (environment allows) (Doomed pid) := by
  intro w event allowed doomed
  refine ⟨rooted_stable w event allowed doomed.rooted,(step_leader w event).trans doomed.leader,?_⟩
  refine doomed.finished.imp (fun killed => ?_) (gone_stable w event allowed)
  obtain ⟨move,rfl⟩ | same := step_sameTasks w event
  · exact move_killed w.outside move killed
  · rw [same.killed]
    exact killed

theorem Doomed.reap {pid status : Nat} {w : World Kernel} (doomed : Doomed pid w)
    (pending : w.outside.pending pid = some status) : Gone (w.outside.reap pid) := by
  obtain killed | gone := doomed.finished
  · obtain rfl := doomed.leader
    exact reap_leader w status killed pending
  · have none := (gone_iff _).mp gone pid
    simp [Kernel.pending,none] at pending

theorem waitpidNoHang_triple (replies : Replies) (pid : Nat) :
    Triple (fun _ => True) (fun w => Doomed pid (now w)) ((os allows replies).waitpidNoHang pid)
      fun (found : Option Bool) w => if found = some false then Doomed pid (now w) else Gone (now w).outside := by
  refine call_triple (fun (found : Option Bool) w => if found = some false then Doomed pid w else Gone w.outside)
    trivial (doomed_stable pid) ?_
  intro w doomed
  simp only [onKernel,polled]
  split
  next absent =>
    obtain gone | present := doomed.rooted.rooted
    · simpa using gone
    · rw [doomed.leader] at present
      exact absurd (Option.isNone_iff_eq_none.mp absent) present
  next =>
    split
    next pending =>
      obtain ⟨status,pending⟩ := Option.isSome_iff_exists.mp pending
      simpa using doomed.reap pending
    next => simpa using doomed

theorem waitpid_triple (replies : Replies) (pid : Nat) :
    Triple (fun _ => True) (fun w => Doomed pid (now w)) ((os allows replies).waitpid pid)
      fun answer w => answer ≠ none → Doomed pid (now w) := by
  refine request_triple (fun answer w => answer ≠ none → Doomed pid w) trivial (doomed_stable pid) ?_
  intro w event answer w' doomed _ served found
  obtain ⟨rfl,_⟩ | ⟨t,status,_,_,asked,pending,rfl⟩ := waited_answer served
  · exact absurd rfl found
  · obtain rfl : t = pid := by simpa using asked
    exact ⟨doomed.rooted.reap t status pending,(reap_same w.outside t).1.trans doomed.leader,.inr (doomed.reap pending)⟩

/-- The clean-up touches nothing but what waitpid() has of the process. -/
theorem cleanup_kept (replies : Replies) (pid fuel : Nat) {inv : World Kernel → Prop} (stable : Stable (environment allows) inv)
    (reaps : ∀ w status, inv w → w.outside.pending pid = some status → inv ⟨w.runner,w.outside.reap pid⟩) :
    Triple (fun _ => True) (fun w => inv (now w)) (cleanupWaitpidState (os allows replies) pid fuel)
      fun _ w => inv (now w) := by
  have polls : Triple (fun _ => True) (fun w => inv (now w)) ((os allows replies).waitpidNoHang pid)
      fun _ w => inv (now w) := by
    refine call_triple (fun _ w => inv w) trivial stable fun w holds => ?_
    simp only [onKernel,polled]
    split
    · exact holds
    split
    next pending =>
      obtain ⟨status,pending⟩ := Option.isSome_iff_exists.mp pending
      exact reaps w status holds pending
    next => exact holds
  have waits : Triple (fun _ => True) (fun w => inv (now w)) ((os allows replies).waitpid pid) fun _ w => inv (now w) := by
    refine request_triple (fun _ w => inv w) trivial stable fun w event answer w' holds _ served => ?_
    obtain ⟨_,rfl⟩ | ⟨t,status,_,_,asked,pending,rfl⟩ := waited_answer served
    · exact holds
    · obtain rfl : t = pid := by simpa using asked
      exact reaps w status holds pending
  induction fuel with
  | zero => exact Triple.throw _ fun _ _ => trivial
  | succ fuel ih =>
    refine Triple.bind polls fun found => ?_
    split
    · refine Triple.bind (Triple.bind waits fun answer => ?_) fun _ => ih
      split
      · exact Triple.pure _ fun _ holds => holds
      · exact Triple.throw _ fun _ _ => trivial
    · exact Triple.pure _ fun _ holds => holds

theorem cleanup_triple (replies : Replies) (pid fuel : Nat) :
    Triple (fun _ => True) (fun w => Doomed pid (now w)) (cleanupWaitpidState (os allows replies) pid fuel)
      fun _ w => Gone (now w).outside := by
  induction fuel with
  | zero => exact Triple.throw _ fun _ _ => trivial
  | succ fuel ih =>
    refine Triple.bind (waitpidNoHang_triple replies pid) fun found => ?_
    obtain _ | _ | _ := found
    · exact Triple.pure _ fun _ gone => by simpa using gone
    case some.true => exact Triple.pure _ fun _ gone => by simpa using gone
    case some.false =>
      refine Triple.bind (Triple.bind (waitpid_triple replies pid) fun answer => ?_) fun _ => ih
      cases answer with
      | none => exact Triple.throw _ fun _ _ => trivial
      | some data => exact Triple.pure _ fun _ doomed => doomed (by simp)

theorem ptraceKill_triple (replies : Replies) (pid : Nat) :
    Triple (fun _ => True) (fun w => Doomed pid (now w)) ((os allows replies).ptraceKill pid)
      fun _ w => Doomed pid (now w) := by
  refine call_triple (fun _ w => Doomed pid w) trivial (doomed_stable pid) ?_
  intro w doomed
  simp only [onKernel,Kernel.ptraceKill]
  split
  · exact ⟨⟨doomed.rooted.leads,doomed.rooted.rooted⟩,doomed.leader,.inl (by simp)⟩
  · exact doomed

theorem killSafe_triple (replies : Replies) (pid : Nat) :
    Triple (fun _ => True) (fun w => Rooted (now w) ∧ (now w).runner.childPID = pid)
      (killSafe (os allows replies) pid sigKill) fun _ w => Doomed pid (now w) := by
  have kill : Triple (fun _ => True) (fun w => Rooted (now w) ∧ (now w).runner.childPID = pid)
      ((os allows replies).kill pid sigKill) fun success w => success = true → Doomed pid (now w) := by
    refine call_triple (fun success w => success = true → Doomed pid w) trivial
      (rooted_stable.and fun w event _ same => (step_runner w event).2.trans same) ?_
    rintro w ⟨rooted,same⟩
    simp only [onKernel,Kernel.kill]
    split
    · simp
    · intro _
      exact ⟨⟨rooted.leads,rooted.rooted⟩,rooted.leads.trans same,.inl (by simp)⟩
  refine Triple.bind kill fun success => ?_
  cases success with
  | true => exact Triple.pure _ fun _ doomed => doomed rfl
  | false => exact Triple.throw _ fun _ _ => trivial

end

structure Attached (w : World Kernel) : Prop where
  rooted : Rooted w
  joined : w.outside.thread = .absent

section
variable {allows : World Kernel → Ev → Bool}

theorem attached_stable : Stable (environment allows) Attached := by
  intro w event allowed attached
  refine ⟨rooted_stable w event allowed attached.rooted,?_⟩
  have stepped := step_stepped w event
  change (step w event).outside.thread = _
  generalize step w event = next at stepped
  cases stepped with
  | move move next moved => cases moved <;> exact attached.joined
  | wake rand next woken =>
    cases woken with
    | idle => exact attached.joined
    | selects pid asleep => simp [attached.joined] at asleep
  | kill next sent =>
    cases sent with
    | idle => exact attached.joined
    | gone selected reaped => simp [attached.joined] at selected
    | sent selected present => simp [attached.joined] at selected
  | call => exact attached.joined
  | report t => exact attached.joined

theorem Attached.resume {w : World Kernel} (attached : Attached w) (t : Nat) (mode : Task) :
    Attached {w with outside := (w.outside.resume t mode).2} := by
  refine ⟨attached.rooted.resume t mode,?_⟩
  change (w.outside.resume t mode).2.thread = _
  rw [Kernel.resume]
  split <;> exact attached.joined

theorem Attached.waited {w w' : World Kernel} {wanted : Nat → Bool} {event : Ev} {answer : Option (Nat × Nat)}
    (attached : Attached w) (served : waited wanted w event = some (answer,w')) : Attached w' := by
  refine ⟨attached.rooted.waited served,?_⟩
  obtain ⟨_,rfl⟩ | ⟨t,status,_,_,_,pending,rfl⟩ := waited_answer served
  · exact attached.joined
  · change (w.outside.reap t).thread = _
    rw [(reap_same w.outside t).2]
    exact attached.joined

theorem doBitFlip_attached (replies : Replies) (cs : Capstone) (opts : Options)
    (garbage : Model.AddrSpace.Scanned) (t : Nat) :
    Triple (fun _ => True) (fun w => Attached (now w)) (doBitFlip (traceeOf allows replies t) cs opts garbage t)
      fun _ w => Attached (now w) :=
  doBitFlip_keeps replies cs opts garbage t attached_stable (fun _ mode attached => attached.resume t mode)
    fun _ _ _ _ _ attached served => attached.waited served

end

/-- A kill() that has failed has found the process gone. -/
structure Kept (w : World Kernel) : Prop where
  rooted : Rooted w
  failed : w.outside.thread = .done false → Gone w.outside

section
variable {allows : World Kernel → Ev → Bool} (known : ∀ w event, allows w event = true → knownEnds w event = true)
include known

theorem kept_stable : Stable (environment allows) Kept := by
  intro w event allowed kept
  have gone := gone_stable w event allowed
  refine ⟨rooted_stable w event allowed kept.rooted,?_⟩
  intro failed
  have stepped := step_stepped w event
  change (step w event).outside.thread = _ at failed
  change Gone (step w event).outside
  change Gone w.outside → Gone (step w event).outside at gone
  generalize step w event = next at stepped failed gone
  cases stepped with
  | move move next moved =>
    have before : w.outside.thread = .done false := by cases moved <;> exact failed
    exact gone (kept.failed before)
  | wake rand next woken =>
    cases woken with
    | idle => exact kept.failed failed
    | selects pid asleep => simp at failed
  | kill next sent =>
    cases sent with
    | idle => exact kept.failed failed
    | gone selected reaped => simpa [knownEnds,reaped,Gone] using known w .kill allowed
    | sent selected present => simp at failed
  | call => exact kept.failed failed
  | report t => exact kept.failed failed

end

theorem Kept.put {w : World Kernel} (kept : Kept w) (t : Nat) (task : Task)
    (stopped : w.outside.stopped t = true) : Kept {w with outside := w.outside.put t task} := by
  have present := stopped_present _ _ stopped
  refine ⟨kept.rooted.put t task present,?_⟩
  intro failed
  exact absurd ((gone_iff _).mp (kept.failed failed) t) present

/-- An end that was read is the end of a thread the loop knows, or has been the last one. -/
def EndKnown (pid status : Nat) (w : World Kernel) : Prop :=
  (wIfExited status || wIfSignaled status) = true → pid ∈ w.runner.childThreads ∨ Gone w.outside

theorem endKnown_stable {allows : World Kernel → Ev → Bool} (pid status : Nat) :
    Stable (environment allows) (EndKnown pid status) := by
  intro w event allowed known isOver
  rw [(step_runner w event).1]
  exact (known isOver).imp_right (gone_stable w event allowed)

def LastEnd (status : Nat) (w : World Kernel) : Prop :=
  (wIfExited status || wIfSignaled status) = true → Gone w.outside

theorem lastEnd_stable {allows : World Kernel → Ev → Bool} (status : Nat) :
    Stable (environment allows) (LastEnd status) := by
  intro w event allowed last isOver
  exact gone_stable w event allowed (last isOver)

theorem why_no_end (why : Why) : (wIfExited why.status || wIfSignaled why.status) = false := by
  have alive := stopped_not_ended why.status (why_stopped why)
  rw [alive.1,alive.2]
  rfl

theorem reads (w : World Kernel) (pid status : Nat) (kept : Kept w)
    (allowed : knownEnds w (.report pid) = true) (pending : w.outside.pending pid = some status) :
    Kept {w with outside := w.outside.reap pid} ∧ EndKnown pid status {w with outside := w.outside.reap pid} := by
  have rooted := kept.rooted.reap pid status pending
  obtain ⟨why,stop,shown,alive⟩ | ⟨how,dead,shown,last⟩ := pending_cases w.outside pid status pending
  · have present : w.outside.task pid ≠ none := by simp [stop]
    rw [reap_stopped w.outside pid why false stop] at rooted ⊢
    refine ⟨⟨rooted,?_⟩,?_⟩
    · intro failed
      exact absurd ((gone_iff _).mp (kept.failed failed) pid) present
    · intro isOver
      rw [shown,why_no_end] at isOver
      simp at isOver
  · have present : w.outside.task pid ≠ none := by simp [dead]
    rw [reap_dead w.outside pid how dead] at rooted ⊢
    refine ⟨⟨rooted,?_⟩,?_⟩
    · intro failed
      exact absurd ((gone_iff _).mp (kept.failed failed) pid) present
    · intro isOver
      have known : pid = w.runner.childPID ∨ pid ∈ w.runner.childThreads := by
        simpa [knownEnds,dead] using allowed
      obtain leader | thread := known
      · right
        change (w.outside.tasks.erase pid).keys = ∅
        rw [Finmap.keys_erase,last (leader.trans kept.rooted.leads.symm),Finset.erase_singleton]
      · exact .inl thread

theorem loopProof {allows : World Kernel → Ev → Bool} (known : ∀ w event, allows w event = true → knownEnds w event = true) :
    LoopProof allows (fun _ => True) Kept
      (fun pid status w => Kept w ∧ EndKnown pid status w)
      (fun _ status w => Kept w ∧ LastEnd status w) where
  waits := trivial
  childless := trivial
  stable := kept_stable known
  midStable pid status := (kept_stable known).and (endKnown_stable pid status)
  reads w pid status kept allowed pending := reads w pid status kept (known w _ allowed) pending
  asks w pid status both clone := by
    split
    next new _ =>
      refine ⟨⟨⟨both.1.rooted.leads,both.1.rooted.rooted⟩,both.1.failed⟩,?_⟩
      intro isOver
      exact (both.2 isOver).imp_left Finset.mem_insert_of_mem
    next => trivial
  created w pid status both clone := by
    split
    next stopped => exact both.1.put _ _ stopped
    next => trivial
  continued w pid status both noClone member stop := by
    split
    next stopped => exact both.1.put _ _ stopped
    next => trivial
  ended w pid status both noClone member isOver := ⟨⟨both.1.rooted.leads,both.1.rooted.rooted⟩,both.1.failed⟩
  returned w pid status both noClone skips := by
    refine ⟨both.1,?_⟩
    intro isOver
    obtain member | gone := both.2 isOver
    · have never := skips member
      rw [isThreadState,isOver,Bool.or_true] at never
      simp at never
    · exact gone

theorem gone_doomed (w : World Kernel) (rooted : Rooted w) (gone : Gone w.outside) :
    Doomed w.runner.childPID w := ⟨rooted,rooted.leads,.inr gone⟩

section
variable {allows : World Kernel → Ev → Bool} (replies : Replies) (fuel : Nat)

theorem state_over (status : Nat) (state : ExitState) (judged : getWaitPidExitState status = .ok state)
    (isOver : state.type = .exited ∨ state.type = .signaled) :
    (wIfExited status || wIfSignaled status) = true := by
  rw [getWaitPidExitState] at judged
  split at judged
  next exited => simp [exited]
  next =>
    split at judged
    next signaled => simp [signaled]
    next =>
      split at judged
      · cases judged
        simp at isOver
      · simp at judged

theorem stoppedBy_triple (status : Nat) :
    Triple (fun _ => True)
      (fun w => Attached (now w) ∧ LastEnd status (now w))
      (stoppedBy (os allows replies) fuel status)
      fun stopped w => if stopped then Attached (now w) else Gone (now w).outside := by
  have judged : Triple (fun _ => True)
      (fun w => Attached (now w) ∧ LastEnd status (now w))
      (liftM (getWaitPidExitState status) : Prog Halt (World Timeline) ExitState)
      fun childState w => Attached (now w) ∧
        (childState.type = .exited ∨ childState.type = .signaled → Gone (now w).outside) := by
    refine Triple.lift _ _ (fun w childState both same => ⟨both.1,?_⟩) fun _ _ _ _ => trivial
    intro isOver
    exact both.2 (state_over status childState same isOver)
  refine Triple.bind judged fun childState => ?_
  obtain ⟨type,val⟩ := childState
  cases type with
  | invalid => exact Triple.throw _ fun _ _ => trivial
  | exited => exact Triple.pure _ fun _ both => both.2 (.inl rfl)
  | stopped => exact Triple.pure _ fun _ both => both.1
  | signaled =>
    refine Triple.bind Triple.get fun seen => ?_
    refine Triple.bind ((ptraceKill_triple replies seen.runner.childPID).weaken ?_ fun _ _ doomed => doomed) fun _ => ?_
    · rintro _ ⟨rfl,attached,isOver⟩
      exact gone_doomed (now seen) attached.rooted (isOver (.inr rfl))
    · exact Triple.bind (cleanup_triple replies _ fuel) fun _ => Triple.pure _ fun _ gone => gone

variable (cs : Capstone) (opts : Options) (garbage : Model.AddrSpace.Scanned) (stats : Statistics)

theorem flipOrKill_triple :
    Triple (fun _ => True) (fun w => Attached (now w)) (flipOrKill (os allows replies) cs opts garbage fuel stats)
      fun (result : Bool × Statistics) w => if result.1 then Attached (now w) else Gone (now w).outside := by
  refine Triple.bind Triple.get fun seen => ?_
  refine Triple.bind ((doBitFlip_attached replies cs opts garbage _).weaken (fun _ both => both.2)
    fun _ _ attached => attached) fun flipped => ?_
  cases flipped with
  | true => exact Triple.pure _ fun _ attached => attached
  | false =>
    have counted : Triple (fun _ => True) (fun w => Attached (now w))
        (liftM (stats.incr .injFailed) : Prog Halt (World Timeline) Statistics) fun _ w => Attached (now w) :=
      Triple.lift _ _ (fun _ _ attached _ => attached) fun _ _ _ _ => trivial
    refine Triple.bind counted fun stats => ?_
    refine Triple.bind Triple.get fun seen => ?_
    refine Triple.bind ((killSafe_triple replies seen.runner.childPID).weaken ?_ fun _ _ doomed => doomed)
      fun _ => ?_
    · rintro _ ⟨rfl,attached⟩
      exact ⟨attached.rooted,rfl⟩
    · exact Triple.bind (cleanup_triple replies _ fuel) fun _ => Triple.pure _ fun _ gone => gone

variable (known : ∀ w event, allows w event = true → knownEnds w event = true)
include known

theorem stopChildAfter_triple :
    Triple (fun _ => True) (fun w => Kept (now w)) (stopChildAfter (os allows replies) fuel)
      fun stopped w => if stopped then Attached (now w) else Gone (now w).outside := by
  have spawned : Triple (fun _ => True) (fun w => Kept (now w)) (os allows replies).sleepAndKillThread
      fun _ w => Kept (now w) := by
    refine call_triple (fun _ w => Kept w) trivial (kept_stable known) ?_
    intro w kept
    exact ⟨⟨kept.rooted.leads,kept.rooted.rooted⟩,by simp [onKernel]⟩
  refine Triple.bind spawned fun _ => ?_
  refine Triple.bind ((loopProof known).loop fuel) fun data => ?_
  obtain ⟨pid,status⟩ := data
  have join : Triple (fun _ => True) (fun w => Kept (now w) ∧ LastEnd status (now w))
      (os allows replies).join fun killSuccess w =>
        if killSuccess then Attached (now w) ∧ LastEnd status (now w) else Gone (now w).outside := by
    refine join_triple replies (fun (killSuccess : Bool) w =>
      if killSuccess then Attached w ∧ LastEnd status w else Gone w.outside) trivial
      ((kept_stable known).and (lastEnd_stable status)) ?_
    rintro w ret ⟨kept,last⟩ past
    cases ret with
    | true => exact ⟨⟨⟨kept.rooted.leads,kept.rooted.rooted⟩,rfl⟩,last⟩
    | false => exact kept.failed past
  refine Triple.bind join fun killSuccess => ?_
  cases killSuccess with
  | false => exact Triple.pure _ fun _ gone => gone
  | true => exact stoppedBy_triple replies fuel status

theorem attempt_triple :
    Triple (fun _ => True) (fun w => Kept (now w))
      (tryInjectFaultAt (os allows replies) cs opts garbage fuel stats)
      fun (result : Bool × Statistics) w => if result.1 then Attached (now w) else Gone (now w).outside := by
  refine Triple.bind (stopChildAfter_triple replies fuel known) fun stopped => ?_
  cases stopped with
  | true => exact flipOrKill_triple replies fuel cs opts garbage stats
  | false =>
    have counted : Triple (fun _ => True) (fun w => Gone (now w).outside)
        (liftM (stats.incr .injFailed) : Prog Halt (World Timeline) Statistics) fun _ w => Gone (now w).outside :=
      Triple.lift _ _ (fun _ _ gone _ => gone) fun _ _ _ _ => trivial
    exact Triple.bind counted fun _ => Triple.pure _ fun _ gone => gone

end

theorem tryInjectFaultAt_triple (replies : Replies) (fuel : Nat) (cs : Capstone) (opts : Options)
    (garbage : Model.AddrSpace.Scanned) (stats : Statistics) :
    Triple (fun _ => True) (fun w => Kept (now w))
      (tryInjectFaultAt (os knownEnds replies) cs opts garbage fuel stats)
      fun (result : Bool × Statistics) w => result.1 = false → Gone (now w).outside := by
  refine (attempt_triple replies fuel cs opts garbage stats fun _ _ allowed => allowed).weaken (fun _ kept => kept) ?_
  intro result w holds failed
  rwa [failed] at holds

theorem afterRun_kept (leader inject : Nat) (future : List Ev) : Kept (now (afterRun leader inject future)) := by
  refine ⟨⟨rfl,.inr ?_⟩,by simp [now,afterRun]⟩
  rw [afterRun_task]
  simp [now,afterRun]

/-- For every process, every schedule, every reply of the kernel and every way to fail: no
thread of a failed attempt is left, dead or alive. -/
theorem tryInjectFaultAt_cleans (replies : Replies) (cs : Capstone) (opts : Options)
    (garbage : Model.AddrSpace.Scanned) (fuel : Nat) (stats stats' : Statistics) (leader inject : Nat)
    (future : List Ev) (w' : World Timeline)
    (ran : exec (tryInjectFaultAt (os knownEnds replies) cs opts garbage fuel stats)
      (afterRun leader inject future) = (.ok (false,stats'),w')) : Gone w'.outside.kernel :=
  (tryInjectFaultAt_triple replies fuel cs opts garbage stats).ok (afterRun_kept leader inject future) ran rfl

def readable : Replies := {noReplies with
  getRegs := fun _ _ => some fun _ => 0
  peekText := fun _ _ _ => 0
  maps := fun _ _ => some []}

def noInstructions : Capstone := ⟨fun _ => none,fun _ => ""⟩

def refused : List Ev :=
  [.call,.wake 0,.kill,.move (.takeTrap 7),.report 7,.call] ++ List.replicate 19 .call ++
    [.call,.call,.move (.die 7),.report 7,.call]

theorem failed_run (program : Prog Halt (World Timeline) (Bool × Statistics)) (w : World Timeline)
    (failed : ((exec program w).1.map Prod.fst).toOption = some false) :
    ∃ stats' w', exec program w = (.ok (false,stats'),w') := by
  cases run : exec program w with
  | mk outcome w' =>
    rw [run] at failed
    cases outcome with
    | error halt => simp [Except.map,Except.toOption] at failed
    | ok result =>
      obtain ⟨done,stats'⟩ := result
      obtain rfl : done = false := by simpa [Except.map,Except.toOption] using failed
      exact ⟨stats',w',rfl⟩

theorem refused_cleaned : ∃ stats' w',
    exec (tryInjectFaultAt (os knownEnds readable) noInstructions {} ⟨0,0,[]⟩ 2 Statistics.zero)
      (afterRun 7 0 refused) = (.ok (false,stats'),w') ∧ Gone w'.outside.kernel := by
  obtain ⟨stats',w',ran⟩ := failed_run (tryInjectFaultAt (os knownEnds readable) noInstructions {} ⟨0,0,[]⟩ 2
    Statistics.zero) (afterRun 7 0 refused) (by decide +kernel)
  exact ⟨stats',w',ran,tryInjectFaultAt_cleans readable noInstructions {} ⟨0,0,[]⟩ 2 Statistics.zero stats' 7 0
    refused w' ran⟩

/-- The second thread of the tool picks the thread 8, which ends and is reaped before the
kill(); then process 7 is stopped by its alarm. -/
def reaped : List Ev :=
  [.call,.move (.clone 7 8),.report 7,.call,.call,.move (.start 8),.report 8,.call,.wake 1,
    .move (.exit 8 exitSuccess),.report 8,.kill,.move (.stop 7 Signal.alrm),.report 7,.call]

theorem reaped_left : ∃ stats' w',
    exec (tryInjectFaultAt (os unrestricted noReplies) noInstructions {} ⟨0,0,[]⟩ 4 Statistics.zero)
      (afterRun 7 0 reaped) = (.ok (false,stats'),w') ∧ ¬ Gone w'.outside.kernel := by
  obtain ⟨stats',w',ran⟩ := failed_run (tryInjectFaultAt (os unrestricted noReplies) noInstructions {} ⟨0,0,[]⟩ 4
    Statistics.zero) (afterRun 7 0 reaped) (by decide +kernel)
  have left : (exec (tryInjectFaultAt (os unrestricted noReplies) noInstructions {} ⟨0,0,[]⟩ 4 Statistics.zero)
      (afterRun 7 0 reaped)).2.outside.kernel.task 7 = some (.stopped (.signal Signal.alrm) true) := by
    decide +kernel
  refine ⟨stats',w',ran,?_⟩
  intro gone
  rw [ran,(gone_iff _).mp gone 7] at left
  simp at left

end Zofi.Cleanup
