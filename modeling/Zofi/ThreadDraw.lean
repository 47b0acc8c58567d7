import Zofi.Model.Wait

/-! What `getRandomChildThreadPID` chooses: each residue of the draw is the one of one thread. -/
namespace Zofi.ThreadDraw
open Model.Utils Model.Wait

/-- The values of the count that the loop compares with zero. -/
def compared : List Nat → Nat → List Nat
  | [],_ => []
  | _ :: rest,randomCnt =>
    randomCnt :: if randomCnt = 0 then [] else compared rest ((randomCnt + 2^32 - 1) % 2^32)

theorem counted_down (randomCnt : Nat) (small : randomCnt + 1 < 2^32) :
    (randomCnt + 1 + 2^32 - 1) % 2^32 = randomCnt := by omega

theorem pickChildThread_getElem (threads : List Nat) (randomCnt : Nat) (small : randomCnt < 2^32)
    (inside : randomCnt < threads.length) : pickChildThread threads randomCnt = .ok threads[randomCnt] := by
  induction threads generalizing randomCnt with
  | nil => cases inside
  | cons childThreadPID rest ih =>
    cases randomCnt with
    | zero => rfl
    | succ randomCnt =>
      rw [pickChildThread,if_neg (Nat.succ_ne_zero randomCnt),counted_down randomCnt small]
      exact ih randomCnt (by omega) (Nat.lt_of_succ_lt_succ inside)

theorem compared_countdown (threads : List Nat) (randomCnt : Nat) (small : randomCnt < 2^32)
    (inside : randomCnt < threads.length) : compared threads randomCnt = (List.range (randomCnt + 1)).reverse := by
  induction threads generalizing randomCnt with
  | nil => cases inside
  | cons childThreadPID rest ih =>
    rw [compared,List.range_succ,List.reverse_append,List.reverse_singleton,List.singleton_append]
    cases randomCnt with
    | zero => rfl
    | succ randomCnt =>
      rw [if_neg (Nat.succ_ne_zero randomCnt),counted_down randomCnt small]
      rw [ih randomCnt (by omega) (Nat.lt_of_succ_lt_succ inside)]

/-- A set of values of `pid_t` is too small for its size to leave an unsigned. -/
theorem size_unsigned (childThreads : Finset Nat) (pids : ∀ pid ∈ childThreads, pid < 2^31) :
    childThreads.card + 1 < 2^32 := by
  have range : childThreads ⊆ Finset.range (2^31) := fun pid member => Finset.mem_range.mpr (pids pid member)
  have size := Finset.card_le_card range
  rw [Finset.card_range] at size
  omega

theorem draw_residue (runner : RunnerBase) (pids : ∀ pid ∈ runner.childThreads, pid < 2^31) (rand : Nat) :
    getRandomChildThreadPID runner rand =
      match rand % (runner.childThreads.card + 1) with
      | 0 => .ok runner.childPID
      | randomCnt + 1 => pickChildThread (runner.childThreads.sort (· ≤ ·)) randomCnt := by
  have size := size_unsigned runner.childThreads pids
  have below := Nat.mod_lt rand (Nat.succ_pos runner.childThreads.card)
  rw [getRandomChildThreadPID,Nat.mod_eq_of_lt size,randSafe,if_neg (Nat.succ_ne_zero _)]
  cases residue : rand % (runner.childThreads.card + 1) with
  | zero => rfl
  | succ randomCnt =>
    rw [residue] at below
    rw [if_neg (Nat.succ_ne_zero randomCnt),counted_down randomCnt (by omega)]

theorem draw_child (runner : RunnerBase) (pids : ∀ pid ∈ runner.childThreads, pid < 2^31) :
    getRandomChildThreadPID runner 0 = .ok runner.childPID := by
  rw [draw_residue runner pids,Nat.zero_mod]

theorem draw_thread (runner : RunnerBase) (pids : ∀ pid ∈ runner.childThreads, pid < 2^31) (randomCnt : Nat)
    (inside : randomCnt < (runner.childThreads.sort (· ≤ ·)).length) :
    getRandomChildThreadPID runner (randomCnt + 1) = .ok (runner.childThreads.sort (· ≤ ·))[randomCnt] := by
  have size := size_unsigned runner.childThreads pids
  have length := Finset.length_sort (s := runner.childThreads) (· ≤ ·)
  have same : (randomCnt + 1) % (runner.childThreads.card + 1) = randomCnt + 1 := Nat.mod_eq_of_lt (by omega)
  rw [draw_residue runner pids,same]
  exact pickChildThread_getElem _ randomCnt (by omega) inside

theorem draw_mod (runner : RunnerBase) (pids : ∀ pid ∈ runner.childThreads, pid < 2^31) (rand : Nat) :
    getRandomChildThreadPID runner rand =
      getRandomChildThreadPID runner (rand % (runner.childThreads.card + 1)) := by
  rw [draw_residue runner pids rand,draw_residue runner pids,Nat.mod_mod]

theorem drawn_cases (runner : RunnerBase) (pids : ∀ pid ∈ runner.childThreads, pid < 2^31) (residue : Nat)
    (inside : residue ≤ runner.childThreads.card) :
    (residue = 0 ∧ getRandomChildThreadPID runner residue = .ok runner.childPID) ∨
      ∃ randomCnt, residue = randomCnt + 1 ∧ ∃ found : randomCnt < (runner.childThreads.sort (· ≤ ·)).length,
        getRandomChildThreadPID runner residue = .ok (runner.childThreads.sort (· ≤ ·))[randomCnt] := by
  cases residue with
  | zero => exact .inl ⟨rfl,draw_child runner pids⟩
  | succ randomCnt =>
    have found : randomCnt < (runner.childThreads.sort (· ≤ ·)).length := by
      rw [Finset.length_sort]
      exact inside
    exact .inr ⟨randomCnt,rfl,found,draw_thread runner pids randomCnt found⟩

theorem residue_unique (runner : RunnerBase) (fresh : runner.childPID ∉ runner.childThreads)
    (pids : ∀ pid ∈ runner.childThreads, pid < 2^31) (one two pid : Nat) (first : one ≤ runner.childThreads.card)
    (second : two ≤ runner.childThreads.card) (chose : getRandomChildThreadPID runner one = .ok pid)
    (same : getRandomChildThreadPID runner two = .ok pid) : one = two := by
  have thread : ∀ randomCnt (found : randomCnt < (runner.childThreads.sort (· ≤ ·)).length),
      (runner.childThreads.sort (· ≤ ·))[randomCnt] ≠ runner.childPID := by
    intro randomCnt found equal
    apply fresh
    rw [← equal,← Finset.mem_sort (· ≤ ·)]
    exact List.getElem_mem found
  rcases drawn_cases runner pids one first with ⟨rfl,main⟩ | ⟨i,rfl,left,picked⟩
  · cases main.symm.trans chose
    rcases drawn_cases runner pids two second with ⟨rfl,_⟩ | ⟨j,rfl,right,other⟩
    · rfl
    · exact absurd (Except.ok.inj (other.symm.trans same)) (thread j right)
  · rcases drawn_cases runner pids two second with ⟨rfl,main⟩ | ⟨j,rfl,right,other⟩
    · cases main.symm.trans same
      exact absurd (Except.ok.inj (picked.symm.trans chose)) (thread i left)
    · have equal := Except.ok.inj ((picked.symm.trans chose).trans (other.symm.trans same).symm)
      rw [(Finset.sort_nodup _ _).getElem_inj_iff.mp equal]

theorem exists_residue (runner : RunnerBase) (pids : ∀ pid ∈ runner.childThreads, pid < 2^31) (pid : Nat)
    (member : pid ∈ insert runner.childPID runner.childThreads) :
    ∃ residue, residue ≤ runner.childThreads.card ∧ getRandomChildThreadPID runner residue = .ok pid := by
  rcases Finset.mem_insert.mp member with rfl | member
  · exact ⟨0,Nat.zero_le _,draw_child runner pids⟩
  · rw [← Finset.mem_sort (· ≤ ·)] at member
    obtain ⟨randomCnt,found,rfl⟩ := List.getElem_of_mem member
    refine ⟨randomCnt + 1,?_,draw_thread runner pids randomCnt found⟩
    rw [Finset.length_sort] at found
    exact found

structure DrawsEach (runner : RunnerBase) : Prop where
  residue : ∀ rand, getRandomChildThreadPID runner rand =
    getRandomChildThreadPID runner (rand % (runner.childThreads.card + 1))
  chosen : ∀ rand, ∃ pid ∈ insert runner.childPID runner.childThreads, getRandomChildThreadPID runner rand = .ok pid
  each : ∀ pid ∈ insert runner.childPID runner.childThreads,
    ∃! residue, residue ≤ runner.childThreads.card ∧ getRandomChildThreadPID runner residue = .ok pid
  unwrapped : ∀ rand randomCnt, rand % (runner.childThreads.card + 1) = randomCnt + 1 →
    getRandomChildThreadPID runner rand = pickChildThread (runner.childThreads.sort (· ≤ ·)) randomCnt ∧
      compared (runner.childThreads.sort (· ≤ ·)) randomCnt = (List.range (randomCnt + 1)).reverse

theorem draws_each (runner : RunnerBase) (fresh : runner.childPID ∉ runner.childThreads)
    (pids : ∀ pid ∈ runner.childThreads, pid < 2^31) : DrawsEach runner where
  residue := draw_mod runner pids
  chosen := by
    intro rand
    rw [draw_mod runner pids rand]
    have inside := Nat.le_of_lt_succ (Nat.mod_lt rand (Nat.succ_pos runner.childThreads.card))
    rcases drawn_cases runner pids _ inside with ⟨_,main⟩ | ⟨randomCnt,_,found,picked⟩
    · exact ⟨_,Finset.mem_insert_self _ _,main⟩
    · refine ⟨_,Finset.mem_insert_of_mem ?_,picked⟩
      rw [← Finset.mem_sort (· ≤ ·)]
      exact List.getElem_mem found
  each := by
    intro pid member
    obtain ⟨residue,inside,picked⟩ := exists_residue runner pids pid member
    refine ⟨residue,⟨inside,picked⟩,?_⟩
    rintro other ⟨within,same⟩
    exact residue_unique runner fresh pids other residue pid within inside same picked
  unwrapped := by
    intro rand randomCnt residue
    have size := size_unsigned runner.childThreads pids
    have below := Nat.mod_lt rand (Nat.succ_pos runner.childThreads.card)
    rw [residue] at below
    refine ⟨by rw [draw_residue runner pids,residue],compared_countdown _ randomCnt (by omega) ?_⟩
    rw [Finset.length_sort]
    exact Nat.lt_of_succ_lt_succ below

theorem draws_each_of_two : DrawsEach {childPID := 100,childThreads := {101,103}} :=
  draws_each {childPID := 100,childThreads := {101,103}} (by decide) (by decide)

end Zofi.ThreadDraw
