import Zofi.Lib.Transitions
import Mathlib.Data.List.Nodup
import Mathlib.Data.List.Perm.Subperm
import Mathlib.Data.List.Range

/-! A pool that starts numbered jobs in their order, at most `limit` of them at a time, and
collects a finished one only when it can start no other. The orders in which it can collect
its jobs are exactly those in which the job collected behind k others is one of the first
`limit` + k. -/
namespace Zofi.JobPool
open Transitions

inductive Event
  | start (job : Nat)
  | finish (job : Nat)
  deriving DecidableEq, Repr

structure Pool where
  started : Nat := 0
  finished : List Nat := []

def Full (limit total : Nat) (pool : Pool) : Prop :=
  pool.started = total ∨ pool.started = pool.finished.length + limit

inductive Step (limit total : Nat) : Pool → Event → Pool → Prop
  | start (pool : Pool) (room : ¬ Full limit total pool) :
      Step limit total pool (.start pool.started) {pool with started := pool.started + 1}
  | finish (pool : Pool) (job : Nat) (full : Full limit total pool) (began : job < pool.started)
      (running : job ∉ pool.finished) :
      Step limit total pool (.finish job) {pool with finished := pool.finished ++ [job]}

structure Kept (limit total : Nat) (pool : Pool) : Prop where
  upTo : pool.started ≤ total
  atMost : pool.started ≤ pool.finished.length + limit
  once : pool.finished.Nodup
  began : ∀ job ∈ pool.finished, job < pool.started
  inTurn : ∀ k (low : k < pool.finished.length), pool.finished[k] < limit + k

theorem step_kept (limit total : Nat) (pool next : Pool) (event : Event) (kept : Kept limit total pool)
    (step : Step limit total pool event next) : Kept limit total next := by
  obtain ⟨upTo,atMost,once,began,inTurn⟩ := kept
  cases step with
  | start room =>
    rw [Full,not_or] at room
    refine ⟨by dsimp only; omega,by dsimp only; omega,once,?_,inTurn⟩
    intro job member
    exact Nat.lt_succ_of_lt (began job member)
  | finish job full low running =>
    refine ⟨upTo,?_,?_,?_,?_⟩
    · rw [List.length_append]
      dsimp only [List.length_singleton]
      omega
    · rw [List.nodup_append_comm,List.singleton_append,List.nodup_cons]
      exact ⟨running,once⟩
    · intro other member
      rcases List.mem_append.mp member with old | new
      · exact began other old
      · exact List.mem_singleton.mp new ▸ low
    · intro k bound
      dsimp only at bound ⊢
      rw [List.length_append,List.length_singleton] at bound
      rw [List.getElem_append]
      split
      · exact inTurn k _
      · have last : k = pool.finished.length := by omega
        simp only [List.getElem_singleton]
        omega

theorem run_kept (limit total : Nat) (events : List Event) (pool : Pool)
    (run : Run (Step limit total) {} events pool) : Kept limit total pool := by
  refine Run.invariant (fun _ pool => Kept limit total pool) ?_ ?_ run
  · exact ⟨Nat.zero_le _,Nat.zero_le _,List.nodup_nil,by simp,by simp⟩
  · intro _ pool event next kept step
    exact step_kept limit total pool next event kept step

theorem Kept.full_running {limit total : Nat} {pool : Pool} (kept : Kept limit total pool)
    (full : Full limit total pool) :
    pool.started - pool.finished.length = min limit (total - pool.finished.length) := by
  have upTo := kept.upTo
  have atMost := kept.atMost
  rcases full with all | busy <;> omega

theorem Kept.perm_range {limit total : Nat} {pool : Pool} (kept : Kept limit total pool)
    (all : pool.finished.length = total) : pool.finished.Perm (List.range total) := by
  have inside : pool.finished ⊆ List.range total := fun job member =>
    List.mem_range.mpr ((kept.began job member).trans_le kept.upTo)
  exact (kept.once.subperm inside).perm_of_length_le (by rw [List.length_range,all])

theorem run_fill (limit total : Nat) (finished : List Nat) (started goal : Nat) (low : started ≤ goal)
    (upTo : goal ≤ total) (atMost : goal ≤ finished.length + limit) :
    ∃ events, Run (Step limit total) ⟨started,finished⟩ events ⟨goal,finished⟩ := by
  induction goal, low using Nat.le_induction with
  | base => exact ⟨[],.nil⟩
  | succ goal low ih =>
    obtain ⟨events,run⟩ := ih (by omega) (by omega)
    have room : ¬ Full limit total ⟨goal,finished⟩ := by
      rintro (all | busy) <;> dsimp only at * <;> omega
    exact ⟨_,.snoc _ _ _ _ run (.start _ room)⟩

/-- One job of the order after the other: when the first `done` of them are collected, the
next one is running, since it is one of the first `done` + `limit`. -/
theorem run_order (limit total : Nat) (order : List Nat) (all : order.Perm (List.range total))
    (inTurn : ∀ k (low : k < order.length), order[k] < limit + k) (done : Nat) (some : done ≤ total) :
    ∃ events, Run (Step limit total) {} events ⟨min total (done + limit),order.take done⟩ := by
  have size : order.length = total := by simpa using all.length_eq
  induction done with
  | zero => exact run_fill limit total [] 0 _ (Nat.zero_le _) (Nat.min_le_left _ _) (by dsimp only [List.length_nil]; omega)
  | succ done ih =>
    obtain ⟨events,run⟩ := ih (by omega)
    have low : done < order.length := by omega
    have known : order[done] < total := List.mem_range.mp (all.mem_iff.mp (List.getElem_mem low))
    have turn := inTurn done low
    have taken : (order.take done).length = done := by rw [List.length_take]; omega
    have full : Full limit total ⟨min total (done + limit),order.take done⟩ := by
      rw [Full,taken]
      dsimp only
      omega
    have running : order[done] ∉ order.take done := by
      intro early
      obtain ⟨k,before,same⟩ := List.mem_iff_getElem.mp early
      rw [List.getElem_take] at same
      rw [taken] at before
      have same := (all.nodup_iff.mpr List.nodup_range).getElem_inj_iff.mp same
      omega
    have collect := Run.snoc _ _ _ _ run (.finish _ order[done] full (by dsimp only; omega) running)
    dsimp only at collect
    rw [← List.take_succ_eq_append_getElem low] at collect
    have next : (order.take (done + 1)).length = done + 1 := by rw [List.length_take]; omega
    obtain ⟨more,fill⟩ := run_fill limit total (order.take (done + 1)) (min total (done + limit))
      (min total (done + 1 + limit)) (by omega) (Nat.min_le_left _ _) (by omega)
    exact ⟨_,collect.trans fill⟩

theorem orders_iff (limit total : Nat) (order : List Nat) :
    (∃ events pool, Run (Step limit total) {} events pool ∧ pool.finished.length = total ∧ pool.finished = order) ↔
      order.Perm (List.range total) ∧ ∀ k (low : k < order.length), order[k] < limit + k := by
  constructor
  · rintro ⟨events,pool,run,all,rfl⟩
    have kept := run_kept limit total events pool run
    exact ⟨kept.perm_range all,kept.inTurn⟩
  · rintro ⟨all,inTurn⟩
    obtain ⟨events,run⟩ := run_order limit total order all inTurn total le_rfl
    have size : order.length = total := by simpa using all.length_eq
    rw [List.take_of_length_le size.le] at run
    exact ⟨events,_,run,size,rfl⟩

end Zofi.JobPool
