import Mathlib.Order.Basic
import Mathlib.Data.Nat.Find

/-! Attempts at something, up to a number of them: one after the other until the first that
need not be made again. -/
namespace Zofi.Retry

variable {α : Type}

/-- The attempts made when `allowed` of them may be, and whether they were used up. -/
def attempts (again : α → Bool) : (allowed : Nat) → (Nat → α) → List α × Bool
  | 0,_ => ([],true)
  | allowed + 1,next =>
    if again (next 0) then
      let (made,exhausted) := attempts again allowed fun i => next (i + 1)
      (next 0 :: made,exhausted)
    else ([next 0],false)

theorem range_map_succ (next : Nat → α) (n : Nat) :
    (List.range (n + 1)).map next = next 0 :: (List.range n).map fun i => next (i + 1) := by
  rw [List.range_succ_eq_map,List.map_cons,List.map_map]
  rfl

theorem attempts_first (again : α → Bool) (allowed k : Nat) (next : Nat → α) (low : k < allowed)
    (before : ∀ i < k, again (next i) = true) (last : again (next k) = false) :
    attempts again allowed next = ((List.range (k + 1)).map next,false) := by
  induction k generalizing allowed next with
  | zero =>
    obtain ⟨allowed,rfl⟩ : ∃ less, allowed = less + 1 := ⟨allowed - 1,by omega⟩
    simp [attempts,last]
  | succ k ih =>
    obtain ⟨allowed,rfl⟩ : ∃ less, allowed = less + 1 := ⟨allowed - 1,by omega⟩
    have rest := ih allowed (fun i => next (i + 1)) (by omega) (fun i low => before (i + 1) (by omega)) last
    rw [attempts,if_pos (before 0 (by omega)),rest,range_map_succ next (k + 1)]

theorem attempts_exhausted (again : α → Bool) (allowed : Nat) (next : Nat → α)
    (all : ∀ i < allowed, again (next i) = true) :
    attempts again allowed next = ((List.range allowed).map next,true) := by
  induction allowed generalizing next with
  | zero => rfl
  | succ allowed ih =>
    have rest := ih (fun i => next (i + 1)) fun i low => all (i + 1) (by omega)
    rw [attempts,if_pos (all 0 (by omega)),rest,range_map_succ]

theorem first_or_none (again : α → Bool) (allowed : Nat) (next : Nat → α) :
    (∃ k < allowed, (∀ i < k, again (next i) = true) ∧ again (next k) = false) ∨
      ∀ i < allowed, again (next i) = true := by
  by_cases found : ∃ k, k < allowed ∧ again (next k) = false
  · left
    obtain ⟨low,last⟩ := Nat.find_spec found
    refine ⟨Nat.find found,low,?_,last⟩
    intro i less
    have other := Nat.find_min found less
    simpa [less.trans low] using other
  · right
    intro i low
    by_contra last
    exact found ⟨i,low,by simpa using last⟩

end Zofi.Retry
