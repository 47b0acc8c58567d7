import Mathlib.Algebra.BigOperators.Intervals
import Mathlib.Algebra.Group.Action.Defs
import Mathlib.Algebra.Order.BigOperators.Group.Finset
import Mathlib.Data.Int.CardIntervalMod

/-! How the numbers below a bound spread over the residues: no residue gets more than one
number more than another. -/
namespace Zofi.Residues

def leaving (bound n : Nat) (chosen : Nat → Prop) [DecidablePred chosen] : Finset Nat :=
  (Finset.range bound).filter fun value => chosen (value % n)

theorem card_residue (bound n r : Nat) (low : r < n) :
    ((Finset.range bound).filter (· % n = r)).card = bound / n + if r < bound % n then 1 else 0 := by
  have count := Nat.count_modEq_card bound (r := n) (by omega) r
  rw [Nat.count_eq_card_filter_range,Nat.mod_eq_of_lt low] at count
  rw [← count]
  refine congrArg Finset.card (Finset.filter_congr fun value _ => ?_)
  rw [Nat.ModEq,Nat.mod_eq_of_lt low]

theorem ceiling (bound n r : Nat) (low : r < n) :
    (bound / n + if r < bound % n then 1 else 0) ≤ (bound + n - 1) / n := by
  have positive : 0 < n := by omega
  split
  · next less =>
    rw [Nat.le_div_iff_mul_le positive,Nat.add_mul,Nat.one_mul]
    have parts := Nat.div_add_mod' bound n
    omega
  · rw [Nat.add_zero]
    exact Nat.div_le_div_right (by omega)

theorem card_leaving (bound n : Nat) (positive : 0 < n) (chosen : Nat → Prop) [DecidablePred chosen] :
    (leaving bound n chosen).card =
      ∑ r ∈ (Finset.range n).filter chosen, (bound / n + if r < bound % n then 1 else 0) := by
  have maps : ∀ value ∈ leaving bound n chosen, value % n ∈ (Finset.range n).filter chosen := by
    intro value member
    exact Finset.mem_filter.mpr ⟨Finset.mem_range.mpr (Nat.mod_lt _ positive),(Finset.mem_filter.mp member).2⟩
  rw [Finset.card_eq_sum_card_fiberwise maps]
  refine Finset.sum_congr rfl fun r member => ?_
  obtain ⟨low,selected⟩ := Finset.mem_filter.mp member
  rw [← card_residue bound n r (Finset.mem_range.mp low),leaving,Finset.filter_filter]
  refine congrArg Finset.card (Finset.filter_congr fun value _ => ?_)
  constructor
  · exact fun both => both.2
  · intro same
    exact ⟨same ▸ selected,same⟩

/-- Between the floor and the ceiling of an equal share for each residue. -/
theorem card_leaving_between (bound n : Nat) (positive : 0 < n) (chosen : Nat → Prop) [DecidablePred chosen] :
    ((Finset.range n).filter chosen).card * (bound / n) ≤ (leaving bound n chosen).card ∧
      (leaving bound n chosen).card ≤ ((Finset.range n).filter chosen).card * ((bound + n - 1) / n) := by
  rw [card_leaving bound n positive]
  constructor
  · rw [← smul_eq_mul]
    exact Finset.card_nsmul_le_sum _ _ _ fun r _ => Nat.le_add_right _ _
  · rw [← smul_eq_mul]
    refine Finset.sum_le_card_nsmul _ _ _ fun r member => ?_
    exact ceiling bound n r (Finset.mem_range.mp (Finset.mem_filter.mp member).1)

theorem card_positions {α : Type} [DecidableEq α] (items : List α) (x : α) :
    ((Finset.range items.length).filter fun i => items[i]? = some x).card = items.count x := by
  induction items with
  | nil => rfl
  | cons item items ih =>
    rw [Finset.card_filter] at ih
    rw [Finset.card_filter,List.length_cons,Finset.sum_range_succ',List.count_cons,← ih]
    simp only [List.getElem?_cons_succ,List.getElem?_cons_zero,Option.some.injEq,beq_iff_eq]

end Zofi.Residues
