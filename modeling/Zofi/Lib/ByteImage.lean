import Mathlib.Logic.Function.Basic
import Mathlib.Data.BitVec
import Mathlib.Tactic.Common

/-! Images of words over any index type, and the complement of one of their bits.
An image is read bit by bit, so that "exactly one bit differs" needs no reference
to how the words are stored. -/
namespace Zofi.ByteImage

variable {ι : Type} {w : Nat}

def bit (image : ι → BitVec w) (place : ι × Fin w) : Bool :=
  (image place.1).getLsbD place.2.val

def complement [DecidableEq ι] (image : ι → BitVec w) (place : ι × Fin w) : ι → BitVec w :=
  Function.update image place.1 (image place.1 ^^^ (1#w <<< place.2.val))

def DiffersOnlyAt (before after : ι → BitVec w) (place : ι × Fin w) : Prop :=
  ∀ other, bit before other ≠ bit after other ↔ other = place

theorem getLsbD_mask (k j : Fin w) : (1#w <<< k.val).getLsbD j.val = decide (j = k) := by
  rw [BitVec.getLsbD_shiftLeft,BitVec.getLsbD_one,Bool.eq_iff_iff]
  simp only [Bool.and_eq_true,Bool.not_eq_true',decide_eq_true_eq,decide_eq_false_iff_not,Fin.ext_iff]
  have bound := j.isLt
  omega

theorem bit_complement [DecidableEq ι] (image : ι → BitVec w) (place other : ι × Fin w) :
    bit (complement image place) other = (bit image other ^^ decide (other = place)) := by
  obtain ⟨index,k⟩ := place
  obtain ⟨target,j⟩ := other
  by_cases same : target = index
  · subst target
    simp only [bit,complement,Function.update_self,BitVec.getLsbD_xor,getLsbD_mask,Prod.mk.injEq,
      true_and]
  · simp [bit,complement,same]

theorem complement_other [DecidableEq ι] (image : ι → BitVec w) (place : ι × Fin w) (index : ι)
    (different : index ≠ place.1) : complement image place index = image index :=
  Function.update_of_ne different _ _

theorem complement_complement [DecidableEq ι] (image : ι → BitVec w) (place : ι × Fin w) :
    complement (complement image place) place = image := by
  funext index
  by_cases same : index = place.1
  · subst index
    simp only [complement,Function.update_self,BitVec.xor_assoc,BitVec.xor_self,BitVec.xor_zero]
  · rw [complement_other _ _ _ same,complement_other _ _ _ same]

theorem not_differs_self (image : ι → BitVec w) (place : ι × Fin w) :
    ¬ DiffersOnlyAt image image place := by
  intro differs
  exact (differs place).mpr rfl rfl

end Zofi.ByteImage
