import Mathlib.Data.List.GetD
import Mathlib.Tactic.Common

/-! Words put together from their bytes, least significant first. -/
namespace Zofi.Words

variable {w : Nat}

def word (w : Nat) (bytes : List (BitVec 8)) : BitVec w :=
  bytes.foldr (fun byte word => (word <<< 8) ||| byte.setWidth w) 0

theorem word_cons (byte : BitVec 8) (bytes : List (BitVec 8)) :
    word w (byte :: bytes) = (word w bytes <<< 8) ||| byte.setWidth w := rfl

theorem getLsbD_word (bytes : List (BitVec 8)) (i : Nat) (inside : i < w) :
    (word w bytes).getLsbD i = (bytes.getD (i / 8) 0).getLsbD (i % 8) := by
  induction bytes generalizing i with
  | nil => simp [word]
  | cons byte bytes ih =>
    rw [word_cons,BitVec.getLsbD_or,BitVec.getLsbD_shiftLeft,BitVec.getLsbD_setWidth]
    by_cases first : i < 8
    · simp [first,inside,Nat.div_eq_of_lt first,Nat.mod_eq_of_lt first]
    · have next : i / 8 = (i - 8) / 8 + 1 := by omega
      have within : i % 8 = (i - 8) % 8 := by omega
      rw [ih (i - 8) (by omega),next,within,List.getD_cons_succ,BitVec.getLsbD_of_ge byte i (by omega)]
      simp [first,inside]

theorem word_first (byte : BitVec 8) (bytes : List (BitVec 8)) (wide : 8 ≤ w) :
    (word w (byte :: bytes)).setWidth 8 = byte := by
  apply BitVec.eq_of_getLsbD_eq
  intro i inside
  rw [BitVec.getLsbD_setWidth,getLsbD_word _ i (by omega),Nat.div_eq_of_lt inside,Nat.mod_eq_of_lt inside]
  simp [inside]

theorem word_allOnes_iff (bytes : List (BitVec 8)) (whole : 8 * bytes.length = w) :
    word w bytes = BitVec.allOnes w ↔ ∀ byte ∈ bytes, byte = BitVec.allOnes 8 := by
  constructor
  · intro ones byte member
    obtain ⟨k,below,rfl⟩ := List.getElem_of_mem member
    apply BitVec.eq_of_getLsbD_eq
    intro i inside
    have bit := getLsbD_word bytes (8 * k + i) (by omega : 8 * k + i < w)
    have place : (8 * k + i) / 8 = k := by omega
    have within : (8 * k + i) % 8 = i := by omega
    rw [ones,place,within,List.getD_eq_getElem _ _ below,BitVec.getLsbD_allOnes] at bit
    rw [← bit,BitVec.getLsbD_allOnes]
    simp only [inside,decide_true,decide_eq_true_eq]
    omega
  · intro ones
    apply BitVec.eq_of_getLsbD_eq
    intro i inside
    have place : i / 8 < bytes.length := by omega
    rw [getLsbD_word bytes i inside,List.getD_eq_getElem _ _ place,ones _ (List.getElem_mem place),
      BitVec.getLsbD_allOnes,BitVec.getLsbD_allOnes]
    simp only [inside,decide_true,decide_eq_true_eq]
    omega

end Zofi.Words
