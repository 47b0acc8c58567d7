import Mathlib.Algebra.Order.BigOperators.Group.List
import Mathlib.Algebra.Order.Ring.Nat
import Mathlib.Data.List.Infix
import Mathlib.Data.List.TakeWhile
import Mathlib.Tactic.Common

/-! Numbers in mixed radix: a scale of units, each a multiple of the next, and the digits that a
number has in them. -/
namespace Zofi.MixedRadix

variable {ν : Type}

def Scale : List (Nat × ν) → Prop
  | [] => False
  | [unit] => unit.1 = 1
  | big :: small :: rest => small.1 ∣ big.1 ∧ small.1 < big.1 ∧ Scale (small :: rest)

/-- A digit for each unit, beside the unit; the first one takes what is above it too. -/
def split : List (Nat × ν) → Nat → List (Nat × Nat × ν)
  | [],_ => []
  | unit :: rest,n => (n / unit.1,unit) :: split rest (n % unit.1)

def total (digits : List (Nat × Nat × ν)) : Nat := (digits.map fun digit => digit.1 * digit.2.1).sum

/-- The digits are those of the number from one of the units down, each below the next bigger unit, and the first of
them is not zero. -/
structure Canonical (units : List (Nat × ν)) (n : Nat) (digits : List (Nat × Nat × ν)) : Prop where
  occupied : digits ≠ []
  consecutive : digits.map Prod.snd <:+ units
  total : total digits = n
  bounded : ∀ big small, [big,small] <:+: units → ∀ value, (value,small) ∈ digits → value * small.1 < big.1
  leading : n ≠ 0 → ∀ digit ∈ digits.head?, digit.1 ≠ 0

theorem Scale.tail {unit : Nat × ν} {rest : List (Nat × ν)} (scale : Scale (unit :: rest)) (some : rest ≠ []) :
    Scale rest := by
  cases rest with
  | nil => exact absurd rfl some
  | cons next rest => exact scale.2.2

theorem Scale.suffix {units rest : List (Nat × ν)} (scale : Scale units) (suffix : rest <:+ units) (some : rest ≠ []) :
    Scale rest := by
  induction units with
  | nil => exact absurd (List.suffix_nil.mp suffix) some
  | cons unit units ih =>
    rcases List.suffix_cons_iff.mp suffix with rfl | inner
    · exact scale
    · have more : units ≠ [] := by
        rintro rfl
        exact some (List.suffix_nil.mp inner)
      exact ih (scale.tail more) inner

theorem Scale.positive {units : List (Nat × ν)} (scale : Scale units) : ∀ unit ∈ units, 0 < unit.1 := by
  induction units with
  | nil => exact List.forall_mem_nil _
  | cons unit rest ih =>
    cases rest with
    | nil =>
      intro other member
      obtain rfl := List.mem_singleton.mp member
      exact scale.symm ▸ Nat.one_pos
    | cons next rest =>
      refine List.forall_mem_cons.mpr ⟨?_,ih scale.2.2⟩
      exact Nat.lt_of_le_of_lt (Nat.zero_le _) scale.2.1

theorem Scale.descending {units : List (Nat × ν)} (scale : Scale units) : units.Pairwise fun a b => b.1 < a.1 := by
  induction units with
  | nil => exact .nil
  | cons unit rest ih =>
    cases rest with
    | nil => exact List.pairwise_singleton _ _
    | cons next rest =>
      have later := ih scale.2.2
      refine List.pairwise_cons.mpr ⟨List.forall_mem_cons.mpr ⟨scale.2.1,fun other member => ?_⟩,later⟩
      exact ((List.pairwise_cons.mp later).1 other member).trans scale.2.1

theorem Scale.one {units : List (Nat × ν)} (scale : Scale units) : ∃ unit ∈ units, unit.1 = 1 := by
  induction units with
  | nil => exact scale.elim
  | cons unit rest ih =>
    cases rest with
    | nil => exact ⟨unit,List.mem_singleton_self _,scale⟩
    | cons next rest =>
      obtain ⟨last,member,one⟩ := ih scale.2.2
      exact ⟨last,List.mem_cons_of_mem _ member,one⟩

theorem split_units (units : List (Nat × ν)) (n : Nat) : (split units n).map Prod.snd = units := by
  induction units generalizing n with
  | nil => rfl
  | cons unit rest ih => rw [split,List.map_cons,ih]

theorem total_split (units : List (Nat × ν)) (scale : Scale units) (n : Nat) : total (split units n) = n := by
  induction units generalizing n with
  | nil => exact scale.elim
  | cons unit rest ih =>
    cases rest with
    | nil =>
      have one : unit.1 = 1 := scale
      simp [total,split,one]
    | cons next rest =>
      have inner := ih scale.2.2 (n % unit.1)
      unfold total at inner ⊢
      rw [split,List.map_cons,List.sum_cons,inner,Nat.mul_comm]
      exact Nat.div_add_mod n unit.1

theorem digit_le_total (digits : List (Nat × Nat × ν)) (value : Nat) (unit : Nat × ν) (member : (value,unit) ∈ digits) :
    value * unit.1 ≤ total digits :=
  List.le_sum_of_mem (List.mem_map.mpr ⟨_,member,rfl⟩)

theorem split_bounded (units : List (Nat × ν)) (scale : Scale units) (n : Nat) (big small : Nat × ν)
    (consecutive : [big,small] <:+: units) (value : Nat) (member : (value,small) ∈ split units n) :
    value * small.1 < big.1 := by
  induction units generalizing n with
  | nil => exact scale.elim
  | cons unit rest ih =>
    have inside : small ∈ rest := by
      rcases List.infix_cons_iff.mp consecutive with first | later
      · obtain ⟨behind,split⟩ := first
        rw [← (List.cons.inj split).2]
        exact List.mem_cons_self
      · exact later.subset (by simp)
    have below := (List.pairwise_cons.mp scale.descending).1 small inside
    have scale' := scale.tail (List.ne_nil_of_mem inside)
    rcases List.mem_cons.mp member with same | later
    · cases same
      omega
    · rcases List.infix_cons_iff.mp consecutive with first | inner
      · obtain ⟨behind,split⟩ := first
        obtain rfl : big = unit := (List.cons.inj split).1
        have part := digit_le_total _ _ _ later
        rw [total_split rest scale'] at part
        exact part.trans_lt (Nat.mod_lt n (by omega))
      · exact ih scale' (n % unit.1) inner later

theorem split_suffix_bounded (front rest : List (Nat × ν)) (scale : Scale (front ++ rest)) (n : Nat)
    (below : ∀ unit ∈ front, n < unit.1) (big small : Nat × ν) (consecutive : [big,small] <:+: front ++ rest)
    (value : Nat) (member : (value,small) ∈ split rest n) : value * small.1 < big.1 := by
  have some : rest ≠ [] := by
    rintro rfl
    exact List.not_mem_nil member
  have scale' := scale.suffix (List.suffix_append front rest) some
  have part := digit_le_total _ _ _ member
  rw [total_split rest scale'] at part
  have outer (inFront : big ∈ front) : value * small.1 < big.1 := part.trans_lt (below big inFront)
  rcases List.infix_append_iff_ne_nil.mp consecutive with early | late | ⟨one,two,occupied,_,parts,ends,_⟩
  · exact outer (early.subset List.mem_cons_self)
  · exact split_bounded rest scale' n big small late value member
  · obtain ⟨first,others,rfl⟩ := List.exists_cons_of_ne_nil occupied
    obtain rfl : big = first := (List.cons.inj parts).1
    exact outer (ends.subset List.mem_cons_self)

theorem canonical_split (front : List (Nat × ν)) (first : Nat × ν) (rest : List (Nat × ν))
    (scale : Scale (front ++ first :: rest)) (n : Nat) (below : ∀ unit ∈ front, n < unit.1) (above : first.1 < n) :
    Canonical (front ++ first :: rest) n (split (first :: rest) n) := by
  have scale' := scale.suffix (List.suffix_append front _) (List.cons_ne_nil first rest)
  refine ⟨List.cons_ne_nil _ _,?_,total_split _ scale' n,?_,?_⟩
  · rw [split_units]
    exact List.suffix_append front _
  · intro big small consecutive value member
    exact split_suffix_bounded front _ scale n below big small consecutive value member
  · rintro _ digit head
    obtain rfl := Option.some.inj head
    have positive := scale'.positive first List.mem_cons_self
    exact (Nat.div_pos above.le positive).ne'

/-- The unit before the first printed one is the number itself, which is then a multiple of the printed one. -/
theorem not_canonical_split (front : List (Nat × ν)) (first : Nat × ν) (rest : List (Nat × ν))
    (scale : Scale (front ++ first :: rest)) (n : Nat) (reached : ∀ unit ∈ front, n ≤ unit.1) (unit : Nat × ν)
    (member : unit ∈ front) (same : unit.1 = n) : ¬ Canonical (front ++ first :: rest) n (split (first :: rest) n) := by
  intro canonical
  obtain ⟨init,big,rfl⟩ := (List.eq_nil_or_concat front).resolve_left (List.ne_nil_of_mem member)
  rw [List.concat_eq_append] at *
  have exact_ : big.1 = n := by
    have least := reached big (by simp)
    rcases List.mem_append.mp member with early | last
    · have pairs := (List.pairwise_append.mp (List.pairwise_append.mp scale.descending).1).2.2
      have smaller := pairs unit early big (List.mem_singleton_self big)
      omega
    · obtain rfl := List.mem_singleton.mp last
      exact same
  have tail : big :: first :: rest <:+ init ++ [big] ++ first :: rest := ⟨init,by simp⟩
  have divides := (scale.suffix tail (List.cons_ne_nil _ _)).1
  have pair : [big,first] <:+: init ++ [big] ++ first :: rest := ⟨init,rest,by simp⟩
  have bounded := canonical.bounded big first pair (n / first.1) List.mem_cons_self
  rw [exact_] at bounded divides
  rw [Nat.div_mul_cancel divides] at bounded
  exact Nat.lt_irrefl n bounded

/-- Printing from the first unit that the number exceeds is canonical exactly if the number is not zero and not one of
the units. -/
theorem canonical_iff (units : List (Nat × ν)) (scale : Scale units) (n : Nat) :
    Canonical units n (split (units.dropWhile fun unit => decide (n ≤ unit.1)) n) ↔ n ≠ 0 ∧ ∀ unit ∈ units, unit.1 ≠ n := by
  have parts := List.takeWhile_append_dropWhile (p := fun unit : Nat × ν => decide (n ≤ unit.1)) (l := units)
  have reached : ∀ unit ∈ units.takeWhile fun unit => decide (n ≤ unit.1), n ≤ unit.1 := fun unit member => by
    simpa using List.mem_takeWhile_imp member
  generalize units.takeWhile (fun unit => decide (n ≤ unit.1)) = front at parts reached
  have stopped := List.head?_dropWhile_not (fun unit : Nat × ν => decide (n ≤ unit.1)) units
  generalize units.dropWhile (fun unit => decide (n ≤ unit.1)) = rest at parts stopped ⊢
  subst parts
  cases rest with
  | nil =>
    obtain ⟨unit,member,one⟩ := scale.one
    have small : n ≤ 1 := one ▸ reached unit (by simpa using member)
    refine iff_of_false (fun canonical => canonical.occupied rfl) ?_
    rintro ⟨nonzero,others⟩
    exact others unit member (by omega)
  | cons first rest =>
    have above : first.1 < n := by simpa using stopped
    constructor
    · intro canonical
      refine ⟨by omega,fun unit member same => ?_⟩
      rcases List.mem_append.mp member with inFront | inRest
      · exact not_canonical_split front first rest scale n reached unit inFront same canonical
      · have scale' := scale.suffix (List.suffix_append front _) (List.cons_ne_nil first rest)
        rcases List.mem_cons.mp inRest with rfl | later
        · omega
        · have smaller := (List.pairwise_cons.mp scale'.descending).1 unit later
          omega
    · rintro ⟨nonzero,others⟩
      apply canonical_split front first rest scale n _ above
      intro unit member
      exact lt_of_le_of_ne (reached unit member) (others unit (List.mem_append_left _ member)).symm

end Zofi.MixedRadix
