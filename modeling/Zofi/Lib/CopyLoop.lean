import Mathlib.Logic.Function.Basic
import Mathlib.Tactic.Common

/-! Loops that copy one place of an image to another, one copy after the other. The places
may overlap: a copy can read what an earlier one has written, and overwrite it. -/
namespace Zofi.CopyLoop

variable {ι α : Type} [DecidableEq ι]

def copy (image : ι → α) (places : ι × ι) : ι → α := Function.update image places.1 (image places.2)

def copyAll (image : ι → α) (loop : List (ι × ι)) : ι → α := loop.foldl copy image

theorem copyAll_cons (image : ι → α) (places : ι × ι) (loop : List (ι × ι)) :
    copyAll image (places :: loop) = copyAll (copy image places) loop := rfl

theorem copy_target (image : ι → α) (places : ι × ι) : copy image places places.1 = image places.2 :=
  Function.update_self _ _ _

theorem copy_other (image : ι → α) (places : ι × ι) (i : ι) (apart : places.1 ≠ i) : copy image places i = image i :=
  Function.update_of_ne apart.symm _ _

theorem copyAll_other (image : ι → α) (loop : List (ι × ι)) (i : ι) (apart : ∀ places ∈ loop, places.1 ≠ i) :
    copyAll image loop i = image i := by
  induction loop generalizing image with
  | nil => rfl
  | cons places loop ih =>
    rw [copyAll_cons,ih _ fun other member => apart other (List.mem_cons_of_mem _ member)]
    exact copy_other image places i (apart places List.mem_cons_self)

theorem copyAll_settled (image : ι → α) (loop : List (ι × ι))
    (ordered : loop.Pairwise fun first later => later.1 ≠ first.1 ∧ later.1 ≠ first.2) :
    ∀ places ∈ loop, copyAll image loop places.1 = copyAll image loop places.2 := by
  induction loop generalizing image with
  | nil => simp
  | cons first loop ih =>
    obtain ⟨head,tail⟩ := List.pairwise_cons.mp ordered
    intro places member
    rw [copyAll_cons]
    rcases List.mem_cons.mp member with rfl | inside
    · rw [copyAll_other _ loop places.1 fun later inside => (head later inside).1,
        copyAll_other _ loop places.2 fun later inside => (head later inside).2,copy_target]
      by_cases same : places.1 = places.2
      · rw [← same,copy_target,same]
      · rw [copy_other image places places.2 same]
    · exact ih _ tail places inside

theorem copyAll_same (image : ι → α) (loop : List (ι × ι)) (same : ∀ places ∈ loop, image places.1 = image places.2) :
    copyAll image loop = image := by
  induction loop with
  | nil => rfl
  | cons places loop ih =>
    have kept : copy image places = image := by
      rw [copy,← same places List.mem_cons_self,Function.update_eq_self]
    rw [copyAll_cons,kept]
    exact ih fun other member => same other (List.mem_cons_of_mem _ member)

/-- No two copies disagree on what one place is to hold, nor with what a source holds. -/
structure Consistent (image : ι → α) (loop : List (ι × ι)) : Prop where
  writes : ∀ one ∈ loop, ∀ two ∈ loop, one.1 = two.1 → image one.2 = image two.2
  reads : ∀ one ∈ loop, ∀ two ∈ loop, one.1 = two.2 → image one.2 = image two.2

theorem Consistent.source_kept {image : ι → α} {first : ι × ι} {loop : List (ι × ι)}
    (consistent : Consistent image (first :: loop)) (places : ι × ι) (member : places ∈ first :: loop) :
    copy image first places.2 = image places.2 := by
  by_cases written : first.1 = places.2
  · calc copy image first places.2 = copy image first first.1 := by rw [written]
      _ = image first.2 := copy_target image first
      _ = image places.2 := consistent.reads first List.mem_cons_self places member written
  · exact copy_other image first places.2 written

theorem Consistent.tail {image : ι → α} {first : ι × ι} {loop : List (ι × ι)}
    (consistent : Consistent image (first :: loop)) : Consistent (copy image first) loop := by
  have kept (places : ι × ι) (member : places ∈ loop) := consistent.source_kept places (List.mem_cons_of_mem _ member)
  constructor
  · intro one first two second same
    rw [kept one first,kept two second]
    exact consistent.writes one (List.mem_cons_of_mem _ first) two (List.mem_cons_of_mem _ second) same
  · intro one first two second same
    rw [kept one first,kept two second]
    exact consistent.reads one (List.mem_cons_of_mem _ first) two (List.mem_cons_of_mem _ second) same

theorem copyAll_consistent (image : ι → α) (loop : List (ι × ι)) (consistent : Consistent image loop) :
    ∀ places ∈ loop, copyAll image loop places.1 = image places.2 ∧ copyAll image loop places.2 = image places.2 := by
  induction loop generalizing image with
  | nil => simp
  | cons first loop ih =>
    intro places member
    rw [copyAll_cons]
    have later (i : ι) (value : α) (now : copy image first i = value)
        (agrees : ∀ other ∈ loop, other.1 = i → image other.2 = value) : copyAll (copy image first) loop i = value := by
      by_cases written : ∃ other ∈ loop, other.1 = i
      · obtain ⟨other,inside,rfl⟩ := written
        rw [(ih _ consistent.tail other inside).1,consistent.source_kept other (List.mem_cons_of_mem _ inside)]
        exact agrees other inside rfl
      · push Not at written
        rw [copyAll_other _ _ _ written,now]
    constructor
    · rcases List.mem_cons.mp member with rfl | inside
      · apply later _ _ (copy_target image places)
        intro other within same
        exact consistent.writes other (List.mem_cons_of_mem _ within) places member same
      · rw [(ih _ consistent.tail places inside).1,consistent.source_kept places member]
    · apply later _ _ (consistent.source_kept places member)
      intro other within same
      exact consistent.reads other (List.mem_cons_of_mem _ within) places member same

end Zofi.CopyLoop
