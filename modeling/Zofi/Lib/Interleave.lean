import Mathlib.Data.List.Forall2
import Mathlib.Data.List.Perm.Basic

/-! Threads that run side by side: a trace takes the actions of each in its own order. -/
namespace Zofi.Interleave

variable {α : Type}

inductive Interleaves : List (List α) → List α → Prop
  | done (threads : List (List α)) (ended : ∀ thread ∈ threads, thread = []) : Interleaves threads []
  | next (before after : List (List α)) (action : α) (rest trace : List α)
      (others : Interleaves (before ++ rest :: after) trace) :
      Interleaves (before ++ (action :: rest) :: after) (action :: trace)

theorem Interleaves.perm {threads : List (List α)} {trace : List α} (interleaves : Interleaves threads trace) :
    trace.Perm threads.flatten := by
  induction interleaves with
  | done threads ended =>
    rw [List.flatten_eq_nil_iff.mpr ended]
  | next before after action rest trace others ih =>
    rw [List.flatten_append,List.flatten_cons] at ih ⊢
    exact (ih.cons action).trans List.perm_middle.symm

theorem Interleaves.begun (threads : List (List α)) (first second : List α)
    (interleaves : Interleaves threads (first ++ second)) :
    ∃ begun, List.Forall₂ (· <+: ·) begun threads ∧ Interleaves begun first := by
  induction first generalizing threads with
  | nil =>
    refine ⟨threads.map fun _ => [],?_,.done _ (by simp)⟩
    rw [List.forall₂_map_left_iff]
    exact List.forall₂_same.mpr fun thread _ => List.nil_prefix
  | cons action first ih =>
    generalize trace_eq : action :: first ++ second = trace at interleaves
    cases interleaves with
    | done ended => simp at trace_eq
    | next before after moved rest trace others =>
      obtain ⟨rfl,rfl⟩ := List.cons.inj trace_eq
      obtain ⟨begun,related,runs⟩ := ih _ others
      have old := List.forall₂_take_append begun before (rest :: after) related
      have new := List.forall₂_drop_append begun before (rest :: after) related
      rw [← List.take_append_drop before.length begun] at runs
      generalize begun.take before.length = left at old runs
      generalize begun.drop before.length = right at new runs
      cases new with
      | @cons head _ tail _ starts others =>
        refine ⟨left ++ (action :: head) :: tail,?_,.next left tail action head first runs⟩
        exact List.rel_append old (.cons (List.cons_prefix_cons.mpr ⟨rfl,starts⟩) others)

theorem Interleaves.mem {threads : List (List α)} {trace : List α} (interleaves : Interleaves threads trace) (action : α) :
    action ∈ trace ↔ ∃ thread ∈ threads, action ∈ thread := by
  rw [interleaves.perm.mem_iff,List.mem_flatten]

theorem Interleaves.alone (thread : List α) : Interleaves [thread] thread := by
  induction thread with
  | nil => exact .done _ (by simp)
  | cons action rest ih => exact .next [] [] action rest rest ih

end Zofi.Interleave
