import Mathlib.Data.List.TakeWhile
import Mathlib.Tactic.Common
import Zofi.Lib.Numerals

/-! Texts of fields that a separator divides: a part that does not contain the separator is read
off, from the left or from the right. -/
namespace Zofi.Separators
open Numerals

variable {α : Type} [DecidableEq α]

theorem takeWhile_field (stop : α) (run rest : List α) (plain : stop ∉ run) :
    (run ++ stop :: rest).takeWhile (· ≠ stop) = run := by
  apply takeWhile_run
  · intro c member
    exact decide_eq_true fun same => plain (same ▸ member)
  · intro c head
    cases head
    simp

theorem takeWhile_plain (stop : α) (text : List α) : stop ∉ text.takeWhile (· ≠ stop) := by
  intro member
  simpa using List.mem_takeWhile_imp member

theorem first_unique (stop : α) (run rest run' rest' : List α) (plain : stop ∉ run) (plain' : stop ∉ run')
    (same : run ++ stop :: rest = run' ++ stop :: rest') : run = run' ∧ rest = rest' := by
  have first : run = run' := by
    rw [← takeWhile_field stop run rest plain,same,takeWhile_field stop run' rest' plain']
  subst first
  exact ⟨rfl,List.cons.inj (List.append_cancel_left same) |>.2⟩

theorem last_unique (stop : α) (front run front' run' : List α) (plain : stop ∉ run) (plain' : stop ∉ run')
    (same : front ++ stop :: run = front' ++ stop :: run') : front = front' ∧ run = run' := by
  have mirrored : run.reverse ++ stop :: front.reverse = run'.reverse ++ stop :: front'.reverse := by
    simpa using congrArg List.reverse same
  have parts := first_unique stop _ _ _ _ (by simpa using plain) (by simpa using plain') mirrored
  exact ⟨List.reverse_inj.mp parts.2,List.reverse_inj.mp parts.1⟩

/-- What follows the longest field is its separator, or nothing. -/
theorem drop_field (stop : α) (text : List α) :
    text.drop (text.takeWhile (· ≠ stop)).length = [] ∨
      ∃ rest, text.drop (text.takeWhile (· ≠ stop)).length = stop :: rest ∧
        text = text.takeWhile (· ≠ stop) ++ stop :: rest := by
  induction text with
  | nil => exact .inl rfl
  | cons c text ih =>
    by_cases stops : c = stop
    · subst stops
      exact .inr ⟨text,by simp,by simp⟩
    · rw [List.takeWhile_cons_of_pos (by simpa using stops),List.length_cons,List.drop_succ_cons]
      rcases ih with ended | ⟨rest,dropped,split⟩
      · exact .inl ended
      · exact .inr ⟨rest,dropped,congrArg (c :: ·) split⟩

end Zofi.Separators
