import Mathlib.Tactic.Common

/-! An open file as POSIX describes it: the file's content and the offset that all
descriptors of one open() share. A write past the end fills the gap with `zero`, and
truncation leaves the offset where it is. -/
namespace Zofi.SharedOffset

variable {β : Type}

structure OpenFile (β : Type) where
  content : List β := []
  offset : Nat := 0
  deriving DecidableEq, Repr

def truncate (file : OpenFile β) : OpenFile β := {file with content := []}

def write (zero : β) (file : OpenFile β) (bytes : List β) : OpenFile β :=
  if bytes = [] then file
  else
    let before := file.content.take file.offset ++ List.replicate (file.offset - file.content.length) zero
    ⟨before ++ bytes ++ file.content.drop (file.offset + bytes.length),file.offset + bytes.length⟩

def writes (zero : β) (file : OpenFile β) (chunks : List (List β)) : OpenFile β :=
  chunks.foldl (write zero) file

theorem write_offset (zero : β) (file : OpenFile β) (bytes : List β) :
    (write zero file bytes).offset = file.offset + bytes.length := by
  by_cases empty : bytes = []
  · simp [write,empty]
  · simp [write,empty]

theorem write_at_end (zero : β) (content bytes : List β) :
    write zero ⟨content,content.length⟩ bytes = ⟨content ++ bytes,(content ++ bytes).length⟩ := by
  by_cases empty : bytes = []
  · simp [write,empty]
  · simp [write,empty]

theorem writes_at_end (zero : β) (content : List β) (chunks : List (List β)) :
    writes zero ⟨content,content.length⟩ chunks =
      ⟨content ++ chunks.flatten,(content ++ chunks.flatten).length⟩ := by
  induction chunks generalizing content with
  | nil => simp [writes]
  | cons bytes chunks ih =>
    have next := ih (content ++ bytes)
    rw [writes] at next ⊢
    rw [List.foldl_cons,write_at_end,next,List.flatten_cons,List.append_assoc]

theorem writes_offset (zero : β) (file : OpenFile β) (chunks : List (List β)) :
    (writes zero file chunks).offset = file.offset + chunks.flatten.length := by
  induction chunks generalizing file with
  | nil => simp [writes]
  | cons bytes chunks ih =>
    have next := ih (write zero file bytes)
    rw [writes] at next ⊢
    rw [List.foldl_cons,next,write_offset,List.flatten_cons,List.length_append,Nat.add_assoc]

/-- The first write into a truncated file fills the gap up to the offset it was left at. -/
theorem write_truncated (zero : β) (file : OpenFile β) (bytes : List β) (some : bytes ≠ []) :
    write zero (truncate file) bytes =
      ⟨List.replicate file.offset zero ++ bytes,(List.replicate file.offset zero ++ bytes).length⟩ := by
  simp [write,truncate,some]

theorem writes_truncated (zero : β) (file : OpenFile β) (chunks : List (List β)) :
    (writes zero (truncate file) chunks).content =
      if chunks.flatten = [] then [] else List.replicate file.offset zero ++ chunks.flatten := by
  induction chunks with
  | nil => rfl
  | cons bytes chunks ih =>
    by_cases empty : bytes = []
    · subst bytes
      exact ih
    · rw [if_neg (by simp [empty]),writes,List.foldl_cons,write_truncated zero file bytes empty]
      have next := writes_at_end zero (List.replicate file.offset zero ++ bytes) chunks
      rw [writes] at next
      rw [next,List.flatten_cons,List.append_assoc]

/-- After a truncation the file holds exactly what was written iff nothing was written or
the offset was at the start. -/
theorem writes_truncated_exact (zero : β) (file : OpenFile β) (chunks : List (List β)) :
    (writes zero (truncate file) chunks).content = chunks.flatten ↔ file.offset = 0 ∨ chunks.flatten = [] := by
  rw [writes_truncated]
  by_cases empty : chunks.flatten = []
  · simp [empty]
  · rw [if_neg empty]
    constructor
    · intro same
      have lengths := congrArg List.length same
      simp only [List.length_append,List.length_replicate] at lengths
      exact .inl (by omega)
    · rintro (start | nothing)
      · simp [start]
      · exact absurd nothing empty

end Zofi.SharedOffset
