import Mathlib.Data.List.Basic
import Mathlib.Data.List.Nodup
import Mathlib.Logic.Function.Basic

/-! Lists whose elements are told apart by a key: looking up, and erasing, by the key of a
member is looking up and erasing that member. Of assignments to keys the last one counts. -/
namespace Zofi.Keyed

variable {α κ β : Type}

theorem unique_of_nodup {key : α → κ} {items : List α} (distinct : (items.map key).Nodup) {x : α}
    (member : x ∈ items) : ∀ a ∈ items, key a = key x → a = x :=
  fun _ other same => List.inj_on_of_nodup_map distinct other member same

theorem find_key [BEq κ] [LawfulBEq κ] (key : α → κ) (items : List α) (x : α) (member : x ∈ items)
    (unique : ∀ a ∈ items, key a = key x → a = x) : items.find? (fun a => key a == key x) = some x := by
  induction items with
  | nil => simp at member
  | cons a items ih =>
    by_cases same : key a = key x
    · rw [List.find?_cons_of_pos (by simpa using same),unique a (by simp) same]
    · rw [List.find?_cons_of_neg (by simpa using same)]
      refine ih ?_ fun b inside => unique b (by simp [inside])
      rcases List.mem_cons.mp member with rfl | inside
      · exact absurd rfl same
      · exact inside

theorem lookup_key [BEq κ] [LawfulBEq κ] (key : α → κ) (value : α → β) (items : List α) (x : α)
    (member : x ∈ items) (unique : ∀ a ∈ items, key a = key x → a = x) :
    (items.map fun a => (key a,value a)).lookup (key x) = some (value x) := by
  induction items with
  | nil => simp at member
  | cons a items ih =>
    by_cases same : key a = key x
    · rw [unique a (by simp) same,List.map_cons,List.lookup_cons_self]
    · have different : (key x == key a) = false := by simpa using fun equal => same equal.symm
      rw [List.map_cons,List.lookup_cons,different]
      refine ih ?_ fun b inside => unique b (by simp [inside])
      rcases List.mem_cons.mp member with rfl | inside
      · exact absurd rfl same
      · exact inside

theorem eraseP_key [DecidableEq α] [BEq κ] [LawfulBEq κ] (key : α → κ) (items : List α) (x : α)
    (unique : ∀ a ∈ items, key a = key x → a = x) : items.eraseP (fun a => key a == key x) = items.erase x := by
  induction items with
  | nil => rfl
  | cons a items ih =>
    have rest := ih fun b inside => unique b (by simp [inside])
    by_cases same : key a = key x
    · rw [unique a (by simp) same,List.erase_cons_head]
      exact List.eraseP_cons_of_pos (by simp)
    · rw [List.eraseP_cons_of_neg (by simpa using same),rest,
        List.erase_cons_tail (by simpa using fun equal : a = x => same (equal ▸ rfl))]

/-- The member for this key that no later one replaces. -/
def LastFor (key : α → κ) (k : κ) (items : List α) (x : α) : Prop :=
  ∃ before after, items = before ++ x :: after ∧ key x = k ∧ ∀ later ∈ after, key later ≠ k

theorem exists_lastFor (key : α → κ) (k : κ) (items : List α) (some : ∃ x ∈ items, key x = k) :
    ∃ x, LastFor key k items x := by
  induction items with
  | nil => obtain ⟨x,member,_⟩ := some; cases member
  | cons a items ih =>
    by_cases later : ∃ x ∈ items, key x = k
    · obtain ⟨x,before,after,split,same,behind⟩ := ih later
      exact ⟨x,a :: before,after,by rw [split,List.cons_append],same,behind⟩
    · obtain ⟨x,member,same⟩ := some
      rcases List.mem_cons.mp member with rfl | inside
      · exact ⟨x,[],items,rfl,same,fun y behind other => later ⟨y,behind,other⟩⟩
      · exact absurd ⟨x,inside,same⟩ later

def assignAll [DecidableEq κ] (key : α → κ) (value : α → β) (store : κ → β) (items : List α) : κ → β :=
  items.foldl (fun store x => Function.update store (key x) (value x)) store

theorem assignAll_cons [DecidableEq κ] (key : α → κ) (value : α → β) (store : κ → β) (x : α) (items : List α) :
    assignAll key value store (x :: items) =
      assignAll key value (Function.update store (key x) (value x)) items := rfl

theorem assignAll_other [DecidableEq κ] (key : α → κ) (value : α → β) (store : κ → β) (items : List α) (k : κ)
    (absent : ∀ x ∈ items, key x ≠ k) : assignAll key value store items k = store k := by
  induction items generalizing store with
  | nil => rfl
  | cons x items ih =>
    obtain ⟨first,rest⟩ := List.forall_mem_cons.mp absent
    rw [assignAll_cons,ih _ rest]
    exact Function.update_of_ne first.symm _ _

theorem assignAll_last [DecidableEq κ] (key : α → κ) (value : α → β) (store : κ → β) (items : List α) (k : κ) (x : α)
    (last : LastFor key k items x) : assignAll key value store items k = value x := by
  obtain ⟨before,after,rfl,rfl,behind⟩ := last
  rw [assignAll,List.foldl_append,List.foldl_cons]
  exact (assignAll_other key value _ after _ behind).trans (Function.update_self _ _ _)

end Zofi.Keyed
