import Mathlib.Data.List.Infix
import Mathlib.Data.List.TakeWhile
import Mathlib.Tactic.Common

/-! The lines of a text, and the longest matches of a pattern in a line, from the left. -/
namespace Zofi.Lines

variable {α : Type}

/-- A separator at the very end does not begin another line. -/
def lines [DecidableEq α] (sep : α) : List α → List (List α)
  | [] => []
  | a :: text =>
    if a = sep then [] :: lines sep text
    else match lines sep text with
      | [] => [[a]]
      | line :: rest => (a :: line) :: rest

def unlines (sep : α) (items : List (List α)) : List α := items.flatMap (· ++ [sep])

theorem lines_cons [DecidableEq α] (sep : α) (line rest : List α) (plain : sep ∉ line) :
    lines sep (line ++ sep :: rest) = line :: lines sep rest := by
  induction line with
  | nil => simp [lines]
  | cons a line ih =>
    have other : a ≠ sep := fun same => plain (by simp [same])
    rw [List.cons_append,lines,if_neg other,ih fun member => plain (List.mem_cons_of_mem _ member)]

theorem lines_plain [DecidableEq α] (sep : α) (text : List α) : ∀ line ∈ lines sep text, sep ∉ line := by
  fun_induction lines sep text with
  | case1 => simp
  | case2 text ih => exact List.forall_mem_cons.mpr ⟨List.not_mem_nil,ih⟩
  | case3 a text other none ih => simpa using Ne.symm other
  | case4 a text other line rest split ih =>
    rw [split] at ih
    obtain ⟨first,others⟩ := List.forall_mem_cons.mp ih
    exact List.forall_mem_cons.mpr ⟨by simpa using ⟨Ne.symm other,first⟩,others⟩

theorem lines_subset [DecidableEq α] (sep : α) (text : List α) : ∀ line ∈ lines sep text, line ⊆ text := by
  fun_induction lines sep text with
  | case1 => simp
  | case2 text ih =>
    refine List.forall_mem_cons.mpr ⟨List.nil_subset _,fun line member => ?_⟩
    exact List.Subset.trans (ih line member) (List.subset_cons_self _ _)
  | case3 a text other none ih => simp
  | case4 a text other line rest split ih =>
    rw [split] at ih
    obtain ⟨first,others⟩ := List.forall_mem_cons.mp ih
    refine List.forall_mem_cons.mpr ⟨List.cons_subset_cons a first,fun line member => ?_⟩
    exact List.Subset.trans (others line member) (List.subset_cons_self _ _)

theorem lines_unlines [DecidableEq α] (sep : α) (items : List (List α)) (rest : List α) (plain : ∀ item ∈ items, sep ∉ item) :
    lines sep (unlines sep items ++ rest) = items ++ lines sep rest := by
  induction items with
  | nil => rfl
  | cons item items ih =>
    obtain ⟨first,others⟩ := List.forall_mem_cons.mp plain
    rw [unlines,List.flatMap_cons,List.append_assoc,List.append_assoc,List.singleton_append,lines_cons sep _ _ first,
      List.cons_append]
    exact congrArg (item :: ·) (ih others)

/-- The matches in a text behind `skip` elements that belong to the last one; `longest` is the
length of the longest match at the start of a text, and an empty match is none. -/
def matchesFrom (longest : List α → Nat) : Nat → List α → List (List α)
  | _,[] => []
  | skip + 1,_ :: text => matchesFrom longest skip text
  | 0,a :: text =>
    match longest (a :: text) with
    | 0 => matchesFrom longest 0 text
    | n + 1 => (a :: text.take n) :: matchesFrom longest n text

def matches_ (longest : List α → Nat) (text : List α) : List (List α) := matchesFrom longest 0 text

theorem matchesFrom_skip (longest : List α → Nat) (run rest : List α) :
    matchesFrom longest run.length (run ++ rest) = matches_ longest rest := by
  induction run with
  | nil => rfl
  | cons a run ih => rw [List.length_cons,List.cons_append,matchesFrom,ih]

theorem matches_miss (longest : List α → Nat) (a : α) (text : List α) (missed : longest (a :: text) = 0) :
    matches_ longest (a :: text) = matches_ longest text := by
  rw [matches_,matchesFrom,missed]
  rfl

theorem matches_hit (longest : List α → Nat) (found rest : List α) (some : found ≠ [])
    (length : longest (found ++ rest) = found.length) :
    matches_ longest (found ++ rest) = found :: matches_ longest rest := by
  obtain ⟨a,found,rfl⟩ := List.exists_cons_of_ne_nil some
  rw [List.cons_append,List.length_cons] at length
  rw [List.cons_append,matches_,matchesFrom,length]
  dsimp only
  rw [List.take_left,matchesFrom_skip]

def run (p : α → Bool) (text : List α) : Nat := (text.takeWhile p).length

theorem run_field (p : α → Bool) (stop : α) (outside : p stop = false) (field : List α) (some : field ≠ []) (all : ∀ a ∈ field, p a = true) :
    matches_ (run p) (field ++ [stop]) = [field] := by
  rw [matches_hit (run p) field [stop] some,matches_miss]
  · rfl
  · simp [run,outside]
  · rw [run,List.takeWhile_append_of_pos all]
    simp [outside]

/-- A word that cannot end in the rest of a text is in front of it. -/
theorem infix_front (word front rest : List α) (last : α) (ends : word.getLast? = some last) (other : last ∉ rest)
    (within : word <:+: front ++ rest) : word <:+: front := by
  obtain ⟨before,behind,split⟩ := within
  obtain ⟨start,rfl⟩ := List.getLast?_eq_some_iff.mp ends
  have split : (before ++ start) ++ last :: behind = front ++ rest := by simpa using split
  rcases List.append_eq_append_iff.mp split with ⟨more,rfl,tail⟩ | ⟨more,_,tail⟩
  · cases more with
    | nil => exact absurd (show last ∈ rest by rw [← List.nil_append rest,← tail]; simp) other
    | cons a more =>
      obtain ⟨rfl,rfl⟩ := List.cons.inj tail
      exact ⟨before,more,by simp⟩
  · exact absurd (show last ∈ rest by rw [tail]; simp) other

def runThen [DecidableEq α] (p : α → Bool) (stop : α) (text : List α) : Nat :=
  if (text.dropWhile p).head? = some stop then (text.takeWhile p).length + 1 else 0

theorem dropWhile_head (p : α → Bool) (front rest : List α) (b : α) (outside : p b = false) :
    ((front ++ b :: rest).dropWhile p).head? = ((front ++ [b]).dropWhile p).head? := by
  induction front with
  | nil => simp [outside]
  | cons a front ih =>
    rw [List.cons_append,List.cons_append,List.dropWhile_cons,List.dropWhile_cons]
    split
    · exact ih
    · rfl

variable [DecidableEq α] (p : α → Bool) (stop : α)

theorem runThen_of_notMem (text : List α) (none : stop ∉ text) : runThen p stop text = 0 := by
  rw [runThen,if_neg]
  intro head
  exact none ((List.dropWhile_suffix p).subset (List.mem_of_mem_head? head))

theorem runThen_none (text : List α) (none : stop ∉ text) : matches_ (runThen p stop) text = [] := by
  induction text with
  | nil => rfl
  | cons a text ih =>
    rw [matches_miss _ _ _ (runThen_of_notMem p stop _ none)]
    exact ih fun member => none (List.mem_cons_of_mem _ member)

theorem runThen_before (front rest : List α) (b : α) (outside : p b = false) (plain : stop ∉ front ++ [b]) :
    matches_ (runThen p stop) (front ++ b :: rest) = matches_ (runThen p stop) rest := by
  have missed (front : List α) (plain : stop ∉ front ++ [b]) : runThen p stop (front ++ b :: rest) = 0 := by
    rw [runThen,if_neg]
    rw [dropWhile_head p front rest b outside]
    intro head
    exact plain ((List.dropWhile_suffix p).subset (List.mem_of_mem_head? head))
  induction front with
  | nil => exact matches_miss _ _ _ (missed [] plain)
  | cons a front ih =>
    have first := missed (a :: front) plain
    rw [List.cons_append] at first ⊢
    rw [matches_miss _ _ _ first]
    exact ih fun member => plain (List.mem_cons_of_mem _ member)

theorem runThen_field (outside : p stop = false) (field rest : List α) (all : ∀ a ∈ field, p a = true)
    (last : stop ∉ rest) : matches_ (runThen p stop) (field ++ stop :: rest) = [field ++ [stop]] := by
  have run : (field ++ stop :: rest).takeWhile p = field ∧ (field ++ stop :: rest).dropWhile p = stop :: rest := by
    rw [List.takeWhile_append_of_pos all,List.dropWhile_append_of_pos all]
    simp [outside]
  have hit := matches_hit (runThen p stop) (field ++ [stop]) rest (by simp) (by
    rw [runThen,List.append_assoc,List.singleton_append,run.1,run.2]
    simp)
  rw [List.append_assoc,List.singleton_append,runThen_none p stop rest last] at hit
  exact hit

end Zofi.Lines
