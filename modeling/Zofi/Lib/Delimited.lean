import Zofi.Lib.Lines

/-! Tables of lines of fields: a field is padded on the left and ends in a separator of two
different elements. -/
namespace Zofi.Delimited
open Lines

variable {α : Type}

def Undivided (a b : α) (field : List α) : Prop := ¬ [a,b] <:+: field

theorem undivided_nil (a b : α) : Undivided a b [] := by simp [Undivided]

theorem Undivided.tail {a b c : α} {field : List α} (undivided : Undivided a b (c :: field)) : Undivided a b field :=
  fun within => undivided (within.trans (List.suffix_cons c field).isInfix)

theorem Undivided.head {a b c d : α} {field : List α} (undivided : Undivided a b (c :: d :: field)) : ¬ (c = a ∧ d = b) := by
  rintro ⟨rfl,rfl⟩
  exact undivided ⟨[],field,rfl⟩

theorem Undivided.suffix {a b : α} {field part : List α} (undivided : Undivided a b field) (behind : part <:+ field) :
    Undivided a b part := fun within => undivided (within.trans behind.isInfix)

theorem undivided_cons (a b c : α) (field : List α) (rest : Undivided a b field)
    (head : ¬ (c = a ∧ field.head? = some b)) : Undivided a b (c :: field) := by
  intro within
  rcases List.infix_cons_iff.mp within with first | later
  · obtain ⟨text,same⟩ := first
    obtain ⟨rfl,rfl⟩ := List.cons.inj same
    exact head ⟨rfl,rfl⟩
  · exact rest later

variable [DecidableEq α] (a b : α)

instance (field : List α) : Decidable (Undivided a b field) := inferInstanceAs (Decidable (¬ _))

/-- The fields of a text; what is left behind the last separator is a field too. -/
def split : List α → List (List α)
  | [] => []
  | [c] => [[c]]
  | c :: d :: text =>
    if c = a ∧ d = b then [] :: split text
    else match split (d :: text) with
      | [] => [[c]]
      | field :: rest => (c :: field) :: rest

theorem split_head (c : α) (text field : List α) (rest : List (List α)) (fields : split a b (c :: text) = field :: rest) :
    field = [] ∨ field.head? = some c := by
  cases text with
  | nil => exact .inr (by rw [← (List.cons.inj fields).1]; rfl)
  | cons d text =>
    rw [split] at fields
    split at fields
    · exact .inl (List.cons.inj fields).1.symm
    · split at fields
      · exact .inr (by rw [← (List.cons.inj fields).1]; rfl)
      · exact .inr (by rw [← (List.cons.inj fields).1]; rfl)

theorem split_undivided (text : List α) : ∀ field ∈ split a b text, Undivided a b field := by
  fun_induction split a b text with
  | case1 => simp
  | case2 c =>
    rw [List.forall_mem_singleton]
    exact undivided_cons a b c [] (undivided_nil a b) (by simp)
  | case3 c d text both ih => exact List.forall_mem_cons.mpr ⟨undivided_nil a b,ih⟩
  | case4 c d text other none ih =>
    rw [List.forall_mem_singleton]
    exact undivided_cons a b c [] (undivided_nil a b) (by simp)
  | case5 c d text other field rest fields ih =>
    rw [fields] at ih
    obtain ⟨first,others⟩ := List.forall_mem_cons.mp ih
    refine List.forall_mem_cons.mpr ⟨undivided_cons a b c field first ?_,others⟩
    rintro ⟨rfl,second⟩
    rcases split_head c b d text field rest fields with rfl | head
    · cases second
    · exact other ⟨rfl,Option.some.inj (head.symm.trans second)⟩

theorem split_field (apart : a ≠ b) (field rest : List α) (undivided : Undivided a b field) :
    split a b (field ++ a :: b :: rest) = field :: split a b rest := by
  induction field with
  | nil => rw [List.nil_append,split,if_pos ⟨rfl,rfl⟩]
  | cons c field ih =>
    have later := ih undivided.tail
    cases field with
    | nil =>
      rw [List.nil_append] at later
      rw [List.singleton_append,split,if_neg fun both => apart both.2,later]
    | cons d field =>
      rw [List.cons_append] at later
      rw [List.cons_append,List.cons_append,split,if_neg undivided.head,later]

theorem split_subset (text : List α) : ∀ field ∈ split a b text, field ⊆ text := by
  fun_induction split a b text with
  | case1 => simp
  | case2 c => simp
  | case3 c d text both ih =>
    exact List.forall_mem_cons.mpr ⟨List.nil_subset _,fun field member => List.Subset.trans (ih field member)
      (List.Subset.trans (List.subset_cons_self _ _) (List.subset_cons_self _ _))⟩
  | case4 c d text other none ih => simp
  | case5 c d text other field rest fields ih =>
    rw [fields] at ih
    obtain ⟨first,others⟩ := List.forall_mem_cons.mp ih
    refine List.forall_mem_cons.mpr ⟨List.cons_subset_cons c first,fun field member => ?_⟩
    exact List.Subset.trans (others field member) (List.subset_cons_self _ _)

/-! Lines of padded fields. -/

section Table

variable (pad sep : α) (width : Nat)

structure Plain (field : List α) : Prop where
  undivided : Undivided a b field
  unpadded : field.head? ≠ some pad
  line : sep ∉ field

/-- `width` is what a field is padded to. -/
def fieldText (field : List α) : List α := List.replicate (width - field.length) pad ++ field ++ [a,b]

def lineText (fields : List (List α)) : List α := fields.flatMap (fieldText a b pad width)

def tableText (rows : List (List (List α))) : List α := unlines sep (rows.map (lineText a b pad width))

def readLine (line : List α) : List (List α) := (split a b line).map (List.dropWhile fun c => decide (c = pad))

def readTable (text : List α) : List (List (List α)) := (lines sep text).map (readLine a b pad)

theorem readTable_plain (text : List α) : ∀ row ∈ readTable a b pad sep text, ∀ field ∈ row, Plain a b pad sep field := by
  rw [readTable,List.forall_mem_map]
  intro line inside
  rw [readLine,List.forall_mem_map]
  intro field member
  have behind : field.dropWhile (fun c => decide (c = pad)) <:+ field := List.dropWhile_suffix _
  refine ⟨(split_undivided a b line field member).suffix behind,?_,fun within => ?_⟩
  · intro head
    have stops := List.head?_dropWhile_not (fun c => decide (c = pad)) field
    rw [head] at stops
    simp at stops
  · exact lines_plain sep text line inside (split_subset a b line field member (behind.subset within))

variable (apart : a ≠ b) (padded : pad ≠ a)

include apart padded in
theorem readLine_lineText (fields : List (List α))
    (plain : ∀ field ∈ fields, Plain a b pad sep field) : readLine a b pad (lineText a b pad width fields) = fields := by
  induction fields with
  | nil => rfl
  | cons field fields ih =>
    obtain ⟨first,others⟩ := List.forall_mem_cons.mp plain
    have undivided (n : Nat) : Undivided a b (List.replicate n pad ++ field) := by
      induction n with
      | zero => exact first.undivided
      | succ n ih => exact undivided_cons a b pad _ ih fun both => padded both.1
    have text : lineText a b pad width (field :: fields) =
        (List.replicate (width - field.length) pad ++ field) ++ a :: b :: lineText a b pad width fields := by
      simp [lineText,fieldText]
    have unpadded : (List.replicate (width - field.length) pad ++ field).dropWhile (fun c => decide (c = pad)) = field := by
      rw [List.dropWhile_append_of_pos fun c member => decide_eq_true (List.eq_of_mem_replicate member)]
      cases field with
      | nil => rfl
      | cons c field =>
        have head := first.unpadded
        rw [List.head?_cons,Ne,Option.some_inj] at head
        exact List.dropWhile_cons_of_neg (by simpa using head)
    rw [text,readLine,split_field a b apart _ _ (undivided _),List.map_cons,unpadded]
    exact congrArg (field :: ·) (ih others)

variable (ends : sep ≠ a ∧ sep ≠ b ∧ sep ≠ pad)

omit [DecidableEq α] in
include ends in
theorem lineText_line (fields : List (List α)) (plain : ∀ field ∈ fields, sep ∉ field) :
    sep ∉ lineText a b pad width fields := by
  intro member
  obtain ⟨field,inside,member⟩ := List.mem_flatMap.mp member
  simp only [fieldText,List.mem_append,List.mem_cons,List.not_mem_nil,or_false] at member
  rcases member with (blank | own) | first | second
  · exact ends.2.2 (List.eq_of_mem_replicate blank)
  · exact plain field inside own
  · exact ends.1 first
  · exact ends.2.1 second

include apart padded ends in
theorem readTable_tableText (rows : List (List (List α))) :
    readTable a b pad sep (tableText a b pad sep width rows) = rows ↔ ∀ row ∈ rows, ∀ field ∈ row, Plain a b pad sep field := by
  constructor
  · intro same
    rw [← same]
    exact readTable_plain a b pad sep _
  · intro plain
    have whole := lines_unlines sep (rows.map (lineText a b pad width)) [] (by
      rw [List.forall_mem_map]
      exact fun row inside => lineText_line a b pad sep width ends row fun field member => (plain row inside field member).line)
    rw [List.append_nil,lines,List.append_nil] at whole
    rw [readTable,tableText,whole,List.map_map]
    conv_rhs => rw [← List.map_id rows]
    exact List.map_congr_left fun row inside =>
      readLine_lineText a b pad sep width apart padded row (plain row inside)

end Table

end Zofi.Delimited
