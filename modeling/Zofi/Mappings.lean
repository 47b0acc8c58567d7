import Mathlib.Data.List.Pairwise
import Zofi.Lib.OrderedSet
import Zofi.Model.AddrSpace

/-! The set of the mappings: Mapping::operator< orders ranges that share no address, so that the
set holds all of them, and the lookup of an address in it. -/
namespace Zofi.Mappings
open OrderedSet Model.AddrSpace

def Apart (a b : Mapping) : Prop := a.toAddr ≤ b.fromAddr ∨ b.toAddr ≤ a.fromAddr

instance (a b : Mapping) : Decidable (Apart a b) := inferInstanceAs (Decidable (_ ∨ _))

instance : Std.Symm Apart := ⟨fun _ _ => Or.symm⟩

structure Separate (ranges : List Mapping) : Prop where
  occupied : ∀ m ∈ ranges, m.fromAddr < m.toAddr
  apart : ranges.Pairwise Apart

def stored (ranges : List Mapping) : MappingsSet := ranges.foldl (fun set m => MappingsSet.insert m set) []

theorem insert_ordered (m : Mapping) (set : MappingsSet) :
    MappingsSet.insert m set = OrderedSet.insert Mapping.less m set := by
  induction set with
  | nil => rfl
  | cons first rest ih => rw [MappingsSet.insert,OrderedSet.insert,ih]

theorem stored_ofList (ranges : List Mapping) : stored ranges = ofList Mapping.less ranges := by
  unfold stored ofList
  simp only [insert_ordered]

theorem Separate.perm {ranges other : List Mapping} (separate : Separate ranges) (same : other.Perm ranges) :
    Separate other where
  occupied m member := separate.occupied m (same.mem_iff.mp member)
  apart := separate.apart.perm same.symm Or.symm

theorem Separate.distinct {ranges : List Mapping} (separate : Separate ranges) : ranges.Nodup := by
  apply separate.apart.imp_of_mem
  intro a b member _ apart same
  have occupied := separate.occupied a member
  subst b
  rcases apart with before | behind <;> omega

theorem Separate.cases {ranges : List Mapping} (separate : Separate ranges) {a b : Mapping} (one : a ∈ ranges)
    (two : b ∈ ranges) (different : a ≠ b) : a.toAddr ≤ b.fromAddr ∨ b.toAddr ≤ a.fromAddr :=
  separate.apart.forall one two different

theorem less_iff (a b : Mapping) : a.less b = true ↔ a.fromAddr < b.fromAddr ∧ a.toAddr < b.toAddr := by
  simp [Mapping.less]

theorem Separate.less_iff {ranges : List Mapping} (separate : Separate ranges) {a b : Mapping} (one : a ∈ ranges)
    (two : b ∈ ranges) : a.less b = true ↔ a.toAddr ≤ b.fromAddr := by
  have first := separate.occupied a one
  have second := separate.occupied b two
  rw [Mappings.less_iff]
  constructor
  · rintro ⟨starts,stops⟩
    have different : a ≠ b := by
      rintro rfl
      omega
    rcases separate.cases one two different with before | behind <;> omega
  · omega

theorem Separate.orders {ranges : List Mapping} (separate : Separate ranges) :
    Orders Mapping.less (· ∈ ranges) where
  irrefl m _ := by simp [Mapping.less]
  trans a b c _ _ _ := by
    simp only [Mappings.less_iff]
    omega
  total a b one two different := by
    rw [separate.less_iff one two,separate.less_iff two one]
    exact separate.cases one two different

/-- Whatever the order the ranges come in, the set holds each of them once, by address. -/
theorem stored_ordered (ranges other : List Mapping) (separate : Separate ranges) (same : other.Perm ranges) :
    IsStrictTotalOrder {m // m ∈ ranges} (fun a b => Mapping.less a b = true) ∧
      (stored other).Perm ranges ∧ (stored other).Nodup ∧
      (stored other).Pairwise (fun a b => a.toAddr ≤ b.fromAddr) ∧ stored other = stored ranges := by
  have others := separate.perm same
  obtain ⟨all,sorted⟩ := ofList_sorted other others.orders others.distinct
  rw [stored_ofList,stored_ofList]
  refine ⟨separate.orders.strictTotal,all.trans same,all.symm.nodup others.distinct,?_,?_⟩
  · apply sorted.imp_of_mem
    intro a b one two below
    exact (others.less_iff (all.mem_iff.mp one) (all.mem_iff.mp two)).mp below
  · exact ofList_order ranges other separate.orders separate.distinct same

def someRanges : List Mapping := [⟨0x5000,0x6000,"/lib/b".toList⟩,⟨0x1000,0x2000,"/bin/a".toList⟩,⟨0x2000,0x3000,[]⟩]

theorem someRanges_separate : Separate someRanges := ⟨by decide,by decide⟩

theorem someRanges_ordered : stored someRanges =
      [⟨0x1000,0x2000,"/bin/a".toList⟩,⟨0x2000,0x3000,[]⟩,⟨0x5000,0x6000,"/lib/b".toList⟩] ∧
    (stored someRanges.reverse).Nodup ∧ stored someRanges.reverse = stored someRanges := by
  have ordered := stored_ordered someRanges someRanges.reverse someRanges_separate (List.reverse_perm _)
  exact ⟨by decide,ordered.2.2.1,ordered.2.2.2.2⟩

def Finds (ranges : List Mapping) (addr : Nat) : Prop :=
  ∀ m, MappingsSet.find (stored ranges) (.query addr) = some m ↔ m ∈ ranges ∧ m.fromAddr ≤ addr ∧ addr < m.toAddr

/-- The end of a range passes for a part of it: the first range that reaches the address is found. -/
theorem find_query_iff (ranges : List Mapping) (separate : Separate ranges) (addr : Nat) (found : Mapping) :
    MappingsSet.find (stored ranges) (.query addr) = some found ↔
      found ∈ ranges ∧ found.fromAddr ≤ addr ∧ addr ≤ found.toAddr ∧
        ∀ m ∈ ranges, m.toAddr ≤ found.fromAddr → m.toAddr < addr := by
  obtain ⟨all,sorted⟩ := ofList_sorted ranges separate.orders separate.distinct
  have old (m : Mapping) (member : m ∈ ofList Mapping.less ranges) : m ∈ ranges := all.mem_iff.mp member
  have lookup : MappingsSet.find (stored ranges) (.query addr) =
      OrderedSet.find Mapping.less (ofList Mapping.less ranges) (.query addr) := by
    rw [stored_ofList]
    rfl
  rw [lookup,find_eq_some_iff separate.orders _ old sorted,all.mem_iff]
  apply and_congr_right
  intro member
  have occupied := separate.occupied found member
  have below (m : Mapping) (inside : m ∈ ranges) : m.less (.query addr) = true ↔ m.toAddr < addr := by
    have occupied := separate.occupied m inside
    rw [less_iff]
    simp only [Mapping.query]
    omega
  have notBelow : found.less (.query addr) = false ↔ addr ≤ found.toAddr := by
    rw [Bool.eq_false_iff,ne_eq,below found member]
    omega
  have notAbove : (Mapping.query addr).less found = false ↔ found.fromAddr ≤ addr := by
    rw [Bool.eq_false_iff,ne_eq,less_iff]
    simp only [Mapping.query]
    omega
  have before : (∀ m ∈ ofList Mapping.less ranges, m.less found = true → m.less (.query addr) = true) ↔
      ∀ m ∈ ranges, m.toAddr ≤ found.fromAddr → m.toAddr < addr := by
    constructor
    · intro each m inside earlier
      have passed := each m (all.mem_iff.mpr inside) ((separate.less_iff inside member).mpr earlier)
      exact (below m inside).mp passed
    · intro each m inside earlier
      have inside := all.mem_iff.mp inside
      exact (below m inside).mpr (each m inside ((separate.less_iff inside member).mp earlier))
  rw [notBelow,notAbove,before]
  tauto

theorem finds_iff (ranges : List Mapping) (separate : Separate ranges) (addr : Nat) :
    Finds ranges addr ↔ ∀ m ∈ ranges, m.toAddr ≠ addr := by
  unfold Finds
  simp only [find_query_iff ranges separate]
  constructor
  · intro finds m member ends
    have occupied := separate.occupied m member
    have found : m ∈ ranges ∧ m.fromAddr ≤ addr ∧ addr ≤ m.toAddr ∧
        ∀ other ∈ ranges, other.toAddr ≤ m.fromAddr → other.toAddr < addr :=
      ⟨member,by omega,by omega,fun other _ earlier => by omega⟩
    have contained := ((finds m).mp found).2.2
    omega
  · intro apart m
    constructor
    · rintro ⟨member,starts,reaches,_⟩
      exact ⟨member,starts,lt_of_le_of_ne reaches fun same => apart m member same.symm⟩
    · rintro ⟨member,starts,contains⟩
      refine ⟨member,starts,contains.le,?_⟩
      intro other inside earlier
      exact lt_of_le_of_ne (earlier.trans starts) (apart other inside)

/-- 1000-2000 /bin/a, directly followed by 2000-3000 /lib/b -/
def adjacent : List Mapping := [⟨0x1000,0x2000,"/bin/a".toList⟩,⟨0x2000,0x3000,"/lib/b".toList⟩]

theorem adjacent_separate : Separate adjacent := ⟨by decide,by decide⟩

theorem adjacent_missed : Separate adjacent ∧
    MappingsSet.find (stored adjacent) (.query 0x2000) = some ⟨0x1000,0x2000,"/bin/a".toList⟩ ∧
    ¬ Finds adjacent 0x2000 := by
  have found : MappingsSet.find (stored adjacent) (.query 0x2000) = some ⟨0x1000,0x2000,"/bin/a".toList⟩ := by decide
  refine ⟨adjacent_separate,found,fun finds => ?_⟩
  have contained := ((finds _).mp found).2.2
  revert contained
  decide

theorem adjacent_found : Finds adjacent 0x2001 := (finds_iff adjacent adjacent_separate 0x2001).mpr (by decide)

end Zofi.Mappings
