import Zofi.Lib.Keyed

/-! The descriptors of a process, whose numbers are given out again behind a close, with a ledger
of what has been opened and closed. -/
namespace Zofi.Descriptors
open Keyed

/-- A descriptor in use, and the number of the opening it came by. -/
structure Entry where
  fd : Int
  opening : Nat
  deriving DecidableEq, Repr

structure Table where
  entries : List Entry
  opened : Nat
  closed : List Nat
  distinct : (entries.map Entry.fd).Nodup
  ledger : (entries.map Entry.opening ++ closed).Perm (List.range opened)

namespace Table

def live (table : Table) : List Nat := table.entries.map Entry.opening

abbrev Unused (table : Table) := {fd : Int // 0 ≤ fd ∧ fd ∉ table.entries.map Entry.fd}

def open_ (table : Table) (fd : table.Unused) : Table where
  entries := ⟨fd.val,table.opened⟩ :: table.entries
  opened := table.opened + 1
  closed := table.closed
  distinct := List.nodup_cons.mpr ⟨fd.property.2,table.distinct⟩
  ledger := by
    rw [List.range_succ]
    exact (table.ledger.cons table.opened).trans (List.perm_append_singleton _ _).symm

def without (table : Table) (entry : Entry) (member : entry ∈ table.entries) : Table where
  entries := table.entries.erase entry
  opened := table.opened
  closed := table.closed ++ [entry.opening]
  distinct := table.distinct.sublist (List.erase_sublist.map Entry.fd)
  ledger := by
    have parts := (List.perm_cons_erase member).map Entry.opening
    apply List.Perm.trans _ table.ledger
    rw [← List.append_assoc]
    refine (List.perm_append_singleton _ _).trans ?_
    exact (parts.append_right table.closed).symm

def close (table : Table) (fd : Int) : Option Table :=
  match found : table.entries.find? (fun entry => entry.fd == fd) with
  | some entry => some (table.without entry (List.mem_of_find?_eq_some found))
  | none => none

theorem close_member (table : Table) (entry : Entry) (member : entry ∈ table.entries) :
    table.close entry.fd = some (table.without entry member) := by
  have found := find_key Entry.fd table.entries entry member (unique_of_nodup table.distinct member)
  unfold close
  split
  · next other same =>
    cases Option.some.inj (found.symm.trans same)
    rfl
  · next none =>
    cases found.symm.trans none

theorem openings_nodup (table : Table) : (table.live ++ table.closed).Nodup :=
  table.ledger.nodup_iff.mpr List.nodup_range

theorem closed_once (table : Table) (opening : Nat) : table.closed.count opening ≤ 1 :=
  List.nodup_iff_count_le_one.mp table.openings_nodup.of_append_right opening

theorem closed_not_live (table : Table) (opening : Nat) (closed : opening ∈ table.closed) : opening ∉ table.live :=
  fun live => List.disjoint_of_nodup_append table.openings_nodup live closed

/-- What a change of the table leaves as it is. -/
structure Keeps (openings : List Nat) (before after : Table) : Prop where
  entries : ∀ entry ∈ before.entries, entry.opening ∈ openings → entry ∈ after.entries
  closed : ∀ opening ∈ before.closed, opening ∈ after.closed
  opened : before.opened ≤ after.opened

theorem Keeps.refl (openings : List Nat) (table : Table) : Keeps openings table table where
  entries _ member _ := member
  closed _ member := member
  opened := Nat.le_refl _

theorem keeps_open (openings : List Nat) (table : Table) (fd : table.Unused) : Keeps openings table (table.open_ fd) where
  entries _ member _ := List.mem_cons_of_mem _ member
  closed _ member := member
  opened := Nat.le_succ _

theorem keeps_without (openings : List Nat) (table : Table) (entry : Entry) (member : entry ∈ table.entries)
    (apart : entry.opening ∉ openings) : Keeps openings table (table.without entry member) where
  entries other inside own := by
    refine (List.mem_erase_of_ne ?_).mpr inside
    rintro rfl
    exact apart own
  closed _ closed := List.mem_append_left _ closed
  opened := Nat.le_refl _

theorem Keeps.mono {openings fewer : List Nat} {before after : Table} (keeps : Keeps openings before after)
    (subset : ∀ opening ∈ fewer, opening ∈ openings) : Keeps fewer before after where
  entries entry member own := keeps.entries entry member (subset _ own)
  closed := keeps.closed
  opened := keeps.opened

end Table

end Zofi.Descriptors
