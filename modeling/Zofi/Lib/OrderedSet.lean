import Mathlib.Data.List.Perm.Basic
import Mathlib.Order.Defs.Unbundled

/-! Sets that are kept in the order of a comparator, as std::set keeps them: what is neither
below nor above an element counts as equal to it. -/
namespace Zofi.OrderedSet

variable {α : Type} {less : α → α → Bool} {carrier : α → Prop}

def insert (less : α → α → Bool) (x : α) : List α → List α
  | [] => [x]
  | first :: rest =>
    if less x first then x :: first :: rest
    else if less first x then first :: insert less x rest
    else first :: rest

def find (less : α → α → Bool) (set : List α) (key : α) : Option α :=
  (set.dropWhile (less · key)).head?.filter fun found => !less key found

def ofList (less : α → α → Bool) (items : List α) : List α := items.foldl (fun set x => insert less x set) []

structure Orders (less : α → α → Bool) (carrier : α → Prop) : Prop where
  irrefl : ∀ a, carrier a → less a a = false
  trans : ∀ a b c, carrier a → carrier b → carrier c → less a b = true → less b c = true → less a c = true
  total : ∀ a b, carrier a → carrier b → a ≠ b → less a b = true ∨ less b a = true

theorem Orders.asymm (orders : Orders less carrier) (a b : α) (one : carrier a) (two : carrier b)
    (below : less a b = true) : less b a = false := by
  rw [Bool.eq_false_iff]
  intro above
  have self := orders.trans a b a one two one below above
  rw [orders.irrefl a one] at self
  cases self

theorem Orders.strictTotal (orders : Orders less carrier) :
    IsStrictTotalOrder {a // carrier a} fun a b => less a b = true where
  irrefl a := by simp [orders.irrefl a a.property]
  trans a b c := orders.trans a b c a.property b.property c.property
  trichotomous a b notBelow notAbove := by
    by_contra apart
    rcases orders.total a b a.property b.property fun same => apart (Subtype.ext same) with below | above
    · exact notBelow below
    · exact notAbove above

theorem insert_perm (orders : Orders less carrier) (x : α) (set : List α) (new : carrier x)
    (old : ∀ y ∈ set, carrier y) (fresh : x ∉ set) : (insert less x set).Perm (x :: set) := by
  induction set with
  | nil => exact List.Perm.refl _
  | cons first rest ih =>
    obtain ⟨head,tail⟩ := List.forall_mem_cons.mp old
    have apart : x ≠ first := List.ne_of_not_mem_cons fresh
    have later : x ∉ rest := List.not_mem_of_not_mem_cons fresh
    unfold insert
    split
    · exact List.Perm.refl _
    · next notBelow =>
      rw [if_pos ((orders.total x first new head apart).resolve_left notBelow)]
      exact ((ih tail later).cons first).trans (List.Perm.swap x first rest)

theorem insert_sorted (orders : Orders less carrier) (x : α) (set : List α) (new : carrier x)
    (old : ∀ y ∈ set, carrier y) (fresh : x ∉ set) (sorted : set.Pairwise fun a b => less a b = true) :
    (insert less x set).Pairwise fun a b => less a b = true := by
  induction set with
  | nil => exact List.pairwise_singleton _ _
  | cons first rest ih =>
    obtain ⟨head,tail⟩ := List.forall_mem_cons.mp old
    have apart : x ≠ first := List.ne_of_not_mem_cons fresh
    have later : x ∉ rest := List.not_mem_of_not_mem_cons fresh
    obtain ⟨front,rest_sorted⟩ := List.pairwise_cons.mp sorted
    unfold insert
    split
    · next below =>
      apply List.pairwise_cons.mpr
      refine ⟨?_,sorted⟩
      intro y member
      rcases List.mem_cons.mp member with rfl | behind
      · exact below
      · exact orders.trans x first y new head (tail y behind) below (front y behind)
    · next notBelow =>
      have above := (orders.total x first new head apart).resolve_left notBelow
      rw [if_pos above]
      apply List.pairwise_cons.mpr
      refine ⟨?_,ih tail later rest_sorted⟩
      intro y member
      rcases List.mem_cons.mp ((insert_perm orders x rest new tail later).mem_iff.mp member) with rfl | behind
      · exact above
      · exact front y behind

theorem foldl_insert (orders : Orders less carrier) (items set : List α) (all : ∀ y ∈ set ++ items, carrier y)
    (distinct : (set ++ items).Nodup) (sorted : set.Pairwise fun a b => less a b = true) :
    (items.foldl (fun set x => insert less x set) set).Perm (set ++ items) ∧
      (items.foldl (fun set x => insert less x set) set).Pairwise fun a b => less a b = true := by
  induction items generalizing set with
  | nil => simpa using sorted
  | cons x items ih =>
    have moved : (set ++ x :: items).Perm (x :: set ++ items) := List.perm_middle
    have old (y : α) (member : y ∈ set) : carrier y := all y (List.mem_append_left _ member)
    have new : carrier x := all x (by simp)
    have fresh : x ∉ set := by
      have apart := moved.nodup distinct
      exact fun member => (List.nodup_cons.mp apart).1 (List.mem_append_left _ member)
    have grown := (insert_perm orders x set new old fresh).append_right items
    have same := moved.trans grown.symm
    obtain ⟨perm,kept⟩ := ih (insert less x set) (fun y member => all y (same.mem_iff.mpr member))
      (same.nodup distinct) (insert_sorted orders x set new old fresh sorted)
    exact ⟨perm.trans same.symm,kept⟩

theorem ofList_sorted (items : List α) (orders : Orders less (· ∈ items)) (distinct : items.Nodup) :
    (ofList less items).Perm items ∧ (ofList less items).Pairwise fun a b => less a b = true :=
  foldl_insert orders items [] (fun _ member => member) distinct List.Pairwise.nil

theorem ofList_order (items other : List α) (orders : Orders less (· ∈ items)) (distinct : items.Nodup)
    (same : other.Perm items) : ofList less other = ofList less items := by
  have others : Orders less (· ∈ other) := by
    simpa only [same.mem_iff] using orders
  obtain ⟨one,left⟩ := ofList_sorted items orders distinct
  obtain ⟨two,right⟩ := ofList_sorted other others (same.symm.nodup distinct)
  refine (two.trans (same.trans one.symm)).eq_of_pairwise ?_ right left
  intro a b first second below above
  have member := same.mem_iff.mp (two.mem_iff.mp first)
  rw [orders.asymm a b member (one.mem_iff.mp second) below] at above
  cases above

theorem find_passed (first : α) (rest : List α) (key : α) (passed : less first key = true) :
    find less (first :: rest) key = find less rest key := by
  simp only [find,List.dropWhile_cons,passed,if_true]

theorem find_stopped (first : α) (rest : List α) (key : α) (stopped : less first key = false) :
    find less (first :: rest) key = if less key first then none else some first := by
  simp only [find,List.dropWhile_cons,stopped,Bool.false_eq_true,if_false,List.head?_cons,Option.filter_some]
  cases less key first <;> rfl

/-- find() returns the one element that passes for the key and has only smaller elements before
it. -/
theorem find_eq_some_iff (orders : Orders less carrier) (set : List α) (old : ∀ y ∈ set, carrier y)
    (sorted : set.Pairwise fun a b => less a b = true) (key found : α) :
    find less set key = some found ↔ found ∈ set ∧ less found key = false ∧ less key found = false ∧
      ∀ y ∈ set, less y found = true → less y key = true := by
  induction set with
  | nil => simp [find]
  | cons first rest ih =>
    obtain ⟨head,tail⟩ := List.forall_mem_cons.mp old
    obtain ⟨front,rest_sorted⟩ := List.pairwise_cons.mp sorted
    cases passed : less first key with
    | true =>
      rw [find_passed first rest key passed,ih tail rest_sorted]
      constructor
      · rintro ⟨member,notBelow,notAbove,before⟩
        refine ⟨List.mem_cons_of_mem _ member,notBelow,notAbove,?_⟩
        exact List.forall_mem_cons.mpr ⟨fun _ => passed,before⟩
      · rintro ⟨member,notBelow,notAbove,before⟩
        rcases List.mem_cons.mp member with rfl | behind
        · rw [passed] at notBelow
          cases notBelow
        · exact ⟨behind,notBelow,notAbove,(List.forall_mem_cons.mp before).2⟩
    | false =>
      rw [find_stopped first rest key passed]
      constructor
      · intro returned
        split at returned
        · cases returned
        · next notAbove =>
          cases returned
          refine ⟨List.mem_cons_self,passed,Bool.eq_false_iff.mpr notAbove,?_⟩
          intro y member below
          rcases List.mem_cons.mp member with rfl | behind
          · rw [orders.irrefl y head] at below
            cases below
          · rw [orders.asymm found y head (tail y behind) (front y behind)] at below
            cases below
      · rintro ⟨member,_,notAbove,before⟩
        rcases List.mem_cons.mp member with rfl | behind
        · rw [if_neg (Bool.eq_false_iff.mp notAbove)]
        · have below := before first List.mem_cons_self (front found behind)
          rw [passed] at below
          cases below

end Zofi.OrderedSet
