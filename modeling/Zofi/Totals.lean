import Mathlib.Data.Rat.Cast.Order
import Zofi.Lib.Sys
import Zofi.Model.StatisticsObject

/-! The totals of the Statistics and the counters they stand for. -/
namespace Zofi.Totals
open Sys Model.Utils Model.Outcomes Model.StatisticsObject

variable {ρ : Type}

/-- The outcomes of the runs whose injection has not failed. -/
def okStats : List StatType := [.masked,.exception,.infExec,.corrupted,.detected]

def counters : List StatType := okStats ++ [.injFailed,.skipped]

def sumOf (types : List StatType) (stats : Statistics) : Nat := (types.map stats.uLongMap).sum

structure Consistent (object : Object ρ) : Prop where
  totalInjOK : object.counts.totalInjOK = sumOf okStats object.counts
  grandTotal : object.counts.grandTotal = sumOf counters object.counts
  shares : object.counts.totalInjOK ≠ 0 → (okStats.map object.share).sum = 100

/-- The totals are ahead of the counters by what was counted before a zero(). -/
structure Ahead (object : Object ρ) (ok all : Nat) : Prop where
  within : ok ≤ all
  totalInjOK : object.counts.totalInjOK = sumOf okStats object.counts + ok
  grandTotal : object.counts.grandTotal = sumOf counters object.counts + all

def Call.Counts : Call ρ → Prop
  | .incr _ => True
  | _ => False

theorem sumOf_counters (stats : Statistics) : sumOf counters stats =
    sumOf okStats stats + (stats.uLongMap .injFailed + stats.uLongMap .skipped) := by
  simp [sumOf,counters]

theorem sum_share (object : Object ρ) (types : List StatType) : (types.map object.share).sum =
    (sumOf types object.counts : Nat) * 100 / (object.counts.totalInjOK : Nat) := by
  induction types with
  | nil => simp [sumOf]
  | cons s types ih =>
    have head : sumOf (s :: types) object.counts = object.counts.uLongMap s + sumOf types object.counts := rfl
    rw [List.map_cons,List.sum_cons,ih,head,Object.share,← add_div,← add_mul,Nat.cast_add]

theorem consistent_iff (object : Object ρ) (ok all : Nat) (ahead : Ahead object ok all) :
    Consistent object ↔ all = 0 := by
  have within := ahead.within
  have total := ahead.totalInjOK
  have grand := ahead.grandTotal
  constructor
  · intro consistent
    have same := consistent.grandTotal
    omega
  · intro none
    have exact_ : object.counts.totalInjOK = sumOf okStats object.counts := by omega
    refine ⟨exact_,by omega,fun some => ?_⟩
    rw [sum_share,← exact_]
    exact mul_div_cancel_left₀ 100 (Nat.cast_ne_zero.mpr some)

theorem incr_ahead (object object' : Object ρ) (s : StatType) (ran : object.incr s = .ok object') (ok all : Nat)
    (ahead : Ahead object ok all) : Ahead object' ok all ∧ object'.counts.grandTotal ≠ 0 := by
  obtain ⟨within,total,grand⟩ := ahead
  obtain ⟨counts,counted,same⟩ := except_bind_ok _ _ _ ran
  obtain rfl := Except.ok.inj same
  simp only [counters,okStats,sumOf,List.map_cons,List.map_nil,List.sum_cons,List.sum_nil,List.cons_append,
    List.nil_append] at total grand
  cases s <;> simp only [Statistics.incr,isCounter,if_true,Bool.false_eq_true,if_false,reduceCtorEq,Except.ok.injEq] at counted
  all_goals
    subst counted
    refine ⟨⟨within,?_,?_⟩,?_⟩
    all_goals simp [sumOf,counters,okStats] <;> omega

theorem zero_ahead (object : Object ρ) (ok all : Nat) (ahead : Ahead object ok all) :
    Ahead object.zero object.counts.totalInjOK object.counts.grandTotal := by
  obtain ⟨within,total,grand⟩ := ahead
  rw [sumOf_counters] at grand
  refine ⟨by omega,?_,?_⟩
  · simp [Object.zero,sumOf,okStats,isCounter]
  · simp [Object.zero,sumOf,counters,okStats,isCounter]

theorem set_ahead (object : Object ρ) (s : StatType) (val : Nat) (other : s = .numTests ∨ s = .testRuns) (ok all : Nat)
    (ahead : Ahead object ok all) : Ahead (object.putULong s val) ok all := by
  obtain ⟨within,total,grand⟩ := ahead
  have kept (t : StatType) (counter : t ∈ counters) :
      (object.putULong s val).counts.uLongMap t = object.counts.uLongMap t := by
    apply Function.update_of_ne
    rintro rfl
    rcases other with rfl | rfl <;> exact absurd counter (by decide)
  have sums (types : List StatType) (inside : ∀ t ∈ types, t ∈ counters) :
      sumOf types (object.putULong s val).counts = sumOf types object.counts :=
    congrArg List.sum (List.map_congr_left fun t member => kept t (inside t member))
  refine ⟨within,?_,?_⟩
  · rw [sums okStats fun t member => List.mem_append_left _ member]
    exact total
  · rw [sums counters fun _ member => member]
    exact grand

theorem apply_ahead (object object' : Object ρ) (call : Call ρ) (ran : call.apply object = .ok object') (ok all : Nat)
    (ahead : Ahead object ok all) :
    (call = .zero ∧ Ahead object' object.counts.totalInjOK object.counts.grandTotal ∧
      object'.counts.grandTotal = object.counts.grandTotal) ∨
    (Call.Counts call ∧ Ahead object' ok all ∧ object'.counts.grandTotal ≠ 0) ∨
    (call ≠ .zero ∧ ¬ Call.Counts call ∧ Ahead object' ok all ∧
      object'.counts.grandTotal = object.counts.grandTotal) := by
  cases call with
  | zero =>
    obtain rfl := Except.ok.inj ran
    exact .inl ⟨rfl,zero_ahead object ok all ahead,rfl⟩
  | incr s => exact .inr (.inl ⟨trivial,incr_ahead object object' s ran ok all ahead⟩)
  | setULong s val =>
    refine .inr (.inr ⟨nofun,id,?_⟩)
    cases s <;> simp only [Call.apply,Object.setULong,reduceCtorEq,Except.ok.injEq] at ran
    · subst ran
      exact ⟨set_ahead object _ val (.inl rfl) ok all ahead,rfl⟩
    · subst ran
      exact ⟨set_ahead object _ val (.inr rfl) ok all ahead,rfl⟩
  | setDouble s val =>
    refine .inr (.inr ⟨nofun,id,?_⟩)
    cases s <;> simp only [Call.apply,Object.setDouble,reduceCtorEq,Except.ok.injEq] at ran
    all_goals
      subst ran
      exact ⟨⟨ahead.within,ahead.totalInjOK,ahead.grandTotal⟩,rfl⟩

theorem new_ahead (options : Options) : Ahead (.new options : Object ρ) 0 0 :=
  ⟨Nat.le_refl 0,rfl,rfl⟩

def ZeroFirst (calls : List (Call ρ)) : Prop := calls.Pairwise fun earlier later => Call.Counts earlier → later ≠ .zero

theorem run_ahead (options : Options) (calls : List (Call ρ)) (object : Object ρ)
    (ran : run (.new options) calls = .ok object) :
    (∃ ok all, Ahead object ok all ∧ (all = 0 ↔ ZeroFirst calls)) ∧
      (object.counts.grandTotal = 0 ↔ ∀ call ∈ calls, ¬ Call.Counts call) := by
  induction calls using List.reverseRecOn generalizing object with
  | nil =>
    obtain rfl := Except.ok.inj ran
    exact ⟨⟨0,0,new_ahead options,iff_of_true rfl .nil⟩,iff_of_true rfl (List.forall_mem_nil _)⟩
  | append_singleton calls call ih =>
    unfold run at ran
    rw [List.foldlM_append] at ran
    obtain ⟨middle,before,last⟩ := except_bind_ok _ _ _ ran
    obtain ⟨next,applied,same⟩ := except_bind_ok _ _ _ last
    obtain rfl := Except.ok.inj same
    obtain ⟨⟨ok,all,ahead,first⟩,counted⟩ := ih middle before
    have snoc : ZeroFirst (calls ++ [call]) ↔
        ZeroFirst calls ∧ ∀ earlier ∈ calls, Call.Counts earlier → call ≠ .zero := by
      simp [ZeroFirst,List.pairwise_append]
    rw [snoc,List.forall_mem_append,List.forall_mem_singleton]
    rcases apply_ahead middle next call applied ok all ahead with ⟨rfl,lead,same⟩ | ⟨counts,lead,some⟩ |
      ⟨other,silent,lead,same⟩
    · refine ⟨⟨_,_,lead,counted.trans ⟨fun none => ⟨?_,?_⟩,fun late call member counts => late.2 call member counts rfl⟩⟩,?_⟩
      · exact List.pairwise_of_forall_mem_list fun earlier member _ _ counts => absurd counts (none earlier member)
      · exact fun earlier member counts => absurd counts (none earlier member)
      · have silent : ¬ Call.Counts (.zero : Call ρ) := id
        rw [same,and_iff_left silent]
        exact counted
    · refine ⟨⟨ok,all,lead,first.trans (and_iff_left ?_).symm⟩,iff_of_false some fun none => none.2 counts⟩
      rintro earlier _ _ rfl
      exact counts
    · refine ⟨⟨ok,all,lead,first.trans (and_iff_left fun _ _ _ => other).symm⟩,?_⟩
      rw [same,and_iff_left silent]
      exact counted

/-- The totals are those of the counters, in every state that is reached, exactly if no zero() was called behind an
incr(). -/
theorem consistent_run_iff (options : Options) (calls : List (Call ρ)) (object : Object ρ)
    (ran : run (.new options) calls = .ok object) : Consistent object ↔ ZeroFirst calls := by
  obtain ⟨⟨ok,all,ahead,first⟩,_⟩ := run_ahead options calls object ran
  exact (consistent_iff object ok all ahead).trans first

def counting : List (Call Unit) := [.zero,.setULong .numTests 2,.incr .masked,.incr .skipped]

theorem counting_consistent : ∃ object, run (.new {binary := "/bin/ls"}) counting = .ok object ∧ Consistent object := by
  have ran : run (.new {binary := "/bin/ls"}) counting = .ok _ := rfl
  refine ⟨_,ran,(consistent_run_iff _ counting _ ran).mpr ?_⟩
  simp [ZeroFirst,counting]

theorem zeroed_inconsistent : ∃ object : Object Unit,
    run (.new {binary := "/bin/ls"}) [.incr .masked,.zero] = .ok object ∧ ¬ Consistent object := by
  refine ⟨_,rfl,?_⟩
  intro consistent
  exact absurd consistent.totalInjOK (by decide)

end Zofi.Totals
