import Zofi.Lib.Retry
import Zofi.Outputs

/-! How often `runAndWait` tries, and what it waits for in the end. -/
namespace Zofi.Retries
open Retry Model.Utils Model.RunAndWait

theorem loopCalls_eq (opts : Options) (allowed : Nat) (next : Nat → Attempt) :
    loopCalls opts allowed next =
      (attempts (retries opts) allowed next).1.flatMap (attemptCalls opts) ++
        [if (attempts (retries opts) allowed next).2 then .userDie else .waitChildAndGetStatus] := by
  induction allowed generalizing next with
  | zero => rfl
  | succ allowed ih =>
    rw [loopCalls,attempts]
    split
    · rw [ih,List.flatMap_cons,List.append_assoc]
    · simp

/-- The files of a run go with its calls: both are made of the same attempts. -/
theorem attemptLoop_eq (opts : Options) (counter allowed n : Nat) (files : Files) (next : Nat → Attempt)
    (wraps : (counter + 2^32 - 1) % 2^32 = allowed) (enough : allowed < n) :
    attemptLoop opts counter files ((List.range n).map next) =
      if (attempts (retries opts) allowed next).2 then .error (.userDie "Error: Failed to inject")
      else .ok (Outputs.after opts files (attempts (retries opts) allowed next).1) := by
  induction allowed generalizing counter n files next with
  | zero =>
    obtain ⟨n,rfl⟩ : ∃ less, n = less + 1 := ⟨n - 1,by omega⟩
    rw [range_map_succ,attemptLoop,wraps]
    rfl
  | succ allowed ih =>
    obtain ⟨n,rfl⟩ : ∃ less, n = less + 1 := ⟨n - 1,by omega⟩
    rw [range_map_succ,attemptLoop,wraps,attempts]
    simp only [Nat.add_one_ne_zero,if_false]
    split
    · rw [ih (allowed + 1) n _ _ (by omega) (by omega)]
      rfl
    · rfl

def started (calls : List Call) : Nat := calls.countP fun
  | .run _ => true
  | _ => false

theorem started_attempts (opts : Options) (made : List Attempt) :
    started (made.flatMap (attemptCalls opts)) = made.length := by
  induction made with
  | nil => rfl
  | cons attempt made ih =>
    rw [started] at ih
    rw [started,List.flatMap_cons,List.countP_append,ih,List.length_cons,attemptCalls,Nat.add_comm]
    split <;> rfl

theorem leaves_notMem (opts : Options) (made : List Attempt) :
    .userDie ∉ made.flatMap (attemptCalls opts) ∧ .waitChildAndGetStatus ∉ made.flatMap (attemptCalls opts) := by
  constructor <;>
  · rw [List.mem_flatMap]
    rintro ⟨attempt,_,called⟩
    rw [attemptCalls] at called
    split at called <;> simp at called

theorem started_append (calls : List Call) (leaves : Call) (left : leaves = .userDie ∨ leaves = .waitChildAndGetStatus) :
    started (calls ++ [leaves]) = started calls := by
  rw [started,List.countP_append]
  obtain rfl | rfl := left <;> rfl

theorem loop_first (opts : Options) (allowed k : Nat) (next : Nat → Attempt) (low : k < allowed)
    (before : ∀ i < k, retries opts (next i) = true) (last : retries opts (next k) = false) :
    started (loopCalls opts allowed next) = k + 1 ∧ .userDie ∉ loopCalls opts allowed next ∧
      .waitChildAndGetStatus ∈ loopCalls opts allowed next := by
  rw [loopCalls_eq,attempts_first (retries opts) allowed k next low before last]
  refine ⟨?_,?_,by simp⟩
  · rw [if_neg (by simp),started_append _ _ (.inr rfl),started_attempts]
    simp
  · rw [List.mem_append,not_or]
    exact ⟨(leaves_notMem opts _).1,by simp⟩

theorem loop_exhausted (opts : Options) (allowed : Nat) (next : Nat → Attempt)
    (all : ∀ i < allowed, retries opts (next i) = true) :
    started (loopCalls opts allowed next) = allowed ∧ .userDie ∈ loopCalls opts allowed next := by
  rw [loopCalls_eq,attempts_exhausted (retries opts) allowed next all]
  refine ⟨?_,by simp⟩
  rw [if_pos rfl,started_append _ _ (.inl rfl),started_attempts]
  simp

structure Respects (maxAttempts : Int) (succeeds : Nat → Bool) (calls : List Call) : Prop where
  atMost : (started calls : Int) ≤ max maxAttempts 0
  givesUp : .userDie ∈ calls ↔
    (started calls : Int) = max maxAttempts 0 ∧ ∀ i < started calls, succeeds i = false
  stops : ∀ i : Nat, (i : Int) < maxAttempts → (∀ j < i, succeeds j = false) → succeeds i = true →
    started calls = i + 1 ∧ .waitChildAndGetStatus ∈ calls

theorem firstAttempts_eq (opts : Options) (int : -2^31 ≤ opts.maxInjectionAttempts ∧ opts.maxInjectionAttempts < 2^31) :
    if 1 ≤ opts.maxInjectionAttempts then (firstAttempts opts : Int) = opts.maxInjectionAttempts - 1
    else 0 < firstAttempts opts := by
  unfold firstAttempts toUnsigned
  split <;> omega

theorem retries_iff (opts : Options) (enabled : 0 < opts.injectionsPerRun) (attempt : Attempt) :
    retries opts attempt = true ↔ injectOK opts attempt = false := by
  simp [retries,enabled]

/-- The decrement comes before the attempt: the limit is kept exactly when an attempt before
the last one allowed succeeds. -/
theorem runAndWait_respects_iff (opts : Options) (enabled : 0 < opts.injectionsPerRun)
    (int : -2^31 ≤ opts.maxInjectionAttempts ∧ opts.maxInjectionAttempts < 2^31) (next : Nat → Attempt) :
    Respects opts.maxInjectionAttempts (fun i => injectOK opts (next i)) (runAndWaitCalls opts next) ↔
      ∃ i : Nat, (i : Int) + 1 < opts.maxInjectionAttempts ∧ injectOK opts (next i) = true := by
  have allowed := firstAttempts_eq opts int
  have again (i : Nat) := retries_iff opts enabled (next i)
  rw [runAndWaitCalls]
  obtain ⟨k,low,before,last⟩ | all := first_or_none (retries opts) (firstAttempts opts) next
  · obtain ⟨made,stays,waits⟩ := loop_first opts (firstAttempts opts) k next low before last
    have success : injectOK opts (next k) = true := by
      rw [← Bool.not_eq_false,← again]
      simp [last]
    have failed : ∀ i < k, injectOK opts (next i) = false := fun i less => (again i).mp (before i less)
    constructor
    · intro respects
      have atMost := respects.atMost
      rw [made] at atMost
      -- the unsigned counter wraps for M <= 0, and then an attempt is one too many
      split at allowed
      · exact ⟨k,by omega,success⟩
      · omega
    · rintro ⟨i,early,succeeds⟩
      have first : k ≤ i := by
        by_contra late
        simp [failed i (by omega)] at succeeds
      refine ⟨by omega,iff_of_false stays fun full => by omega,?_⟩
      intro j _ none found
      obtain less | rfl | more := Nat.lt_trichotomy j k
      · simp [failed j less] at found
      · exact ⟨made,waits⟩
      · simp [none k more] at success
  · obtain ⟨made,quits⟩ := loop_exhausted opts (firstAttempts opts) next all
    have failed : ∀ i < firstAttempts opts, injectOK opts (next i) = false := fun i low => (again i).mp (all i low)
    constructor
    · intro respects
      have full := (respects.givesUp.mp quits).1
      rw [made] at full
      split at allowed <;> omega
    · rintro ⟨i,early,succeeds⟩
      rw [if_pos (by omega)] at allowed
      simp [failed i (by omega)] at succeeds

theorem injected_respects : Respects 100 (fun _ => injectOK {} Outputs.injected)
    (runAndWaitCalls {} fun _ => Outputs.injected) :=
  (runAndWait_respects_iff {} (by decide) (by decide) fun _ => Outputs.injected).mpr ⟨0,by decide,by decide⟩

theorem one_attempt_refused : runAndWaitCalls {maxInjectionAttempts := 1} (fun _ => Outputs.injected) = [.userDie] ∧
    ¬ Respects 1 (fun _ => injectOK {maxInjectionAttempts := 1} Outputs.injected)
      (runAndWaitCalls {maxInjectionAttempts := 1} fun _ => Outputs.injected) := by
  refine ⟨by decide,?_⟩
  intro respects
  have quits := respects.givesUp.mp (by decide)
  exact absurd quits.1 (by decide)

/-! What `waitChildAndGetStatus` is entered with. -/

def Prepared (opts : Options) (calls : List Call) : Prop :=
  ∀ before after, calls = before ++ .waitChildAndGetStatus :: after → ∃ earlier,
    before = earlier ++ .run true :: if opts.injectionsPerRun > 0 then [.tryInjectFaultAt true] else []

theorem prepared_quits (opts : Options) (made : List Attempt) :
    Prepared opts (made.flatMap (attemptCalls opts) ++ [.userDie]) := by
  intro before after split
  have member : .waitChildAndGetStatus ∈ made.flatMap (attemptCalls opts) ++ [.userDie] := by
    rw [split]
    simp
  rw [List.mem_append] at member
  obtain called | left := member
  · exact absurd called (leaves_notMem opts made).2
  · simp at left

theorem prepared_waits_iff (opts : Options) (made : List Attempt) (last : Attempt)
    (leaves : retries opts last = false) :
    Prepared opts ((made ++ [last]).flatMap (attemptCalls opts) ++ [.waitChildAndGetStatus]) ↔
      0 < opts.injectionsPerRun ∨ last.setOptions = true := by
  have once (before after : List Call) (split : (made ++ [last]).flatMap (attemptCalls opts) ++ [.waitChildAndGetStatus] =
      before ++ .waitChildAndGetStatus :: after) : before = (made ++ [last]).flatMap (attemptCalls opts) := by
    obtain rfl | ⟨after,final,rfl⟩ := List.eq_nil_or_concat' after
    · exact (List.append_inj_left' split rfl).symm
    · rw [← List.cons_append,← List.append_assoc] at split
      have early : .waitChildAndGetStatus ∈ (made ++ [last]).flatMap (attemptCalls opts) := by
        rw [List.append_inj_left' split rfl]
        simp
      exact absurd early (leaves_notMem opts _).2
  constructor
  · intro prepared
    obtain ⟨earlier,same⟩ := prepared _ [] rfl
    by_contra neither
    obtain ⟨off,failed⟩ := not_or.mp neither
    rw [List.flatMap_append,List.flatMap_singleton,attemptCalls,if_neg (by simp [failed]),if_neg off] at same
    simpa [failed] using List.append_inj_right' same rfl
  · intro fine before after split
    rw [once before after split,List.flatMap_append,List.flatMap_singleton]
    refine ⟨made.flatMap (attemptCalls opts),?_⟩
    by_cases on : 0 < opts.injectionsPerRun
    · have good : last.setOptions = true ∧ last.injected = true := by simpa [retries,injectOK,on] using leaves
      rw [attemptCalls,if_pos (by simp [good,on]),if_pos on,good.2]
    · have started := fine.resolve_left on
      rw [attemptCalls,if_neg (by simp [on]),if_neg on,started]

/-- With injections off a failed run() leaves the loop through its `continue`. -/
theorem runAndWait_prepared_iff (opts : Options) (next : Nat → Attempt) :
    Prepared opts (runAndWaitCalls opts next) ↔
      0 < opts.injectionsPerRun ∨ (next 0).setOptions = true ∨ firstAttempts opts = 0 := by
  rw [runAndWaitCalls,loopCalls_eq]
  obtain ⟨k,low,before,last⟩ | all := first_or_none (retries opts) (firstAttempts opts) next
  · rw [attempts_first (retries opts) _ k next low before last,List.range_succ,List.map_append,List.map_singleton,
      if_neg (by simp),prepared_waits_iff opts _ _ last]
    by_cases on : 0 < opts.injectionsPerRun
    · simp [on]
    · have first : k = 0 := by
        by_contra later
        have again := before 0 (by omega)
        simp [retries,on] at again
      subst first
      have some : firstAttempts opts ≠ 0 := by omega
      simp [on,some]
  · rw [attempts_exhausted (retries opts) _ next all,if_pos rfl]
    refine iff_of_true (prepared_quits opts _) ?_
    by_cases none : firstAttempts opts = 0
    · exact .inr (.inr none)
    · have again := all 0 (by omega)
      simp only [retries,Bool.and_eq_true,decide_eq_true_eq] at again
      exact .inl again.2

def shortRun : Attempt := ⟨false,false,[],[]⟩

theorem short_run_waits :
    runAndWaitCalls {injectionsPerRun := 0} (fun _ => shortRun) = [.run false,.waitChildAndGetStatus] ∧
      ¬ Prepared {injectionsPerRun := 0} (runAndWaitCalls {injectionsPerRun := 0} fun _ => shortRun) := by
  have calls : runAndWaitCalls {injectionsPerRun := 0} (fun _ => shortRun) = [.run false,.waitChildAndGetStatus] := by
    decide
  refine ⟨calls,?_⟩
  intro prepared
  obtain ⟨earlier,same⟩ := prepared [.run false] [] calls
  simpa using List.append_inj_right' (show [] ++ [Call.run false] = earlier ++ [.run true] from same) rfl

end Zofi.Retries
