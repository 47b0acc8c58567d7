import Zofi.Campaign

/-! The seeds of the jobs, and with them the outcome of a campaign, do not depend on its
schedule. -/
namespace Zofi.Seeds
open Transitions Model.Utils Model.WaitStatus Model.Outcomes Model.Threads Scheduler Campaign

variable {G R S ρ : Type}

def drawn (rand : ρ → Nat × ρ) (start : ρ) : Nat → ρ
  | 0 => start
  | n + 1 => (randSafe rand 0 (drawn rand start n)).2

def seedOf (rand : ρ → Nat × ρ) (start : ρ) (id : Nat) : Nat := (randSafe rand 0 (drawn rand start id)).1

theorem Step.congr (sub : Subclass G R S) (jobs others : Nat → JobEnd R) (limit total : Nat) (w : World R S)
    (event : Event) (result : Except Halt (World R S)) (same : ∀ child ∈ w.children, jobs child.job = others child.job)
    (step : Step sub jobs limit total w event result) : Step sub others limit total w event result := by
  cases step with
  | fork pid rd wr more room newPid newRd newWr apart => exact .fork w pid rd wr more room newPid newRd newWr apart
  | wait child garbage blocks member =>
    rw [same child member]
    exact .wait w child garbage blocks member

/-- A run with seeds is a run of jobs that know theirs: the n-th draw goes to job n. -/
structure Knows (rand : ρ → Nat × ρ) (sub : Subclass G R S) (jobs : Nat → Nat → JobEnd R) (limit total : Nat)
    (results : S) (start : ρ) (trace : List (Event × Option Nat)) (w : SeededWorld ρ R S) : Prop where
  runs : Run (Moves sub (fun id => jobs id (seedOf rand start id)) limit total) {results} (trace.map (·.1)) w.world
  generator : w.generator = drawn rand start w.world.id
  seeds : w.seeds = (List.range w.world.id).map (seedOf rand start)
  given : ∀ id pid seed, (.forked id pid,some seed) ∈ trace → seed = seedOf rand start id

variable {rand : ρ → Nat × ρ} {sub : Subclass G R S} {jobs : Nat → Nat → JobEnd R} {limit total : Nat}
  {results : S} {start : ρ} {trace : List (Event × Option Nat)} {w : SeededWorld ρ R S} {active : List Active}

theorem Knows.own_seeds (knows : Knows rand sub jobs limit total results start trace w)
    (orderly : Orderly limit total (trace.map (·.1)) w.world active) (event : Event) (world : World R S)
    (step : Step sub (seeded jobs w.seeds) limit total w.world event (.ok world)) :
    Step sub (fun id => jobs id (seedOf rand start id)) limit total w.world event (.ok world) := by
  refine Step.congr sub _ _ limit total w.world event _ ?_ step
  intro child member
  obtain ⟨a,inside,rfl⟩ := orderly.shape.of_child _ _ child member
  have low : a.job < w.world.id :=
    List.mem_range.mp (orderly.once.mem_iff.mp (List.mem_append_right _ (List.mem_map_of_mem inside)))
  rw [seeded,knows.seeds]
  simp [Active.child,low]

theorem Knows.runs_on (knows : Knows rand sub jobs limit total results start trace w)
    (orderly : Orderly limit total (trace.map (·.1)) w.world active) (event : Event) (seed : Option Nat)
    (world : World R S) (step : Step sub (seeded jobs w.seeds) limit total w.world event (.ok world)) :
    Run (Moves sub (fun id => jobs id (seedOf rand start id)) limit total) {results}
      ((trace ++ [(event,seed)]).map (·.1)) world := by
  rw [List.map_append]
  exact .snoc _ _ _ _ knows.runs (knows.own_seeds orderly event world step)

theorem knows_fork (few : total < 2^32) (knows : Knows rand sub jobs limit total results start trace w)
    (orderly : Orderly limit total (trace.map (·.1)) w.world active) (pid seed : Nat) (generator : ρ)
    (world : World R S) (draw : randSafe rand 0 w.generator = (seed,generator))
    (forks : Step sub (seeded jobs w.seeds) limit total w.world (.forked w.world.id pid) (.ok world)) :
    Knows rand sub jobs limit total results start (trace ++ [(.forked w.world.id pid,some seed)])
      ⟨world,generator,w.seeds ++ [seed]⟩ := by
  have next : world.id = w.world.id + 1 := by
    obtain ⟨_,_,_,_,_,_,next,_⟩ | ⟨_,_,_,_,_,other,_⟩ :=
      Step.cases_ok sub _ limit total few _ w.world world active _ orderly forks
    · exact next
    · simp at other
  have seed_eq : seed = seedOf rand start w.world.id := by
    rw [seedOf,← knows.generator,draw]
  refine ⟨knows.runs_on orderly _ _ world forks,?_,?_,?_⟩
  · change generator = drawn rand start world.id
    rw [next,drawn,← knows.generator,draw]
  · change w.seeds ++ [seed] = (List.range world.id).map (seedOf rand start)
    rw [next,List.range_succ,List.map_append,← knows.seeds,seed_eq]
    rfl
  · intro id other found member
    obtain old | new := List.mem_append.mp member
    · exact knows.given id other found old
    · simp only [List.mem_singleton,Prod.mk.injEq,Event.forked.injEq,Option.some.injEq] at new
      obtain ⟨⟨rfl,rfl⟩,rfl⟩ := new
      exact seed_eq

theorem knows_wait (few : total < 2^32) (knows : Knows rand sub jobs limit total results start trace w)
    (orderly : Orderly limit total (trace.map (·.1)) w.world active) (child : Child) (record : Option JobData)
    (world : World R S) (waits : Step sub (seeded jobs w.seeds) limit total w.world (.reaped child record) (.ok world)) :
    Knows rand sub jobs limit total results start (trace ++ [(.reaped child record,none)])
      ⟨world,w.generator,w.seeds⟩ := by
  have kept : world.id = w.world.id := by
    obtain ⟨_,_,_,other,_⟩ | ⟨_,_,_,_,_,_,_,_,_,kept,_⟩ :=
      Step.cases_ok sub _ limit total few _ w.world world active _ orderly waits
    · simp at other
    · exact kept
  refine ⟨knows.runs_on orderly _ _ world waits,?_,?_,?_⟩
  · change w.generator = drawn rand start world.id
    rw [kept]
    exact knows.generator
  · change w.seeds = (List.range world.id).map (seedOf rand start)
    rw [kept]
    exact knows.seeds
  · intro id pid seed member
    obtain old | new := List.mem_append.mp member
    · exact knows.given id pid seed old
    · simp at new

theorem run_knows (few : total < 2^32) (run : Run (SeededStep rand sub jobs limit total) ⟨{results},start,[]⟩ trace w) :
    Knows rand sub jobs limit total results start trace w := by
  refine Run.invariant (Knows rand sub jobs limit total results start) ⟨.nil,rfl,rfl,by simp⟩ ?_ run
  intro trace w label w' knows step
  obtain ⟨active,orderly⟩ := run_orderly sub _ limit total few results _ _ knows.runs
  cases step with
  | fork pid seed generator world draw forks => exact knows_fork few knows orderly pid seed generator world draw forks
  | wait child record world waits => exact knows_wait few knows orderly child record world waits

theorem count_comm (stats : Statistics) (one two : Option FtStatus) :
    count (count stats one) two = count (count stats two) one := by
  have counting (stats : Statistics) (status : Option FtStatus) : count stats status =
      match status.bind counterOf with
      | none => stats
      | some counter => (stats.incr counter).toOption.getD stats := by
    cases status with
    | none => rfl
    | some status => cases status <;> rfl
  rw [counting stats one,counting stats two,counting _ one,counting _ two]
  cases one.bind counterOf with
  | none => rfl
  | some first =>
    cases two.bind counterOf with
    | none => rfl
    | some second =>
      by_cases same : first = second
      · rw [same]
      · cases first <;> cases second <;> first
          | rfl
          | exact absurd rfl same
          | simp [Statistics.incr,isCounter,Except.toOption,Function.update_comm]

theorem test_absorbs (jobs : Nat → JobEnd FtStatus) (total : Nat) (wrote : ∀ job < total, (jobs job).wrote ≠ none) :
    Absorbs testJobScheduler jobs total fun job stats => count stats (jobs job).wrote := by
  intro job low garbage read data stats taken delivered _ finished
  obtain ⟨outcome,own⟩ := Option.ne_none_iff_exists'.mp (wrote job low)
  rw [own] at delivered
  simp only [testJobScheduler,delivered,bind,Except.bind] at finished
  have finished : incrStatsCounter stats (some outcome) = .ok taken := finished
  simp only [own,count,finished,Except.toOption,Option.getD_some]

theorem finished_results (jobs : Nat → JobEnd FtStatus) (limit total : Nat) (few : total < 2^32)
    (wrote : ∀ job < total, (jobs job).wrote ≠ none) (stats : Statistics) (trace : List Event)
    (w : World FtStatus Statistics) (run : Run (Moves testJobScheduler jobs limit total) {results := stats} trace w)
    (ended : Finished total w) :
    w.results = (List.range total).foldl (fun sum job => count sum (jobs job).wrote) stats := by
  obtain ⟨active,orderly⟩ := run_orderly testJobScheduler jobs limit total few stats trace w run
  obtain ⟨_,_,_,allReaped⟩ := orderly.finished ended
  rw [run_results testJobScheduler jobs limit total few _ (test_absorbs jobs total wrote) stats trace w run]
  have : RightCommutative fun (sum : Statistics) job => count sum (jobs job).wrote :=
    ⟨fun sum one two => count_comm sum (jobs one).wrote (jobs two).wrote⟩
  exact allReaped.foldl_eq stats

/-- Two runs with the same generator: every job gets the same seed in both, whatever they run and
however they are scheduled, and campaigns whose outcomes follow from id and seed count the same. -/
theorem run_schedule_independent (rand : ρ → Nat × ρ) (start : ρ) (limit₁ limit₂ total : Nat) (few : total < 2^32) :
    (∀ (sub₁ sub₂ : Subclass G R S) (jobs₁ jobs₂ : Nat → Nat → JobEnd R) (results₁ results₂ : S)
      (trace₁ trace₂ : List (Event × Option Nat)) (w₁ w₂ : SeededWorld ρ R S),
      Run (SeededStep rand sub₁ jobs₁ limit₁ total) ⟨{results := results₁},start,[]⟩ trace₁ w₁ →
      Run (SeededStep rand sub₂ jobs₂ limit₂ total) ⟨{results := results₂},start,[]⟩ trace₂ w₂ →
      ∀ id pid₁ pid₂ seed₁ seed₂, (.forked id pid₁,some seed₁) ∈ trace₁ → (.forked id pid₂,some seed₂) ∈ trace₂ →
        seed₁ = seed₂) ∧
    ∀ (outcome : Nat → Nat → FtStatus) (ending₁ ending₂ : Nat → Nat → Ending) (stats : Statistics)
      (trace₁ trace₂ : List (Event × Option Nat)) (w₁ w₂ : SeededWorld ρ FtStatus Statistics),
      Run (SeededStep rand testJobScheduler (fun id seed => ⟨some (outcome id seed),ending₁ id seed⟩) limit₁ total)
        ⟨{results := stats},start,[]⟩ trace₁ w₁ →
      Run (SeededStep rand testJobScheduler (fun id seed => ⟨some (outcome id seed),ending₂ id seed⟩) limit₂ total)
        ⟨{results := stats},start,[]⟩ trace₂ w₂ →
      Finished total w₁.world → Finished total w₂.world → w₁.world.results = w₂.world.results := by
  refine ⟨?_,?_⟩
  · intro sub₁ sub₂ jobs₁ jobs₂ results₁ results₂ trace₁ trace₂ w₁ w₂ run₁ run₂ id pid₁ pid₂ seed₁ seed₂ first second
    have one := (run_knows few run₁).given id pid₁ seed₁ first
    have two := (run_knows few run₂).given id pid₂ seed₂ second
    exact one.trans two.symm
  · intro outcome ending₁ ending₂ stats trace₁ trace₂ w₁ w₂ run₁ run₂ ended₁ ended₂
    have one := finished_results _ limit₁ total few (by simp) stats _ w₁.world (run_knows few run₁).runs ended₁
    have two := finished_results _ limit₂ total few (by simp) stats _ w₂.world (run_knows few run₂).runs ended₂
    exact one.trans two.symm

def counting (number : Nat) : Nat × Nat := (number,number + 1)

def byParity (_ seed : Nat) : FtStatus := if seed % 2 = 0 then .masked else .corrupted

def parities (id : Nat) : FtStatus := byParity id ([5,6][id]?.getD 0)

theorem parities_real (id : Nat) : parities id ≠ .none := by
  unfold parities byParity
  split <;> simp

theorem both_seeded (first second : Active)
    (pair : first = oneJob ∧ second = otherJob ∨ first = otherJob ∧ second = oneJob) :
    Run (SeededStep counting testJobScheduler (fun id seed => ⟨some (byParity id seed),.exited exitSuccess⟩) 2 2)
      ⟨{results := .zero},5,[]⟩
      [(.forked 0 7,some 5),(.forked 1 8,some 6),(.reaped first.child (some first.data),none),
        (.reaped second.child (some second.data),none)]
      ⟨bothReaped parities first second,7,[5,6]⟩ := by
  have one : Run (SeededStep counting testJobScheduler (fun id seed => ⟨some (byParity id seed),.exited exitSuccess⟩) 2 2)
      ⟨{results := .zero},5,[]⟩ [(.forked 0 7,some 5)] ⟨oneForked,6,[5]⟩ :=
    .snoc [] _ _ _ .nil (.fork _ 7 5 6 oneForked rfl
      (.fork _ 7 3 4 (by decide) (by decide) (by decide) (by decide) (by decide) (by decide)))
  have both : Run (SeededStep counting testJobScheduler (fun id seed => ⟨some (byParity id seed),.exited exitSuccess⟩) 2 2)
      ⟨{results := .zero},5,[]⟩ [(.forked 0 7,some 5),(.forked 1 8,some 6)] ⟨bothForked,7,[5,6]⟩ :=
    .snoc _ _ _ _ one (.fork _ 8 6 7 bothForked rfl
      (.fork _ 8 4 5 (by decide) (by decide) (by decide) (by decide) (by decide) (by decide)))
  have first_ := Run.snoc _ _ _ _ both (.wait ⟨bothForked,7,[5,6]⟩ first.child _ (between parities first)
    (first_reaped parities parities_real first second pair))
  exact .snoc _ _ _ _ first_ (.wait _ second.child _ _ (second_reaped parities parities_real first second pair))

theorem twoJobs_independent : ∃ trace₁ trace₂ w₁ w₂,
    Run (SeededStep counting testJobScheduler (fun id seed => ⟨some (byParity id seed),.exited exitSuccess⟩) 2 2)
      ⟨{results := .zero},5,[]⟩ trace₁ w₁ ∧
    Run (SeededStep counting testJobScheduler (fun id seed => ⟨some (byParity id seed),.exited exitSuccess⟩) 2 2)
      ⟨{results := .zero},5,[]⟩ trace₂ w₂ ∧
    trace₁ ≠ trace₂ ∧
    (∀ id pid₁ pid₂ seed₁ seed₂, (.forked id pid₁,some seed₁) ∈ trace₁ → (.forked id pid₂,some seed₂) ∈ trace₂ →
      seed₁ = seed₂) ∧
    Finished 2 w₁.world ∧ Finished 2 w₂.world ∧ w₁.world.results = w₂.world.results := by
  have inOrder := both_seeded oneJob otherJob (.inl ⟨rfl,rfl⟩)
  have swapped := both_seeded otherJob oneJob (.inr ⟨rfl,rfl⟩)
  have ended := bothReaped_finished parities oneJob otherJob (.inl ⟨rfl,rfl⟩)
  have ended' := bothReaped_finished parities otherJob oneJob (.inr ⟨rfl,rfl⟩)
  refine ⟨_,_,_,_,inOrder,swapped,by decide,?_,ended,ended',?_⟩
  · exact (run_schedule_independent (G := Option FtStatus) (R := FtStatus) (S := Statistics) counting 5 2 2 2 (by decide)).1
      testJobScheduler testJobScheduler _ _ .zero .zero _ _ _ _ inOrder swapped
  · exact (run_schedule_independent (G := Unit) (R := Unit) (S := Unit) counting 5 2 2 2 (by decide)).2 byParity
      (fun _ _ => .exited exitSuccess) (fun _ _ => .exited exitSuccess) .zero _ _ _ _ inOrder swapped ended ended'

end Zofi.Seeds
