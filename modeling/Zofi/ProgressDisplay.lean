import Zofi.Campaign
import Zofi.Model.Progress

/-! What the scheduler's loop displays: the reaped jobs are counted one by one, up to the full bar. -/
namespace Zofi.ProgressDisplay
open Transitions Sys Model.Utils Model.WaitStatus Model.Outcomes Model.Threads Model.Progress Scheduler Campaign

variable {G R S : Type} {showingBar : Bool} {sub : Subclass G R S} {jobs : Nat → JobEnd R} {limit total : Nat}
  {results : S} {trace : List Event} {w : BarWorld R S}

def BarMoves (showingBar : Bool) (sub : Subclass G R S) (jobs : Nat → JobEnd R) (limit total : Nat)
    (w : BarWorld R S) (event : Event) (w' : BarWorld R S) : Prop :=
  BarStep showingBar sub jobs limit total w event (.ok w')

theorem doneJobs_le (few : total < 2^32) (run : Run (Moves sub jobs limit total) {results} trace w.world) :
    (doneJobs trace).length ≤ total := by
  obtain ⟨active,orderly⟩ := run_orderly sub jobs limit total few results trace w.world run
  have sizes := orderly.once.length_eq
  rw [List.length_append,List.length_range] at sizes
  exact (Nat.le_add_right _ _).trans (sizes.le.trans orderly.upTo)

theorem allReaped_iff (few : total < 2^32) (run : Run (Moves sub jobs limit total) {results} trace w.world) :
    (doneJobs trace).length = total ↔ (doneJobs trace).Perm (List.range total) := by
  constructor
  · intro all
    obtain ⟨active,orderly⟩ := run_orderly sub jobs limit total few results trace w.world run
    have sizes := orderly.once.length_eq
    rw [List.length_append,List.length_range,List.length_map] at sizes
    have upTo := orderly.upTo
    have none : active = [] := List.length_eq_zero_iff.mp (by omega)
    have same : w.world.id = total := by omega
    have once := orderly.once
    rw [none,same,List.map_nil,List.append_nil] at once
    exact once
  · intro all
    rw [all.length_eq,List.length_range]

theorem draw_short (bar : ProgressBar) (end_ : Nat) (c : String) (short : end_ ≤ barSize) :
    ∃ text, draw bar end_ c = .ok (text,{bar with lastFillSize := end_}) := by
  rw [barSize] at short
  exact ⟨_,if_neg (by omega)⟩

theorem fill_le (max val : Nat) (within : val ≤ max) : val * barSize / max ≤ barSize := by
  apply Nat.div_le_of_le_mul
  exact Nat.mul_le_mul_right barSize within

theorem fill_full (max val : Nat) (positive : 0 < max) (within : val ≤ max) :
    val * barSize / max = barSize ↔ val = max := by
  constructor
  · intro full
    have least := Nat.div_mul_le_self (val * barSize) max
    rw [full,Nat.mul_comm val] at least
    exact Nat.le_antisymm within (Nat.le_of_mul_le_mul_left least (by decide))
  · rintro rfl
    exact Nat.mul_div_cancel_left barSize positive

theorem fillSize_inside (bar : ProgressBar) (val : Nat) (few : bar.max < 2^32) (size : bar.size = barSize)
    (positive : 0 < val) (within : val ≤ bar.max) : fillSize bar val = .ok (val * barSize / bar.max) := by
  have short := fill_le bar.max val within
  rw [barSize] at short
  have product : val * 30 % 2^64 = val * 30 := Nat.mod_eq_of_lt (by omega)
  have fill : val * 30 / bar.max % 2^32 = val * 30 / bar.max := Nat.mod_eq_of_lt (by omega)
  rw [fillSize,if_neg (by omega),size,barSize,product,fill]

theorem display_inside (bar : ProgressBar) (clock : Clock) (val : Nat) (few : bar.max < 2^32) (size : bar.size = barSize)
    (positive : 0 < val) (within : val ≤ bar.max) :
    ∃ text, display bar clock val = .ok (text,{bar with lastFillSize := val * barSize / bar.max}) := by
  obtain ⟨text,drawn⟩ := draw_short bar (val * barSize / bar.max) "=" (fill_le bar.max val within)
  refine ⟨clearLineAndCR ++ drawCounter bar clock val ++ text,?_⟩
  rw [display,fillSize_inside bar val few size positive within]
  simp only [bind,Except.bind]
  rw [drawn]
  rfl

def shown (showingBar : Bool) (trace : List Event) : Nat := if showingBar then (doneJobs trace).length else 0

def filled (total val : Nat) : Nat × Nat := (val,val * barSize / total)

structure Shown (showingBar : Bool) (sub : Subclass G R S) (jobs : Nat → JobEnd R) (limit total : Nat) (results : S)
    (trace : List Event) (w : BarWorld R S) : Prop where
  runs : Run (Moves sub jobs limit total) {results} trace w.world
  max : w.bar.max = total
  size : w.bar.size = barSize
  barCnt : w.barCnt = shown showingBar trace
  displayed : w.displayed = (List.range' 1 (shown showingBar trace)).map (filled total)

theorem startBar_shown (showingBar : Bool) (clock : Clock) (sub : Subclass G R S) (jobs : Nat → JobEnd R)
    (limit total : Nat) (results : S) :
    ∃ start, startBar showingBar clock total results = .ok start ∧
      Shown showingBar sub jobs limit total results [] start ∧ start.world = {results} := by
  cases showingBar with
  | false => exact ⟨_,rfl,⟨.nil,rfl,rfl,rfl,rfl⟩,rfl⟩
  | true =>
    obtain ⟨text,drawn⟩ := draw_short (newBar total barSize) barSize " " le_rfl
    refine ⟨⟨{results},{newBar total barSize with lastFillSize := barSize},0,[],
      drawCounter (newBar total barSize) clock 0 ++ text⟩,?_,⟨.nil,rfl,rfl,rfl,rfl⟩,rfl⟩
    rw [startBar]
    change ((draw (newBar total barSize) barSize " " >>= _) >>= _) = _
    rw [drawn]
    rfl

theorem Shown.forks (shownSoFar : Shown showingBar sub jobs limit total results trace w) (id pid : Nat) (world : World R S)
    (forks : Step sub jobs limit total w.world (.forked id pid) (.ok world)) :
    Shown showingBar sub jobs limit total results (trace ++ [.forked id pid]) {w with world} where
  runs := .snoc _ _ _ _ shownSoFar.runs forks
  max := shownSoFar.max
  size := shownSoFar.size
  barCnt := by
    rw [shown,doneJobs_forked]
    exact shownSoFar.barCnt
  displayed := by
    rw [shown,doneJobs_forked]
    exact shownSoFar.displayed

theorem Shown.waits (few : total < 2^32) (shownSoFar : Shown showingBar sub jobs limit total results trace w)
    (child : Child) (record : Option JobData) (world : World R S) (clock : Clock)
    (waits : Step sub jobs limit total w.world (.reaped child record) (.ok world)) :
    ∃ w', updateBar showingBar clock {w with world} = .ok w' ∧ w'.world = world ∧
      Shown showingBar sub jobs limit total results (trace ++ [.reaped child record]) w' := by
  have runs := Run.snoc _ _ _ _ shownSoFar.runs waits
  have within := doneJobs_le (w := {w with world}) few runs
  rw [doneJobs_reaped,List.length_append,List.length_singleton] at within
  cases showingBar with
  | false => exact ⟨_,rfl,rfl,⟨runs,shownSoFar.max,shownSoFar.size,shownSoFar.barCnt,shownSoFar.displayed⟩⟩
  | true =>
    have count : w.barCnt = (doneJobs trace).length := shownSoFar.barCnt
    have next : (w.barCnt + 1) % 2^32 = (doneJobs trace).length + 1 := by
      rw [count]
      exact Nat.mod_eq_of_lt (by omega)
    obtain ⟨text,displayed⟩ := display_inside w.bar clock ((doneJobs trace).length + 1)
      (shownSoFar.max ▸ few) shownSoFar.size (Nat.succ_pos _) (shownSoFar.max ▸ within)
    refine ⟨{w with
      world
      bar := {w.bar with lastFillSize := ((doneJobs trace).length + 1) * barSize / w.bar.max}
      barCnt := (doneJobs trace).length + 1
      displayed := w.displayed ++ [((doneJobs trace).length + 1,((doneJobs trace).length + 1) * barSize / w.bar.max)]
      output := w.output ++ text },?_,rfl,runs,?_,?_,?_,?_⟩
    · rw [updateBar,if_pos rfl]
      dsimp only
      rw [next,displayed]
      rfl
    · exact shownSoFar.max
    · exact shownSoFar.size
    · rw [shown,if_pos rfl,doneJobs_reaped,List.length_append,List.length_singleton]
    · have earlier := shownSoFar.displayed
      rw [shown,if_pos rfl] at earlier
      dsimp only
      rw [shown,if_pos rfl,doneJobs_reaped,List.length_append,List.length_singleton,List.range'_1_concat,
        List.map_append,← earlier,shownSoFar.max,Nat.add_comm 1]
      rfl

theorem Shown.moves (few : total < 2^32) (shownSoFar : Shown showingBar sub jobs limit total results trace w)
    (event : Event) (w' : BarWorld R S) (step : BarMoves showingBar sub jobs limit total w event w') :
    Shown showingBar sub jobs limit total results (trace ++ [event]) w' := by
  unfold BarMoves at step
  generalize target : Except.ok w' = result at step
  cases step with
  | fork pid world forks =>
    cases target
    exact shownSoFar.forks w.world.id pid world forks
  | wait child record result clock waits =>
    cases result with
    | error halt => cases target
    | ok world =>
      obtain ⟨next,updated,_,after⟩ := shownSoFar.waits few child record world clock waits
      cases target.trans updated
      exact after

theorem shown_run (few : total < 2^32) (start : BarWorld R S)
    (initial : Shown showingBar sub jobs limit total results [] start)
    (run : Run (BarMoves showingBar sub jobs limit total) start trace w) :
    Shown showingBar sub jobs limit total results trace w :=
  Run.invariant (Shown showingBar sub jobs limit total results) initial
    (fun _ _ event w' shownSoFar step => shownSoFar.moves few event w' step) run

theorem Shown.stops (few : total < 2^32) (shownSoFar : Shown showingBar sub jobs limit total results trace w)
    (event : Event) (halt : Halt) (step : BarStep showingBar sub jobs limit total w event (.error halt)) :
    Step sub jobs limit total w.world event (.error halt) := by
  generalize target : Except.error halt = result at step
  cases step with
  | fork pid world forks => cases target
  | wait child record result clock waits =>
    cases result with
    | error other =>
      cases target
      exact waits
    | ok world =>
      obtain ⟨next,updated,_⟩ := shownSoFar.waits few child record world clock waits
      cases target.trans updated

theorem forked_next (id pid : Nat) (world : World R S) (result : Except Halt (World R S))
    (step : Step sub jobs limit total world (.forked id pid) result) : id = world.id := by
  cases step
  rfl

/-- The bar holds no run of the scheduler up. -/
theorem exists_barRun (few : total < 2^32) (clock : Clock) (start : BarWorld R S)
    (initial : Shown showingBar sub jobs limit total results [] start) (from_ : start.world = {results}) (world : World R S)
    (run : Run (Moves sub jobs limit total) {results} trace world) :
    ∃ w, Run (BarMoves showingBar sub jobs limit total) start trace w ∧ w.world = world := by
  induction run with
  | nil => exact ⟨start,.nil,from_⟩
  | snoc trace world event next run move ih =>
    obtain ⟨w,before,rfl⟩ := ih
    cases event with
    | forked id pid =>
      obtain rfl := forked_next id pid w.world _ move
      exact ⟨_,.snoc _ _ _ _ before (.fork w pid next move),rfl⟩
    | reaped child record =>
      obtain ⟨w',updated,same,_⟩ := (shown_run few start initial before).waits few child record next clock move
      have waits : BarStep showingBar sub jobs limit total w _ _ := .wait w child record _ clock move
      rw [Except.bind,updated] at waits
      exact ⟨w',.snoc _ _ _ _ before waits,same⟩

structure Displays (showingBar : Bool) (total : Nat) (trace : List Event) (w : BarWorld R S) : Prop where
  values : w.displayed.map Prod.fst = List.range' 1 (shown showingBar trace)
  all : showingBar = true → Finished total w.world → w.displayed.map Prod.fst = List.range' 1 total
  numbers : ∀ val fill, (val,fill) ∈ w.displayed → w.bar.max ≠ 0 ∧ jobsLeft w.bar.max val = w.bar.max - val ∧
    val * w.bar.size < 2^64 ∧ fill ≤ w.bar.size ∧ (fill = w.bar.size ↔ val = total)
  fills : (w.displayed.map Prod.snd).Pairwise (· ≤ ·)
  full : ∀ earlier val fill, w.displayed = earlier ++ [(val,fill)] →
    (fill = w.bar.size ↔ (doneJobs trace).Perm (List.range total))

theorem Shown.values (shownSoFar : Shown showingBar sub jobs limit total results trace w) :
    w.displayed.map Prod.fst = List.range' 1 (shown showingBar trace) := by
  rw [shownSoFar.displayed,List.map_map]
  exact List.map_id _

theorem shown_le (showingBar : Bool) (trace : List Event) : shown showingBar trace ≤ (doneJobs trace).length := by
  unfold shown
  split
  · exact le_rfl
  · exact Nat.zero_le _

theorem Shown.inside (few : total < 2^32) (shownSoFar : Shown showingBar sub jobs limit total results trace w)
    (val fill : Nat) (member : (val,fill) ∈ w.displayed) : 0 < total ∧ val ≤ total ∧ fill = val * barSize / total := by
  have within := doneJobs_le few shownSoFar.runs
  have bounded := shown_le showingBar trace
  rw [shownSoFar.displayed] at member
  obtain ⟨other,range,same⟩ := List.mem_map.mp member
  cases same
  rw [List.mem_range'_1] at range
  exact ⟨by omega,by omega,rfl⟩

theorem Shown.last (shownSoFar : Shown showingBar sub jobs limit total results trace w) (earlier : List (Nat × Nat))
    (val fill : Nat) (last : w.displayed = earlier ++ [(val,fill)]) : val = (doneJobs trace).length := by
  have count := congrArg List.getLast? shownSoFar.values
  rw [last,List.map_append,List.map_singleton,List.getLast?_concat,List.getLast?_range'] at count
  unfold shown at count
  split at count
  · split at count
    · cases count
    · have same : val = _ := Option.some.inj count
      rw [same,Nat.add_sub_cancel_left]
  · cases count

theorem Shown.displays (few : total < 2^32) (shownSoFar : Shown showingBar sub jobs limit total results trace w) :
    Displays showingBar total trace w := by
  refine ⟨shownSoFar.values,?_,?_,?_,?_⟩
  · intro showing finished
    obtain ⟨active,orderly⟩ := run_orderly sub jobs limit total few results trace w.world shownSoFar.runs
    obtain ⟨_,_,_,allReaped⟩ := orderly.finished finished
    rw [shownSoFar.values,shown,if_pos showing,(allReaped_iff few shownSoFar.runs).mpr allReaped]
  · intro val fill member
    obtain ⟨positive,below,rfl⟩ := shownSoFar.inside few val fill member
    rw [shownSoFar.max,shownSoFar.size]
    refine ⟨positive.ne',?_,?_,fill_le total val below,fill_full total val positive below⟩
    · rw [jobsLeft]
      omega
    · rw [barSize]
      omega
  · rw [shownSoFar.displayed,List.map_map]
    apply List.Pairwise.map _ _ (List.pairwise_lt_range' 1)
    intro one two before
    exact Nat.div_le_div_right (Nat.mul_le_mul_right barSize before.le)
  · intro earlier val fill last
    have member : (val,fill) ∈ w.displayed := by
      rw [last]
      exact List.mem_append_right _ List.mem_cons_self
    obtain ⟨positive,below,rfl⟩ := shownSoFar.inside few val fill member
    rw [shownSoFar.size,fill_full total val positive below,← allReaped_iff few shownSoFar.runs,
      shownSoFar.last earlier val _ last]

/-- Every schedule of the jobs is one that the bar follows, and no display fails in any. -/
theorem displays_run (showingBar : Bool) (clock : Clock) (sub : Subclass G R S) (jobs : Nat → JobEnd R)
    (limit total : Nat) (few : total < 2^32) (results : S) :
    ∃ start, startBar showingBar clock total results = .ok start ∧
      (∀ trace world, Run (Moves sub jobs limit total) {results} trace world →
        ∃ w, Run (BarMoves showingBar sub jobs limit total) start trace w ∧ w.world = world) ∧
      ∀ trace w, Run (BarMoves showingBar sub jobs limit total) start trace w → Displays showingBar total trace w ∧
        ∀ event halt, BarStep showingBar sub jobs limit total w event (.error halt) →
          Step sub jobs limit total w.world event (.error halt) := by
  obtain ⟨start,started,initial,from_⟩ := startBar_shown showingBar clock sub jobs limit total results
  refine ⟨start,started,fun trace => exists_barRun few clock start initial from_,?_⟩
  intro trace w run
  have shownSoFar := shown_run few start initial run
  exact ⟨shownSoFar.displays few,shownSoFar.stops few⟩

def standing : Clock := ⟨fun _ => "0.00",fun left _ => left⟩

theorem mixed_displayed : ∃ start trace w, startBar true standing 2 (.zero : Statistics) = .ok start ∧
    Run (BarMoves true testJobScheduler (reports mixed) 2 2) start trace w ∧ Finished 2 w.world ∧
      Displays true 2 trace w := by
  obtain ⟨start,started,follows,every⟩ :=
    displays_run true standing testJobScheduler (reports mixed) 2 2 (by decide) (.zero : Statistics)
  obtain ⟨w,run,same⟩ := follows _ _ (both_run mixed mixed_real otherJob oneJob (.inr ⟨rfl,rfl⟩))
  refine ⟨start,_,w,started,run,?_,(every _ w run).1⟩
  rw [same]
  exact bothReaped_finished mixed otherJob oneJob (.inr ⟨rfl,rfl⟩)

end Zofi.ProgressDisplay
