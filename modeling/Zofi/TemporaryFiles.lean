import Zofi.Campaign
import Zofi.Model.Main

/-! Which temporary files are left when main() returns. -/
namespace Zofi.TemporaryFiles
open Interleave Transitions Model.Utils Model.WaitStatus Model.Threads Model.TestRun Model.Main Scheduler Campaign

def created : FileEvent → Option String
  | .create file => some file
  | _ => none

def removed : FileEvent → Option String
  | .remove file => some file
  | _ => none

def names (exState : ExecutionExitState) : List String := [exState.stdoutFile,exState.stderrFile]

structure CleansUp (existing origFiles : List String) (trace : List FileEvent) : Prop where
  once : (trace.filterMap removed).Perm (trace.filterMap created)
  late : ∀ before file after, trace = before ++ .remove file :: after → file ∈ origFiles → ∀ id, .compare id ∉ after
  kept : ∀ file ∈ existing, .remove file ∉ trace

theorem created_iff (event : FileEvent) (file : String) : created event = some file ↔ event = .create file := by
  cases event <;> simp [created]

theorem removed_iff (event : FileEvent) (file : String) : removed event = some file ↔ event = .remove file := by
  cases event <;> simp [removed]

theorem mem_created (file : String) (trace : List FileEvent) : file ∈ trace.filterMap created ↔ .create file ∈ trace := by
  simp [List.mem_filterMap,created_iff]

theorem mem_removed (file : String) (trace : List FileEvent) : file ∈ trace.filterMap removed ↔ .remove file ∈ trace := by
  simp [List.mem_filterMap,removed_iff]

theorem initFiles_events (exState : ExecutionExitState) :
    (initFiles exState).filterMap created = names exState ∧ (initFiles exState).filterMap removed = [] := ⟨rfl,rfl⟩

theorem removeFiles_events (exState : ExecutionExitState) (named : ∀ file ∈ names exState, file ≠ "") :
    removeFiles exState = (names exState).map .remove := by
  have stdout := named exState.stdoutFile (by simp [names])
  have stderr := named exState.stderrFile (by simp [names])
  simp [removeFiles,names,stdout,stderr]

theorem origJob_events (opts : Options) (cleaning : opts.noCleanup = false) (exState : ExecutionExitState) :
    origJob opts exState = initFiles exState := by
  simp [origJob,destructor,cleaning]

theorem testJob_events (opts : Options) (cleaning : opts.noCleanup = false) (id : Nat) (exState : ExecutionExitState)
    (named : ∀ file ∈ names exState, file ≠ "") :
    testJob opts id exState = initFiles exState ++ .compare id :: (names exState).map .remove := by
  simp [testJob,destructor,cleaning,removeFiles_events exState named]

theorem collects_record (opts : Options) (few : opts.testRuns < 2^32) (orig : Nat → ExecutionExitState)
    (origState : ExecutionExitState) (collects : CollectsOrig opts orig origState) :
    origState = if 0 < opts.origJobs then orig 0 else {} := by
  unfold CollectsOrig at collects
  unfold Options.origJobs
  split at collects
  next runs =>
    obtain ⟨events,w,run,ended,rfl⟩ := collects
    have few : opts.numOrigJobs < 2^32 := (Nat.min_le_right _ _).trans_lt few
    obtain ⟨active,orderly⟩ := run_orderly (origJobScheduler ExecutionExitState) (reports orig) opts.jobs
      opts.numOrigJobs few {} events w run
    obtain ⟨_,_,_,allReaped⟩ := orderly.finished ended
    rw [if_pos runs,run_results (origJobScheduler ExecutionExitState) (reports orig) opts.jobs opts.numOrigJobs few _
      (orig_takes orig opts.numOrigJobs few).absorbs {} events w run,fold_first]
    simp only [allReaped.mem_iff,List.mem_range]
  next skipped =>
    rw [if_neg skipped,if_neg (by simp)]
    exact collects

theorem named (existing : List String) (trace : List FileEvent) (fresh : Fresh existing trace) (file : String)
    (made : .create file ∈ trace) : file ≠ "" ∧ file ∉ existing := by
  obtain ⟨before,after,split⟩ := List.append_of_mem made
  obtain ⟨picked,apart,_⟩ := fresh before file after split
  exact ⟨picked,apart⟩

def origNames (opts : Options) (orig : Nat → ExecutionExitState) : List String :=
  (List.range opts.origJobs).flatMap fun id => names (orig id)

def testNames (opts : Options) (test : Nat → ExecutionExitState) : List String :=
  (List.range opts.testRuns).flatMap fun id => names (test id)

theorem interleaved_events {threads : Nat → List FileEvent} {n : Nat} {trace : List FileEvent}
    (runs : Interleaves ((List.range n).map threads) trace) (kind : FileEvent → Option String) :
    (trace.filterMap kind).Perm ((List.range n).flatMap fun id => (threads id).filterMap kind) := by
  refine (runs.perm.filterMap kind).trans (List.Perm.of_eq ?_)
  rw [List.filterMap_flatten,List.map_map,List.flatMap_def]
  rfl

theorem remove_events (files : List String) :
    (files.map FileEvent.remove).filterMap created = [] ∧ (files.map FileEvent.remove).filterMap removed = files := by
  constructor
  · simp [List.filterMap_map,created,Function.comp_def]
  · rw [List.filterMap_map]
    exact List.filterMap_some

theorem orig_events (opts : Options) (cleaning : opts.noCleanup = false) (orig : Nat → ExecutionExitState)
    (trace : List FileEvent)
    (runs : Interleaves ((List.range opts.origJobs).map fun id => origJob opts (orig id)) trace) :
    (trace.filterMap created).Perm (origNames opts orig) ∧ trace.filterMap removed = [] := by
  have made := interleaved_events runs created
  have gone := interleaved_events runs removed
  simp only [origJob_events opts cleaning,(initFiles_events _).1] at made
  simp only [origJob_events opts cleaning,(initFiles_events _).2] at gone
  exact ⟨made,(gone.trans (List.Perm.of_eq (List.flatMap_eq_nil_iff.mpr fun _ _ => rfl))).eq_nil⟩

theorem test_events (opts : Options) (cleaning : opts.noCleanup = false) (test : Nat → ExecutionExitState)
    (trace : List FileEvent) (picked : ∀ file, .create file ∈ trace → file ≠ "")
    (runs : Interleaves ((List.range opts.testRuns).map fun id => testJob opts id (test id)) trace) :
    (trace.filterMap created).Perm (testNames opts test) ∧ (trace.filterMap removed).Perm (testNames opts test) := by
  have named (id : Nat) (low : id < opts.testRuns) : ∀ file ∈ names (test id), file ≠ "" := by
    intro file member
    refine picked file ((runs.mem _).mpr ⟨testJob opts id (test id),List.mem_map_of_mem (List.mem_range.mpr low),?_⟩)
    exact List.mem_append_left _ ((mem_created file _).mp member)
  have each (kind : FileEvent → Option String) (same : ∀ id < opts.testRuns,
      (testJob opts id (test id)).filterMap kind = names (test id)) : (trace.filterMap kind).Perm (testNames opts test) := by
    refine (interleaved_events runs kind).trans (List.Perm.of_eq ?_)
    exact List.flatMap_congr fun id member => same id (List.mem_range.mp member)
  refine ⟨each created fun id low => ?_,each removed fun id low => ?_⟩
  · rw [testJob_events opts cleaning id _ (named id low),List.filterMap_append,(initFiles_events _).1]
    exact congrArg (names (test id) ++ ·) (remove_events _).1 |>.trans (List.append_nil _)
  · rw [testJob_events opts cleaning id _ (named id low),List.filterMap_append,(initFiles_events _).2]
    exact (remove_events _).2

theorem begun_creates (opts : Options) (cleaning : opts.noCleanup = false) (id : Nat) (exState : ExecutionExitState)
    (named : ∀ file ∈ names exState, file ≠ "") (begun : List FileEvent) (starts : begun <+: testJob opts id exState)
    (file : String) (gone : .remove file ∈ begun) : .create file ∈ begun := by
  have whole := testJob_events opts cleaning id exState named
  have own : file ∈ names exState := by
    have inside := starts.subset gone
    rw [whole,List.mem_append,List.mem_cons] at inside
    obtain made | early | late := inside
    · simp [initFiles] at made
    · simp at early
    · obtain ⟨other,member,same⟩ := List.mem_map.mp late
      exact FileEvent.remove.inj same ▸ member
  rw [whole] at starts
  obtain short | long := List.prefix_or_prefix_of_prefix starts (List.prefix_append (initFiles exState) _)
  · have made := short.subset gone
    simp [initFiles] at made
  · exact long.subset ((mem_created file _).mp own)

/-- A file of the original runs outlives the test runs: mkstemp() gives its name to nobody. -/
theorem tests_keep (opts : Options) (cleaning : opts.noCleanup = false) (test : Nat → ExecutionExitState)
    (existing : List String) (first trace last : List FileEvent) (fresh : Fresh existing (first ++ trace ++ last))
    (runs : Interleaves ((List.range opts.testRuns).map fun id => testJob opts id (test id)) trace)
    (file : String) (made : .create file ∈ first) (live : .remove file ∉ first) : .remove file ∉ trace := by
  intro gone
  have picked : ∀ other, .create other ∈ trace → other ≠ "" := fun other inside =>
    (named existing _ fresh other (List.mem_append_left _ (List.mem_append_right _ inside))).1
  have jobNamed (id : Nat) (low : id ∈ List.range opts.testRuns) : ∀ other ∈ names (test id), other ≠ "" := by
    intro other member
    exact picked other ((runs.mem _).mpr ⟨_,List.mem_map_of_mem low,
      List.mem_append_left _ ((mem_created other _).mp member)⟩)
  have begins (begun : List FileEvent) (id : Nat) (low : id ∈ List.range opts.testRuns)
      (starts : begun <+: testJob opts id (test id)) : .remove file ∈ begun → .create file ∈ begun :=
    begun_creates opts cleaning id (test id) (jobNamed id low) begun starts file
  have again : .create file ∈ trace := by
    obtain ⟨thread,member,inside⟩ := (runs.mem _).mp gone
    obtain ⟨id,low,rfl⟩ := List.mem_map.mp member
    exact (runs.mem _).mpr ⟨_,member,begins _ id low List.prefix_rfl inside⟩
  -- the first test run that was given this name: some run had removed the file before
  obtain ⟨before,after,rfl,unmade⟩ := List.eq_append_cons_of_mem again
  obtain ⟨_,_,balanced⟩ := fresh (first ++ before) file (after ++ last) (by simp)
  obtain ⟨begun,related,early⟩ := runs.begun _ before _
  rw [List.count_append,List.count_append,List.count_eq_zero_of_not_mem live,
    List.count_eq_zero_of_not_mem unmade] at balanced
  have some_ := List.count_pos_iff.mpr made
  have removed : .remove file ∈ before := List.count_pos_iff.mp (by omega)
  obtain ⟨thread,member,inside⟩ := (early.mem _).mp removed
  obtain ⟨whole,job,starts⟩ : ∃ whole, whole ∈ (List.range opts.testRuns).map (fun id => testJob opts id (test id)) ∧
      thread <+: whole := by
    obtain ⟨i,bound,rfl⟩ := List.getElem_of_mem member
    have size := related.length_eq
    exact ⟨_,List.getElem_mem (size ▸ bound),related.get bound (size ▸ bound)⟩
  obtain ⟨id,low,rfl⟩ := List.mem_map.mp job
  exact unmade ((early.mem _).mpr ⟨thread,member,begins thread id low starts inside⟩)

/-- main() removes the files of original job 0, unless an imported exit state has taken their place. -/
theorem removeOriginal_eq (opts : Options) (cleaning : opts.noCleanup = false) (few : opts.testRuns < 2^32)
    (orig : Nat → ExecutionExitState) (origState : ExecutionExitState) (collects : CollectsOrig opts orig origState)
    (picked : ∀ file ∈ origNames opts orig, file ≠ "") :
    opts.removeOriginal (opts.importFiles origState) =
      if opts.setOrigExitState = none ∧ 0 < opts.origJobs then (names (orig 0)).map .remove else [] := by
  rw [collects_record opts few orig origState collects,Options.removeOriginal,Options.importFiles,cleaning]
  cases opts.setOrigExitState with
  | some files => simp
  | none =>
    by_cases some_ : 0 < opts.origJobs
    · rw [if_pos (by simp),if_pos some_,if_pos ⟨rfl,some_⟩]
      refine removeFiles_events (orig 0) fun file member => picked file ?_
      rw [origNames,List.mem_flatMap]
      exact ⟨0,List.mem_range.mpr some_,member⟩
    · rw [if_pos (by simp),if_neg some_,if_neg fun both => some_ both.2]
      rfl

theorem once_iff (opts : Options) (cleaning : opts.noCleanup = false) (orig test : Nat → ExecutionExitState)
    (origTrace testTrace last : List FileEvent) (picked : ∀ file, .create file ∈ testTrace → file ≠ "")
    (origRuns : Interleaves ((List.range opts.origJobs).map fun id => origJob opts (orig id)) origTrace)
    (testRuns : Interleaves ((List.range opts.testRuns).map fun id => testJob opts id (test id)) testTrace) :
    ((origTrace ++ testTrace ++ last).filterMap removed).Perm ((origTrace ++ testTrace ++ last).filterMap created) ↔
      (last.filterMap removed).Perm (origNames opts orig ++ last.filterMap created) := by
  obtain ⟨origMade,origKept⟩ := orig_events opts cleaning orig origTrace origRuns
  obtain ⟨testMade,testGone⟩ := test_events opts cleaning test testTrace picked testRuns
  simp only [List.filterMap_append,origKept,List.nil_append]
  have left := (testGone.append_right (last.filterMap removed))
  have right : (origTrace.filterMap created ++ testTrace.filterMap created ++ last.filterMap created).Perm
      (testNames opts test ++ (origNames opts orig ++ last.filterMap created)) := by
    rw [← List.append_assoc]
    exact ((origMade.append testMade).trans List.perm_append_comm).append_right _
  rw [left.congr_left,right.congr_right,List.perm_append_left_iff]

theorem mainRun_once_iff (opts : Options) (cleaning : opts.noCleanup = false) (few : opts.testRuns < 2^32)
    (orig test : Nat → ExecutionExitState) (existing : List String) (origState : ExecutionExitState)
    (origTrace testTrace : List FileEvent) (collects : CollectsOrig opts orig origState)
    (origRuns : Interleaves ((List.range opts.origJobs).map fun id => origJob opts (orig id)) origTrace)
    (testRuns : Interleaves ((List.range opts.testRuns).map fun id => testJob opts id (test id)) testTrace)
    (fresh : Fresh existing (origTrace ++ testTrace ++ opts.removeOriginal (opts.importFiles origState))) :
    opts.removeOriginal (opts.importFiles origState) =
      (if opts.setOrigExitState = none ∧ 0 < opts.origJobs then (names (orig 0)).map .remove else []) ∧
    (((origTrace ++ testTrace ++ opts.removeOriginal (opts.importFiles origState)).filterMap removed).Perm
        ((origTrace ++ testTrace ++ opts.removeOriginal (opts.importFiles origState)).filterMap created) ↔
      opts.origJobs = 0 ∨ opts.setOrigExitState = none ∧ opts.origJobs = 1) := by
  have picked : ∀ file, .create file ∈ origTrace ++ testTrace → file ≠ "" := fun file made =>
    (named existing _ fresh file (List.mem_append_left _ made)).1
  have origMade := (orig_events opts cleaning orig origTrace origRuns).1
  have last := removeOriginal_eq opts cleaning few orig origState collects fun file member =>
    picked file (List.mem_append_left _ ((mem_created file _).mp (origMade.mem_iff.mpr member)))
  refine ⟨last,(once_iff opts cleaning orig test origTrace testTrace _
    (fun file made => picked file (List.mem_append_right _ made)) origRuns testRuns).trans ?_⟩
  have size : (origNames opts orig).length = 2 * opts.origJobs := by
    rw [origNames,List.length_flatMap]
    simp [names,Nat.mul_comm]
  rw [last]
  by_cases removes : opts.setOrigExitState = none ∧ 0 < opts.origJobs
  · rw [if_pos removes,(remove_events _).1,(remove_events _).2,List.append_nil]
    constructor
    · intro once
      have lengths := once.length_eq
      simp only [size,names,List.length_cons,List.length_nil] at lengths
      exact .inr ⟨removes.1,by omega⟩
    · rintro (none | ⟨_,one⟩)
      · exact absurd removes.2 (by omega)
      · rw [origNames,one]
        simp
  · rw [if_neg removes,List.filterMap_nil,List.filterMap_nil,List.append_nil,List.nil_perm,
      ← List.length_eq_zero_iff,size]
    constructor
    · exact fun none => .inl (by omega)
    · rintro (none | ⟨unset,one⟩)
      · omega
      · exact absurd ⟨unset,by omega⟩ removes

/-- What is removed is removed late, and nobody else's: a file stays until main() removes it. -/
theorem mainRun_late (opts : Options) (cleaning : opts.noCleanup = false)
    (orig test : Nat → ExecutionExitState) (existing : List String) (origTrace testTrace last : List FileEvent)
    (ends : ∀ id, .compare id ∉ last)
    (origRuns : Interleaves ((List.range opts.origJobs).map fun id => origJob opts (orig id)) origTrace)
    (testRuns : Interleaves ((List.range opts.testRuns).map fun id => testJob opts id (test id)) testTrace)
    (fresh : Fresh existing (origTrace ++ testTrace ++ last)) (before after : List FileEvent) (file : String)
    (split : origTrace ++ testTrace ++ last = before ++ .remove file :: after) (own : file ∈ origNames opts orig) (id : Nat) :
    .compare id ∉ after := by
  obtain ⟨origMade,origKept⟩ := orig_events opts cleaning orig origTrace origRuns
  have made : .create file ∈ origTrace := (mem_created file _).mp (origMade.mem_iff.mpr own)
  have live : .remove file ∉ origTrace := by
    rw [← mem_removed,origKept]
    simp
  have kept := tests_keep opts cleaning test existing origTrace testTrace last fresh testRuns file made live
  intro compared
  obtain ⟨mid,_,rest⟩ | ⟨mid,early,rest⟩ := List.append_eq_append_iff.mp split
  · refine ends id ?_
    rw [rest]
    simp [compared]
  · cases mid with
    | nil =>
      refine ends id ?_
      rw [← show FileEvent.remove file :: after = last from rest]
      simp [compared]
    | cons event mid =>
      obtain ⟨rfl,_⟩ := List.cons.inj rest
      have inside : FileEvent.remove file ∈ origTrace ++ testTrace := by
        rw [early]
        simp
      obtain old | new := List.mem_append.mp inside
      · exact live old
      · exact kept new

/-- The originals of every job but the first are left behind, and that of the first as well when
main() has an exit state imported over it. -/
theorem main_cleansUp_iff (opts : Options) (cleaning : opts.noCleanup = false) (few : opts.testRuns < 2^32)
    (orig test : Nat → ExecutionExitState) (existing : List String) (trace : List FileEvent)
    (run : MainRun opts orig test trace) (fresh : Fresh existing trace) :
    CleansUp existing (origNames opts orig) trace ↔
      opts.runsOriginal = false ∨ opts.numOrigJobs = 0 ∨ opts.setOrigExitState = none ∧ opts.numOrigJobs = 1 := by
  have condition : (opts.origJobs = 0 ∨ opts.setOrigExitState = none ∧ opts.origJobs = 1) ↔
      opts.runsOriginal = false ∨ opts.numOrigJobs = 0 ∨ opts.setOrigExitState = none ∧ opts.numOrigJobs = 1 := by
    unfold Options.origJobs
    cases opts.runsOriginal <;> simp
  rw [← condition]
  obtain ⟨origState,origTrace,testTrace,collects,origRuns,testRuns⟩ := run
  obtain ⟨last,once⟩ := mainRun_once_iff opts cleaning few orig test existing origState origTrace testTrace collects
    origRuns testRuns fresh
  rw [← once]
  refine ⟨CleansUp.once,fun once => ⟨once,?_,?_⟩⟩
  · intro before file after split own id
    refine mainRun_late opts cleaning orig test existing origTrace testTrace _ ?_ origRuns testRuns fresh before after
      file split own id
    intro other
    rw [last]
    split_ifs <;> simp
  · intro file old gone
    have made := (mem_created file _).mp (once.mem_iff.mp ((mem_removed file _).mpr gone))
    exact (named existing _ fresh file made).2 old

def freshAt (existing : List String) (events : List FileEvent) (i : Nat) : Bool :=
  match events[i]? with
  | some (.create file) => decide (file ≠ "" ∧ file ∉ existing ∧
      (events.take i).count (.create file) = (events.take i).count (.remove file))
  | _ => true

theorem fresh_of_each (existing : List String) (events : List FileEvent)
    (each : ∀ i < events.length, freshAt existing events i = true) : Fresh existing events := by
  intro before file after split
  have here := each before.length (by rw [split]; simp)
  rw [freshAt,split] at here
  simpa using here

def originals (id : Nat) : ExecutionExitState := ⟨⟨.exited,0⟩,3,4,if id = 0 then "out.a" else "out.b",if id = 0 then "err.a" else "err.b"⟩

def tests (_ : Nat) : ExecutionExitState := ⟨⟨.exited,0⟩,5,6,"out.c","err.c"⟩

def origForked : World ExecutionExitState ExecutionExitState := forkJob 7 3 4 {results := {}}

theorem orig_waits : Step (origJobScheduler ExecutionExitState) (reports originals) 1 1 origForked
    (.reaped oneJob.child (some oneJob.data)) (waitForJob (origJobScheduler ExecutionExitState) () 7
      (reports originals 0).ending.status (endChild (reports originals 0) oneJob.child origForked)) :=
  .wait origForked oneJob.child () (by simp [Blocks,origForked,forkJob,setBackPID]) (by decide)

theorem one_collected : ∃ events w, Run (fun w event w' => Step (origJobScheduler ExecutionExitState)
    (fun id => ⟨some (originals id),.exited exitSuccess⟩) 1 1 w event (.ok w')) {results := {}} events w ∧
      Finished 1 w ∧ originals 0 = w.results := by
  have forked : Run (Moves (origJobScheduler ExecutionExitState) (reports originals) 1 1) {results := {}}
      [.forked 0 7] origForked :=
    .snoc [] _ _ _ .nil (.fork _ 7 3 4 (by decide) (by decide) (by decide) (by decide) (by decide) (by decide))
  have waited := Run.snoc _ _ _ _ forked (show Moves (origJobScheduler ExecutionExitState) (reports originals) 1 1
    origForked _ (reaped (reports originals 0) oneJob (originals 0) origForked) from orig_waits)
  exact ⟨_,_,waited,⟨rfl,rfl⟩,rfl⟩

def oneTrace (opts : Options) : List FileEvent :=
  origJob opts (originals 0) ++ testJob opts 0 (tests 0) ++ opts.removeOriginal (opts.importFiles (originals 0))

theorem one_mainRun (opts : Options) (runs : opts.runsOriginal = true) (jobs : opts.jobs = 1)
    (testRuns : opts.testRuns = 1) : MainRun opts originals tests (oneTrace opts) := by
  have number : opts.numOrigJobs = 1 := by rw [Options.numOrigJobs,jobs,testRuns]; rfl
  refine .intro (originals 0) _ _ ?_ ?_ ?_
  · rw [CollectsOrig,if_pos runs,jobs,number]
    exact one_collected
  · rw [Options.origJobs,if_pos runs,number]
    exact Interleaves.alone _
  · rw [testRuns]
    exact Interleaves.alone _

theorem default_cleansUp : CleansUp [] (origNames {} originals) (oneTrace {}) :=
  (main_cleansUp_iff {} rfl (by decide) originals tests [] (oneTrace {}) (one_mainRun {} rfl rfl rfl)
    (fresh_of_each _ _ (by decide))).mpr (.inr (.inr ⟨rfl,rfl⟩))

/-- -set-orig-exit-state without -bin-exec-time: the original is run for its time. -/
def imported : Options := {setOrigExitState := some ("ref.out","ref.err")}

theorem imported_left : MainRun imported originals tests (oneTrace imported) ∧
    Fresh ["ref.out","ref.err"] (oneTrace imported) ∧
    ¬ CleansUp ["ref.out","ref.err"] (origNames imported originals) (oneTrace imported) := by
  refine ⟨one_mainRun imported rfl rfl rfl,fresh_of_each _ _ (by decide),?_⟩
  intro cleans
  have lengths := cleans.once.length_eq
  exact absurd lengths (by decide)

end Zofi.TemporaryFiles
