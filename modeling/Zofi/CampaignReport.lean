import Zofi.CsvFile
import Zofi.OutcomeTable
import Zofi.Startup
import Zofi.WholeCampaign

/-! What the program reports: the numbers in the table and in the -out-csv file are numbers of test
runs. -/
namespace Zofi.CampaignReport
open Sys Lines Model.Utils Model.WaitStatus Model.Outcomes Model.Threads Model.TestRun Model.ExitState Model.InjectionRun
open Model.StatisticsObject Model.Report Campaign WholeCampaign OutcomeTable CsvFile

variable {μ ρ : Type}

def number (total : Nat) (opts : TestOptions) (tests : Nat → TestProcess μ) (handed : ExecutionExitState)
    (state : Nat → ExitState) (outcome : FtStatus) : Nat :=
  (List.range total).countP fun id => decide ((tests id).verdict opts handed (state id) = outcome)

def tabled (detectionExitCode : Int) (outcome : FtStatus) : Prop :=
  outcome ∈ [FtStatus.masked,.exception,.infExec,.corrupted] ∨ outcome = .detected ∧ detectionExitCode ≠ 0

instance (detectionExitCode : Int) (outcome : FtStatus) : Decidable (tabled detectionExitCode outcome) :=
  inferInstanceAs (Decidable (_ ∨ _))

theorem new_counts (options : Options) (origExecTime : ρ) (object : Object ρ)
    (made : newStatistics options origExecTime = .ok object) :
    (∀ s, isCounter s = true → object.counts.uLongMap s = 0) ∧ object.counts.totalInjOK = 0 ∧
      object.counts.uLongMap .testRuns = options.testRuns := by
  obtain rfl := Except.ok.inj made
  refine ⟨?_,rfl,rfl⟩
  intro s counter
  cases s <;> first | rfl | cases counter

theorem mem_outcomeTypes_of (outcome : FtStatus) (s : StatType) (has : counterOf outcome = some s) : s ∈ outcomeTypes :=
  (mem_outcomeTypes s).mpr (isCounter_counterOf outcome s has)

section Report

variable {args : Arguments} {errno : Int} {fileExists : String → Bool} {opts : TestOptions} {original : Process μ}
  {tests : Nat → TestProcess μ}
  {handed : ExecutionExitState} {before stats counts : Statistics} {state : Nat → ExitState}
  (means : Means args errno fileExists opts original tests handed before stats state)
  (fresh : (∀ s, isCounter s = true → before.uLongMap s = 0) ∧ before.totalInjOK = 0)
  (same : (∀ s, isCounter s = true → counts.uLongMap s = stats.uLongMap s) ∧ counts.totalInjOK = stats.totalInjOK)

include means fresh same in
theorem reported_number (outcome : FtStatus) (s : StatType) (has : counterOf outcome = some s) :
    counts.uLongMap s = number args.testRuns opts tests handed state outcome := by
  have counter := isCounter_counterOf outcome s has
  rw [same.1 s counter,means.counters outcome s has,fresh.1 s counter,Nat.zero_add]
  rfl

include means fresh same in
theorem reported_total : counts.totalInjOK = if opts.settings.noRedirect then 0 else args.testRuns := by
  rw [same.2,means.totalInjOK,fresh.2,Nat.zero_add]

include means fresh same in
theorem shown_iff (outcome : FtStatus) (s : StatType) (has : counterOf outcome = some s) (detectionExitCode : Int) :
    Shown detectionExitCode counts s ↔
      opts.settings.noRedirect = false ∧ 0 < args.testRuns ∧ tabled detectionExitCode outcome := by
  have total := reported_total means fresh same
  unfold Shown
  rw [total]
  cases redirect : opts.settings.noRedirect with
  | true => simp
  | false =>
    have none : counts.uLongMap .skipped = 0 := by
      rw [reported_number means fresh same .skipped .skipped rfl,number,List.countP_eq_zero]
      intro id _
      simpa using ((verdict_ok_iff (tests id) opts handed (state id)).mpr redirect).2
    have listed : s ∈ dumpStats detectionExitCode counts ↔ tabled detectionExitCode outcome := by
      rw [dumpStats,none,tabled]
      cases outcome <;> simp [counterOf] at has <;> subst has <;> by_cases code : detectionExitCode = 0 <;> simp [code]
    rw [listed]
    simp [Nat.pos_iff_ne_zero]

end Report

def row (options : Options) (showDouble : ρ → String) (origExecTime testsExecTime : ρ) (number : FtStatus → Nat) :
    List (List Char) :=
  [options.binary.toList,options.injectTo.toList,digits options.testRuns] ++
    [FtStatus.masked,.exception,.infExec,.corrupted].map (fun outcome => digits (number outcome)) ++
    [(showDouble origExecTime).toList,(showDouble testsExecTime).toList,digits options.testRuns]

structure Output (ρ : Type) where
  showShare : Nat → Nat → List Char
  showDouble : ρ → String
  numeric : ∀ count total, total ≠ 0 → Numeric (showShare count total)
  shown : ∀ x, Plain (showDouble x).toList
  opens : String → Bool

structure Asked where
  verboseLevel : Int := 1
  outCsvFile : Option String := none

/-- The script finds the number of the test runs with a verdict in the table, behind whatever else is
printed, unless the table is not printed, and the file has gained the row of the campaign. -/
structure Reports (output : Output ρ) (asked : Asked) (options : Options) (origExecTime testsExecTime : ρ)
    (opts : TestOptions) (number : FtStatus → Nat) (final : Object ρ) : Prop where
  table : ∀ outcome s, counterOf outcome = some s → ∀ printed : List (List Char),
    (∀ line ∈ printed, '\n' ∉ line ∧ ¬ name s <:+: line) →
      getOutcome [getTypeStr s,"N"] (unlines '\n' printed ++
        printResults output.showShare asked.verboseLevel opts.settings.detectionExitCode final.counts) =
      .ok (if 1 ≤ asked.verboseLevel ∧ opts.settings.noRedirect = false ∧ 0 < options.testRuns ∧
        tabled opts.settings.detectionExitCode outcome then [digits (number outcome)] else [])
  file : ∀ outCsvFile, asked.outCsvFile = some outCsvFile → output.opens outCsvFile = true →
    Plain options.binary.toList → Plain options.injectTo.toList → ∀ (files : Files) (rows : Option (List (List (List Char)))),
    (∀ row ∈ rows.getD [], ∀ field ∈ row, Plain field) → files outCsvFile = rows.map csvText →
      ∃ files', writeResults output.opens output.showDouble asked.outCsvFile final files = .ok files' ∧
        (files' outCsvFile).map readCsv =
          some (rows.getD [csvHeader] ++ [row options output.showDouble origExecTime testsExecTime number])

theorem appended_reads (showDouble : ρ → String) (shown : ∀ x, Plain (showDouble x).toList) (outCsvFile : String)
    (campaign : Campaign ρ) (binary : Plain campaign.options.binary.toList)
    (injectTo : Plain campaign.options.injectTo.toList) (files : Files) (rows : Option (List (List (List Char))))
    (plain : ∀ row ∈ rows.getD [], ∀ field ∈ row, Plain field) (there : files outCsvFile = rows.map csvText) :
    (appended showDouble outCsvFile campaign files outCsvFile).map readCsv =
      some (rows.getD [csvHeader] ++ [campaign.values showDouble]) := by
  have values := (values_plain_iff showDouble shown campaign).mpr ⟨binary,injectTo⟩
  have content : appended showDouble outCsvFile campaign files outCsvFile =
      some (csvText (rows.getD [csvHeader] ++ [campaign.values showDouble])) := by
    cases rows with
    | none => simp [appended,there]
    | some rows => simp [appended,there,csvText_append]
  rw [content,Option.map_some,Option.some_inj]
  refine (Delimited.readTable_tableText ',' ' ' ' ' '\n' fieldWidth (by decide) (by decide) (by decide) _).mpr ?_
  rw [List.forall_mem_append,List.forall_mem_singleton]
  refine ⟨?_,values⟩
  cases rows with
  | none => simpa using header_plain
  | some rows => exact plain

theorem campaign_reports (output : Output ρ) (asked : Asked) (options : Options) (origExecTime testsExecTime : ρ)
    (args : Arguments) (runs : options.testRuns = args.testRuns) (few : args.testRuns < 2^32) (one : 1 ≤ args.jobs)
    (errno : Int) (fileExists : String → Bool) (opts : TestOptions) (original : Process μ) (tests : Nat → TestProcess μ)
    (origJobs : Nat → JobEnd Sent) (testJobs : Nat → JobEnd FtStatus) (handed : ExecutionExitState) (object : Object ρ)
    (made : newStatistics options origExecTime = .ok object) (stats : Statistics)
    (campaigns : Campaigns args errno fileExists origJobs testJobs handed object.counts stats)
    (origEnded : childJobEnd original.original = some (sends (origJobs 0)))
    (testEnded : ∀ id < args.testRuns, childJobEnd ((tests id).result opts handed) = some (testJobs id))
    (sent : ∀ id < args.testRuns, (testJobs id).wrote.isSome = true) :
    ∃ state final, Means args errno fileExists opts original tests handed object.counts stats state ∧
      setTotals object stats testsExecTime options = .ok final ∧
      Reports output asked options origExecTime testsExecTime opts (number args.testRuns opts tests handed state) final := by
  obtain ⟨state,means⟩ := campaigns_mean args few one errno fileExists opts original tests origJobs testJobs handed
    object.counts stats campaigns origEnded testEnded sent
  obtain ⟨zero,none,recorded⟩ := new_counts options origExecTime object made
  have kept : stats.uLongMap .testRuns = options.testRuns := (means.kept .testRuns rfl).trans recorded
  let campaign : CsvFile.Campaign ρ := ⟨options,origExecTime,stats,testsExecTime,kept⟩
  obtain ⟨final,ended,counters,total,values⟩ := object_values output.showDouble campaign
  have set : setTotals object stats testsExecTime options = .ok final := by
    rw [← ended]
    change _ = (do setTotals (← newStatistics options origExecTime) stats testsExecTime options)
    rw [made]
    rfl
  refine ⟨state,final,means,set,?_,?_⟩
  · intro outcome s has printed apart
    unfold printResults
    by_cases verbose : 1 ≤ asked.verboseLevel
    · rw [if_pos verbose,getOutcome_count output.showShare output.numeric opts.settings.detectionExitCode final.counts s
        (mem_outcomeTypes_of outcome s has) printed apart]
      rw [reported_number means ⟨zero,none⟩ ⟨counters,total⟩ outcome s has,runs]
      simp only [shown_iff means ⟨zero,none⟩ ⟨counters,total⟩ outcome s has,digits,verbose,true_and]
    · rw [if_neg verbose,if_neg fun both => verbose both.1,List.append_nil]
      exact getOutcome_unnamed s printed apart
  · intro outCsvFile given opened binary injectTo files rows plain there
    have dumped := dumpToCSV_appended output.opens output.showDouble outCsvFile opened campaign files
    rw [ended] at dumped
    rw [given]
    refine ⟨_,dumped,?_⟩
    rw [appended_reads output.showDouble output.shown outCsvFile campaign binary injectTo files rows plain there]
    have counted (outcome : FtStatus) (s : StatType) (has : counterOf outcome = some s) :
        stats.uLongMap s = number args.testRuns opts tests handed state outcome := by
      rw [← reported_number means ⟨zero,none⟩ ⟨counters,total⟩ outcome s has,
        counters s (isCounter_counterOf outcome s has)]
    simp [CsvFile.Campaign.values,row,campaign,counted .masked .masked rfl,counted .exception .exception rfl,
      counted .infExec .infExec rfl,counted .corrupted .corrupted rfl]

section Main

open Model.Options Model.Startup Startup

variable (store : Store ρ) (shells : Model.DiffCmd.Shells) (fuel : Nat)

def testOptions : TestOptions :=
  {options := runOptions store,settings := settingsOf store shells fuel,registers := (commandLine store).options}

def askedOf : Asked := ⟨intOf store .verboseLevel,outCsvFileOf store⟩

end Main

open Scheduler Transitions TemporaryFiles OriginalState

def listing : Object Unit := {(Object.new {binary := "/bin/ls"} : Object Unit) with
  doubleMap := Function.update (fun _ => none) .origExecTime (some ())}

def listingForked : Model.Threads.World FtStatus Statistics := forkJob 7 3 4 {results := listing.counts}

def listingReaped : Model.Threads.World FtStatus Statistics :=
  reaped (reports (fun _ => .masked) 0) oneJob (count listing.counts (some .masked)) listingForked

theorem listing_campaigns (fileExists : String → Bool) : Campaigns {} 0 fileExists sentBy (reports fun _ => .masked) (originals 0)
    listing.counts listingReaped.results := by
  have forked : Run (Moves testJobScheduler (reports fun _ => .masked) 1 1) {results := listing.counts}
      [.forked 0 7] listingForked :=
    .snoc [] _ _ _ .nil (.fork _ 7 3 4 (by decide) (by decide) (by decide) (by decide) (by decide) (by decide))
  have waits := reap_moves (reports fun _ => .masked) 1 1 listingForked [oneJob] (firstForked_shape listing.counts)
    Nat.one_pos oneJob (List.mem_singleton_self _) exitSuccess rfl none .masked rfl (by decide)
  have run := Run.snoc _ _ _ _ forked waits
  exact ⟨⟨originals 0,one_collected,rfl⟩,_,_,run,⟨rfl,rfl⟩,rfl⟩

theorem always_numeric : Numeric "100".toList := numeric_of_all _ '0' (by decide) (by decide) (by decide)

def output : Output Unit where
  showShare _ _ := "100".toList
  showDouble := seconds
  numeric _ _ _ := always_numeric
  shown := seconds_plain
  opens _ := true

open Model.Startup Startup

def noShells : Model.DiffCmd.Shells := ⟨true,fun _ => false,fun _ _ _ => .exited exitFailure⟩

theorem lsStore_forced : testOptions (lsStore fun text => ((),text)) noShells 0 = forced := rfl

end Zofi.CampaignReport
