import Zofi.Lib.Delimited
import Zofi.Model.Report
import Zofi.WrittenNumbers

/-! The file that dumpToCSV() appends to, over any number of campaigns, and what can be read back
from it. -/
namespace Zofi.CsvFile
open Sys Delimited WrittenNumbers Model.Utils Model.Outcomes Model.StatisticsObject Model.Printing Model.Report

variable {ρ : Type}

/-- What main() reports of a campaign; the test runs leave the number that was asked for alone. -/
structure Campaign (ρ : Type) where
  options : Options
  origExecTime : ρ
  counts : Statistics
  testsExecTime : ρ
  kept : counts.uLongMap .testRuns = options.testRuns

def Campaign.object (campaign : Campaign ρ) : Except Halt (Object ρ) := do
  let object ← newStatistics campaign.options campaign.origExecTime
  setTotals object campaign.counts campaign.testsExecTime campaign.options

def digits (n : Nat) : List Char := Nat.toDigits 10 n

def Campaign.values (showDouble : ρ → String) (campaign : Campaign ρ) : List (List Char) :=
  [campaign.options.binary.toList,campaign.options.injectTo.toList,digits campaign.options.testRuns,
    digits (campaign.counts.uLongMap .masked),digits (campaign.counts.uLongMap .exception),
    digits (campaign.counts.uLongMap .infExec),digits (campaign.counts.uLongMap .corrupted),
    (showDouble campaign.origExecTime).toList,(showDouble campaign.testsExecTime).toList,digits campaign.options.testRuns]

theorem object_values (showDouble : ρ → String) (campaign : Campaign ρ) : ∃ object, campaign.object = .ok object ∧
    (∀ s, isCounter s = true → object.counts.uLongMap s = campaign.counts.uLongMap s) ∧
    object.counts.totalInjOK = campaign.counts.totalInjOK ∧
    (csvStats.mapM fun stat => return (← object.getStr showDouble stat).toList) =
      (.ok (campaign.values showDouble) : Except Halt (List (List Char))) := by
  obtain ⟨options,origExecTime,counts,testsExecTime,kept⟩ := campaign
  refine ⟨_,rfl,?_,rfl,?_⟩
  · intro s counter
    cases s <;> simp_all [Object.putULong,isCounter]
  · rw [mapM_of_pure _ (fun stat => match stat with
      | .binary => options.binary.toList
      | .injectTo => options.injectTo.toList
      | .origExecTime => (showDouble origExecTime).toList
      | .testsExecTime => (showDouble testsExecTime).toList
      | .testRuns | .numTests => digits options.testRuns
      | stat => digits (counts.uLongMap stat)) csvStats]
    · rfl
    · intro stat listed
      simp only [csvStats,List.mem_cons,List.not_mem_nil,or_false] at listed
      rcases listed with rfl | rfl | rfl | rfl | rfl | rfl | rfl | rfl | rfl | rfl <;>
        simp [Object.getStr,Object.putULong,Object.new,Object.zero,digits,isCounter,kept,bind,Except.bind,pure,Except.pure]

def csvText (rows : List (List (List Char))) : List Char := tableText ',' ' ' ' ' '\n' fieldWidth rows

theorem csvText_append (one two : List (List (List Char))) : csvText (one ++ two) = csvText one ++ csvText two := by
  rw [csvText,csvText,csvText,tableText,tableText,tableText,List.map_append,Lines.unlines,Lines.unlines,Lines.unlines,
    List.flatMap_append]

section Appends

variable (opens : String → Bool) (showDouble : ρ → String) (outCsvFile : String)

def appendAll (campaigns : List (Campaign ρ)) (files : Files) : Except Halt Files :=
  campaigns.foldlM (fun files campaign => do dumpToCSV opens showDouble outCsvFile (← campaign.object) files) files

def appended (campaign : Campaign ρ) (files : Files) : Files :=
  Function.update files outCsvFile (some (match files outCsvFile with
    | some content => content ++ csvText [campaign.values showDouble]
    | none => csvText [csvHeader,campaign.values showDouble]))

variable (opened : opens outCsvFile = true)

include opened in
theorem dumpToCSV_appended (campaign : Campaign ρ) (files : Files) :
    (do dumpToCSV opens showDouble outCsvFile (← campaign.object) files) =
      (.ok (appended showDouble outCsvFile campaign files) : Except Halt Files) := by
  obtain ⟨object,made,_,_,values⟩ := object_values showDouble campaign
  rw [made]
  change dumpToCSV opens showDouble outCsvFile object files = _
  rw [dumpToCSV,opened,values]
  cases there : files outCsvFile <;> simp [appended,there] <;> rfl

theorem appended_content (campaigns : List (Campaign ρ)) (files : Files) (content : List Char)
    (there : files outCsvFile = some content) :
    campaigns.foldl (fun files campaign => appended showDouble outCsvFile campaign files) files =
      Function.update files outCsvFile (some (content ++ csvText (campaigns.map (Campaign.values showDouble)))) := by
  induction campaigns generalizing files content with
  | nil =>
    rw [List.foldl_nil,List.map_nil,show csvText [] = [] from rfl,List.append_nil,← there,Function.update_eq_self]
  | cons campaign campaigns ih =>
    have next : appended showDouble outCsvFile campaign files =
        Function.update files outCsvFile (some (content ++ csvText [campaign.values showDouble])) := by
      rw [appended,there]
    rw [List.foldl_cons,next,ih _ _ (Function.update_self ..),Function.update_idem,List.map_cons,List.append_assoc,
      ← csvText_append,List.singleton_append]

include opened in
theorem appendAll_first (campaign : Campaign ρ) (campaigns : List (Campaign ρ)) (files : Files)
    (new : files outCsvFile = none) :
    appendAll opens showDouble outCsvFile (campaign :: campaigns) files = .ok (Function.update files outCsvFile
      (some (csvText (csvHeader :: (campaign :: campaigns).map (Campaign.values showDouble))))) := by
  have each (files : Files) (item : Campaign ρ) (next : Files) :
      (do dumpToCSV opens showDouble outCsvFile (← item.object) files) = (.ok next : Except Halt Files) ↔
        True ∧ next = appended showDouble outCsvFile item files := by
    rw [dumpToCSV_appended opens showDouble outCsvFile opened]
    simp [eq_comm]
  rw [appendAll,foldlM_ok_iff _ _ _ each]
  refine ⟨fun _ _ => trivial,?_⟩
  have first : appended showDouble outCsvFile campaign files =
      Function.update files outCsvFile (some (csvText [csvHeader,campaign.values showDouble])) := by
    rw [appended,new]
  rw [List.foldl_cons,first,appended_content _ _ _ _ _ (Function.update_self ..),Function.update_idem,← csvText_append]
  rfl

end Appends

/-! Reading it back. -/

/-- The rows of the file, at the commas that a blank follows, without the padding. -/
def readCsv (content : List Char) : List (List (List Char)) := readTable ',' ' ' ' ' '\n' content

abbrev Plain (text : List Char) : Prop := Delimited.Plain ',' ' ' ' ' '\n' text

theorem plain_of_chars (text : List Char) (chars : ∀ c ∈ text, c ≠ ',' ∧ c ≠ ' ' ∧ c ≠ '\n') : Plain text where
  undivided within := (chars ',' (within.subset (by simp))).1 rfl
  unpadded head := (chars ' ' (List.mem_of_mem_head? head)).2.1 rfl
  line member := (chars '\n' member).2.2 rfl

theorem digits_plain (n : Nat) : Plain (digits n) := by
  apply plain_of_chars
  intro c member
  have digit := digits_decimal n c member
  refine ⟨?_,?_,?_⟩ <;> rintro rfl <;> exact absurd digit (by decide)

theorem header_plain : ∀ field ∈ csvHeader, Plain field := by
  have chars : csvHeader.all (fun field => field.all fun c => decide (c ≠ ',' ∧ c ≠ ' ' ∧ c ≠ '\n')) = true := by decide
  simp only [List.all_eq_true,decide_eq_true_eq] at chars
  exact fun field member => plain_of_chars field (chars field member)

theorem values_plain_iff (showDouble : ρ → String) (shown : ∀ x, Plain (showDouble x).toList) (campaign : Campaign ρ) :
    (∀ field ∈ campaign.values showDouble, Plain field) ↔
      Plain campaign.options.binary.toList ∧ Plain campaign.options.injectTo.toList := by
  simp [Campaign.values,digits_plain,shown]

/-- The campaigns that are appended to a new file can all be read back, under one header and in
their order, exactly if each binary and each -inject-to can be told from the text around it. -/
theorem csv_reads_iff (opens : String → Bool) (showDouble : ρ → String) (shown : ∀ x, Plain (showDouble x).toList)
    (outCsvFile : String) (opened : opens outCsvFile = true) (campaign : Campaign ρ) (campaigns : List (Campaign ρ))
    (files : Files) (new : files outCsvFile = none) :
    ∃ files' content, appendAll opens showDouble outCsvFile (campaign :: campaigns) files = .ok files' ∧
      files' outCsvFile = some content ∧ (∀ file ≠ outCsvFile, files' file = files file) ∧
      (readCsv content = csvHeader :: (campaign :: campaigns).map (Campaign.values showDouble) ↔
        ∀ each ∈ campaign :: campaigns, Plain each.options.binary.toList ∧ Plain each.options.injectTo.toList) := by
  refine ⟨_,_,appendAll_first opens showDouble outCsvFile opened campaign campaigns files new,Function.update_self ..,
    fun file other => Function.update_of_ne other _ _,?_⟩
  rw [readCsv,csvText,readTable_tableText ',' ' ' ' ' '\n' fieldWidth (by decide) (by decide) (by decide),
    List.forall_mem_cons,List.forall_mem_map]
  simp only [values_plain_iff showDouble shown]
  exact and_iff_right header_plain

def oneCampaign (binary : String) : Campaign Unit :=
  ⟨{binary,testRuns := 3},(),{uLongMap := fun s => if s = .testRuns ∨ s = .masked then 3 else 0},(),rfl⟩

def seconds : Unit → String := fun _ => "0.250000"

theorem seconds_plain (x : Unit) : Plain (seconds x).toList := by
  have chars : (seconds x).toList.all (fun c => decide (c ≠ ',' ∧ c ≠ ' ' ∧ c ≠ '\n')) = true := by cases x; decide
  simp only [List.all_eq_true,decide_eq_true_eq] at chars
  exact plain_of_chars _ chars

theorem two_campaigns_read : ∃ files' content, appendAll (fun _ => true) seconds "out.csv"
      [oneCampaign "/bin/ls",oneCampaign "/opt/a b,c"] (fun _ => none) = .ok files' ∧ files' "out.csv" = some content ∧
    readCsv content = csvHeader :: [oneCampaign "/bin/ls",oneCampaign "/opt/a b,c"].map (Campaign.values seconds) := by
  obtain ⟨files',content,ran,there,_,reads⟩ := csv_reads_iff (fun _ => true) seconds seconds_plain "out.csv" rfl
    (oneCampaign "/bin/ls") [oneCampaign "/opt/a b,c"] (fun _ => none) rfl
  refine ⟨files',content,ran,there,reads.mpr ?_⟩
  rw [List.forall_mem_cons,List.forall_mem_singleton]
  exact ⟨⟨⟨by decide,by decide,by decide⟩,⟨by decide,by decide,by decide⟩⟩,
    ⟨⟨by decide,by decide,by decide⟩,⟨by decide,by decide,by decide⟩⟩⟩

/-- A binary whose name has a comma and a blank is read as two fields. -/
example : (readCsv (csvText [["/opt/a, b".toList]])).map List.length = [2] := by decide

end Zofi.CsvFile
