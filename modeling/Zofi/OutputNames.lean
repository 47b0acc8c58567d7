import Zofi.Lib.Separators
import Zofi.Lib.Sys
import Zofi.Model.StatisticsObject
import Zofi.WrittenNumbers

/-! The names of the files that dumpToMoufoplot() writes. -/
namespace Zofi.OutputNames
open Numerals Separators Sys WrittenNumbers Model.Utils Model.Outcomes Model.StatisticsObject

structure Experiment where
  binary : String
  injectTo : String
  letters : ∀ c ∈ injectTo.toList, c ∈ ['r','w','e','i','c','o']
  testRuns : Nat
  stat : StatType
  listed : stat ∈ moufoplotStats

def Experiment.options (experiment : Experiment) (dir : String) : Options :=
  ⟨experiment.binary,experiment.injectTo,experiment.testRuns,dir⟩

def Experiment.path (dir : String) (experiment : Experiment) : String := filePath (experiment.options dir) experiment.stat

theorem path_fields (dir : String) (experiment : Experiment) : (experiment.path dir).toList = dir.toList ++ '/' ::
    (experiment.binary.toList ++ "_InjectTo".toList ++ '-' :: experiment.injectTo.toList ++ "_TestRuns".toList ++
      '-' :: Nat.toDigits 10 experiment.testRuns ++ '_' :: (getTypeStr experiment.stat).toList) := by
  simp [Experiment.path,filePath,filePrefix,Experiment.options]

theorem stat_plain : ∀ stat ∈ moufoplotStats, '_' ∉ (getTypeStr stat).toList := by decide

theorem getTypeStr_injective : ∀ stat ∈ moufoplotStats, ∀ stat' ∈ moufoplotStats,
    getTypeStr stat = getTypeStr stat' → stat = stat' := by decide

theorem digits_plain (n : Nat) : '-' ∉ Nat.toDigits 10 n := by
  intro member
  exact absurd (digits_decimal n '-' member) (by decide)

theorem letters_plain (experiment : Experiment) : '-' ∉ experiment.injectTo.toList := by
  intro member
  exact absurd (experiment.letters '-' member) (by decide)

theorem toDigits_injective (m n : Nat) (same : Nat.toDigits 10 m = Nat.toDigits 10 n) : m = n := by
  rw [← value_toDigits decDigit_reads (by decide) m,same,value_toDigits decDigit_reads (by decide)]

/-- Different experiments are written to different files. -/
theorem path_injective (dir : String) : Function.Injective (Experiment.path dir) := by
  intro one other same
  have fields : (one.path dir).toList = (other.path dir).toList := congrArg String.toList same
  rw [path_fields,path_fields] at fields
  have behind := (List.cons.inj (List.append_cancel_left fields)).2
  -- read from the right: the statistic, the number of runs, the letters
  obtain ⟨behind,stats⟩ := last_unique '_' _ _ _ _ (stat_plain _ one.listed) (stat_plain _ other.listed) behind
  obtain ⟨behind,runs⟩ := last_unique '-' _ _ _ _ (digits_plain _) (digits_plain _) behind
  obtain ⟨behind,letters⟩ := last_unique '-' _ _ _ _ (letters_plain one) (letters_plain other)
    (List.append_cancel_right behind)
  have stat := getTypeStr_injective _ one.listed _ other.listed (String.toList_inj.mp stats)
  have testRuns := toDigits_injective _ _ runs
  have injectTo := String.toList_inj.mp letters
  have binary := String.toList_inj.mp (List.append_cancel_right behind)
  cases one
  cases other
  simp_all

theorem masked_listed : StatType.masked ∈ moufoplotStats := by decide

theorem rw_letters : ∀ c ∈ "rw".toList, c ∈ ['r','w','e','i','c','o'] := by
  have letters : ("rw".toList.all fun c => decide (c ∈ ['r','w','e','i','c','o'])) = true := by decide
  exact fun c member => of_decide_eq_true (List.all_eq_true.mp letters c member)

def zip : Experiment := ⟨"/bin/zip","rw",rw_letters,4,.masked,masked_listed⟩

def zipCopy : Experiment := { zip with binary := "/bin/zip_InjectTo-rw_TestRuns-4_Masked" }

example : zip.path "out" = "out//bin/zip_InjectTo-rw_TestRuns-4_Masked" ∧
    zipCopy.path "out" = "out//bin/zip_InjectTo-rw_TestRuns-4_Masked_InjectTo-rw_TestRuns-4_Masked" := by decide

section Dump

variable {ρ : Type} (opens : String → Bool) (showDouble : ρ → String) (options : Options) (object : Object ρ)

theorem mapM_paths (stats : List StatType) (files : List (String × String))
    (dumped : (stats.mapM fun stat => do
      if opens (filePath options stat) then return (filePath options stat,← object.getStr showDouble stat)
      else throw (.userDie ("Error opening file " ++ filePath options stat))) = Except.ok files) :
    files.map Prod.fst = stats.map (filePath options) := by
  induction stats generalizing files with
  | nil =>
    obtain rfl := Except.ok.inj dumped
    rfl
  | cons stat stats ih =>
    rw [List.mapM_cons] at dumped
    obtain ⟨file,first,later⟩ := except_bind_ok _ _ _ dumped
    obtain ⟨others,rest,same⟩ := except_bind_ok _ _ _ later
    obtain rfl := Except.ok.inj same
    have path : file.1 = filePath options stat := by
      split at first
      · obtain ⟨text,_,made⟩ := except_bind_ok _ _ _ first
        obtain rfl := Except.ok.inj made
        rfl
      · cases first
    rw [List.map_cons,List.map_cons,path,ih others rest]

theorem dumped_paths (files : List (String × String))
    (dumped : dumpToMoufoplot opens showDouble options object = .ok files) :
    files.map Prod.fst = moufoplotStats.map (filePath options) ∧ (files.map Prod.fst).Nodup := by
  have paths := mapM_paths opens showDouble options object moufoplotStats files dumped
  refine ⟨paths,?_⟩
  rw [paths]
  have distinct : moufoplotStats.Nodup := by decide
  refine distinct.map_on fun stat member stat' member' same => ?_
  have names : getTypeStr stat = getTypeStr stat' := by
    have texts := congrArg String.toList same
    simp only [filePath,String.toList_append] at texts
    exact String.toList_inj.mp (List.append_cancel_left texts)
  exact getTypeStr_injective stat member stat' member' names

end Dump

end Zofi.OutputNames
