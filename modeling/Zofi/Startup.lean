import Zofi.Campaign
import Zofi.CommandWords
import Zofi.Lib.Triple
import Zofi.Model.Startup

/-! What OptionsParser::init guarantees to the campaign behind it, for every command line. -/
namespace Zofi.Startup
open Sys Transitions Model.Utils Model.OptionsParser Model.Options Model.Startup Model.Outcomes Model.Threads
open Scheduler Campaign CommandWords

variable {ρ : Type}

def Typed : OptType → Value ρ → Prop
  | .int,.int value => -2^31 ≤ value ∧ value < 2^31
  | .unsigned,.unsigned value => value < 2^32
  | .unsignedLong,.unsignedLong value => value < 2^64
  | .bool,.bool _ | .chars,.chars _ | .string,.string _ | .double,.double _ | .words,.words _ => True
  | _,_ => False

def TypedStore (store : Store ρ) : Prop := ∀ opt : Opt, Typed opt.type (store opt).val

section Parse

variable (strtod : List Char → ρ × List Char)

theorem initial_typed : TypedStore (initial strtod) := by
  intro opt
  cases opt <;> simp [initial,Opt.initVal,Opt.type,Typed]

theorem strtoul_lt (text : List Char) : (strtoul text).1 < 2^64 := by
  unfold strtoul
  dsimp only
  split_ifs
  · exact Nat.two_pow_pos 64
  · exact Nat.sub_lt (Nat.two_pow_pos 64) Nat.one_pos
  · exact Nat.mod_lt _ (Nat.two_pow_pos 64)
  next small _ => exact Nat.not_le.mp small

theorem getValForStr_typed (str : String) (type : OptType) (value : Value ρ)
    (read : getValForStr strtod str type = .ok value) : Typed type value := by
  cases type <;> simp only [getValForStr] at read
  case int =>
    obtain ⟨n,_,rest⟩ := except_bind_ok _ _ _ read
    obtain rfl := Except.ok.inj rest
    have low := Int.le_bmod (x := n) (m := 2^32) (by omega)
    have high := Int.bmod_lt (x := n) (m := 2^32) (by omega)
    unfold Typed
    omega
  case unsigned =>
    obtain ⟨n,_,rest⟩ := except_bind_ok _ _ _ read
    obtain rfl := Except.ok.inj rest
    exact Nat.mod_lt _ (Nat.two_pow_pos 32)
  case unsignedLong =>
    obtain ⟨n,converted,rest⟩ := except_bind_ok _ _ _ read
    obtain rfl := Except.ok.inj rest
    have bound := strtoul_lt str.toList
    unfold strtoulSafe convertSafe at converted
    generalize strtoul str.toList = read at converted bound
    dsimp only at converted
    split_ifs at converted
    obtain rfl := Except.ok.inj converted
    exact bound
  case words => cases read
  case bool | double =>
    obtain ⟨_,_,rest⟩ := except_bind_ok _ _ _ read
    obtain rfl := Except.ok.inj rest
    trivial
  case chars | string =>
    obtain rfl := Except.ok.inj read
    trivial

section Kept

variable (P : Opt → Setting ρ → Prop)

def Kept (store : Store ρ) : Prop := ∀ opt, P opt (store opt)

theorem setValue_kept (opt : Opt) (value : Value ρ) (own : P opt ⟨value,true⟩) :
    Triple (fun _ => True) (Kept P) (setValue opt value) fun _ => Kept P := by
  apply Triple.modify
  intro store all other
  by_cases same : other = opt
  · subst same
    rw [Function.update_self]
    exact own
  · rw [Function.update_of_ne same]
    exact all other

theorem setValueFromStr_kept (item : Item) (converted : ∀ value, item.given strtod = .ok value → P item.opt ⟨value,true⟩) :
    Triple (fun _ => True) (Kept P) (setValueFromStr strtod item.opt item.text) fun _ => Kept P := by
  refine Triple.bind (Triple.lift (fun value store => P item.opt ⟨value,true⟩ ∧ Kept P store) _ ?_ ?_) ?_
  · intro store value all read
    exact ⟨converted value read,all⟩
  · intros
    trivial
  · intro value store both
    exact setValue_kept P item.opt value both.1 store both.2

variable (converted : ∀ (item : Item) value, item.given strtod = .ok value → P item.opt ⟨value,true⟩)
  (closing : ∀ words, P .args ⟨.words (some words),true⟩)

include converted closing in
theorem parseWords_kept (words : List String) :
    Triple (fun _ => True) (Kept P) (parseWords strtod words) fun _ => Kept P := by
  induction size : words.length using Nat.strongRecOn generalizing words with
  | _ n ih =>
    cases words with
    | nil => exact Triple.pure _ fun _ kept => kept
    | cons arg rest =>
      rw [parseWords]
      cases optionsMap.lookup arg with
      | none => exact Triple.throw _ fun _ _ => trivial
      | some opt =>
        simp only [List.length_cons] at size
        dsimp only
        split
        next args =>
          subst args
          exact setValue_kept P .args _ (closing rest)
        next inner =>
          split
          next takes =>
            cases rest with
            | nil => exact Triple.throw _ fun _ _ => trivial
            | cons strVal rest =>
              refine Triple.bind (setValueFromStr_kept strtod P (.value opt strVal takes inner) (converted _)) fun _ =>
                ih rest.length ?_ rest rfl
              simp only [List.length_cons] at size
              omega
          next switch =>
            refine Triple.bind (setValueFromStr_kept strtod P (.flag opt (by simpa using switch)) (converted _)) fun _ =>
              ih rest.length ?_ rest rfl
            omega

include converted closing in
theorem parse_kept (argv : List String) : Triple (fun _ => True) (Kept P) (parse strtod argv) fun _ store =>
    Kept P store ∧ sanityChecks (commandLine store) = .ok () ∧ helpMessages (commandLine store) = .ok () := by
  refine Triple.bind (parseWords_kept strtod P converted closing argv.tail) fun _ => Triple.bind Triple.get fun store => ?_
  refine Triple.bind (Triple.lift (fun _ now => now = store ∧ Kept P store ∧ sanityChecks (commandLine store) = .ok ())
    _ ?_ fun _ _ _ _ => trivial) fun _ => ?_
  · rintro now ⟨⟩ ⟨rfl,kept⟩ passed
    exact ⟨rfl,kept,passed⟩
  · refine Triple.lift _ _ ?_ fun _ _ _ _ => trivial
    rintro now ⟨⟩ ⟨rfl,kept,passed⟩ helped
    exact ⟨kept,passed,helped⟩

end Kept

theorem parse_typed (argv : List String) : Triple (fun _ => True) TypedStore (parse strtod argv) fun _ store =>
    TypedStore store ∧ sanityChecks (commandLine store) = .ok () ∧ helpMessages (commandLine store) = .ok () :=
  parse_kept strtod (fun opt setting => Typed opt.type setting.val)
    (fun item value read => getValForStr_typed strtod item.text item.opt.type value read) (fun _ => trivial) argv

end Parse

/-! init() -/

section Init

variable (machine : Machine)

theorem unsigned_typed (store : Store ρ) (typed : TypedStore store) (opt : Opt) (type : opt.type = .unsigned) :
    (store opt).val = .unsigned (unsignedOf store opt) ∧ unsignedOf store opt < 2^32 := by
  have own := typed opt
  rw [type] at own
  unfold unsignedOf
  cases value : (store opt).val <;> rw [value] at own <;> first | exact own.elim | exact ⟨rfl,own⟩

/-- What the rest of the program finds. -/
structure Ready (store : Store ρ) : Prop where
  typed : TypedStore store
  injection : sanityChecks (commandLine store) = .ok ()
  binary : ∃ path, binaryPath store = some path ∧ machine.fileExists path = true
  detection : intOf store .detectionExitCode ≤ 125
  jobs : unsignedOf store .jobs ≤ machine.hwThreads ∧ (0 < unsignedOf store .jobs ↔ 0 < machine.hwThreads)
  directory : ∀ dir, (store .outMoufoplotDir) = ⟨.chars (some dir),true⟩ → machine.fileExists dir = true
  injectionsPerRun : unsignedOf store .injectionsPerRun ≤ 1

theorem dieIf_iff (condition : Bool) (message : String) (store store' : Store ρ) :
    exec (dieIf condition message) store = (.ok (),store') ↔ condition = false ∧ store' = store := by
  constructor
  · intro ran
    obtain ⟨passed,rfl⟩ := lift_ok _ _ _ _ ran
    unfold userDieIf at passed
    cases condition with
    | true => cases passed
    | false => exact ⟨rfl,rfl⟩
  · rintro ⟨rfl,rfl⟩
    rfl

def limited (store : Store ρ) : Store ρ :=
  if unsignedOf store .jobs = 0 ∨ machine.hwThreads < unsignedOf store .jobs then
    Function.update store .jobs ⟨.unsigned machine.hwThreads,true⟩
  else store

theorem limitJobs_exec (store : Store ρ) : exec (limitJobs machine) store = (.ok (),limited machine store) := by
  unfold limitJobs limited setValue
  rw [exec_bind_of _ _ _ _ _ (exec_get store)]
  by_cases zero : unsignedOf store .jobs = 0
  · have set : unsignedOf (Function.update store .jobs ⟨.unsigned machine.hwThreads,true⟩) .jobs = machine.hwThreads := by
      simp [unsignedOf]
    simp only [zero,if_true,true_or]
    rw [exec_bind_of _ _ _ _ _ (exec_modify _ store),exec_bind_of _ _ _ _ _ (exec_get _)]
    simp [set]
  · simp only [zero,if_false,false_or]
    rw [exec_bind_of _ _ _ _ _ (exec_get store)]
    split <;> rfl

theorem limited_other (store : Store ρ) (opt : Opt) (other : opt ≠ .jobs) : limited machine store opt = store opt := by
  unfold limited
  split
  · exact Function.update_of_ne other _ _
  · rfl

theorem commandLine_same {store store' : Store ρ} (same : ∀ opt ≠ .jobs, store' opt = store opt) :
    commandLine store' = commandLine store := by
  simp only [commandLine,givenString,same .injectTo (by decide),same .forceInjectToReg (by decide),
    same .forceInjectToBit (by decide),same .dontInjectToLibs (by decide)]

theorem limited_limited (store : Store ρ) : limited machine (limited machine store) = limited machine store := by
  have jobs : unsignedOf (Function.update store .jobs ⟨.unsigned machine.hwThreads,true⟩) .jobs = machine.hwThreads := by
    simp [unsignedOf]
  unfold limited
  split
  · rw [jobs]
    split
    · exact Function.update_idem _ _ _
    · rfl
  · rfl

theorem limited_jobs (store : Store ρ) : unsignedOf (limited machine store) .jobs ≤ machine.hwThreads ∧
    (0 < unsignedOf (limited machine store) .jobs ↔ 0 < machine.hwThreads) := by
  unfold limited
  split
  · simp [unsignedOf]
  · omega

theorem limited_typed (store : Store ρ) (typed : TypedStore store) : TypedStore (limited machine store) := by
  intro opt
  by_cases jobs : opt = .jobs
  · subst jobs
    unfold limited
    split
    · rw [Function.update_self]
      exact machine.fits
    · exact typed .jobs
  · rw [limited_other machine store opt jobs]
    exact typed opt

structure Passes (store : Store ρ) : Prop where
  version : (store .version).isSet = false
  help : boolOf store .helpOption = false
  binary : ∃ path, binaryPath store = some path ∧ machine.fileExists path = true
  detection : intOf store .detectionExitCode ≤ 125
  directory : ∀ dir, store .outMoufoplotDir = ⟨.chars (some dir),true⟩ → machine.fileExists dir = true
  injectionsPerRun : unsignedOf store .injectionsPerRun ≤ 1

variable {machine} in
theorem Passes.same {store store' : Store ρ} (passes : Passes machine store) (same : ∀ opt ≠ .jobs, store' opt = store opt) :
    Passes machine store' where
  version := by
    rw [same .version (by decide)]
    exact passes.version
  help := by
    unfold boolOf
    rw [same .helpOption (by decide)]
    exact passes.help
  binary := by
    unfold binaryPath
    rw [same .binary (by decide)]
    exact passes.binary
  detection := by
    unfold intOf
    rw [same .detectionExitCode (by decide)]
    exact passes.detection
  directory := by
    rw [same .outMoufoplotDir (by decide)]
    exact passes.directory
  injectionsPerRun := by
    unfold unsignedOf
    rw [same .injectionsPerRun (by decide)]
    exact passes.injectionsPerRun

theorem checkDirectory_iff (store now now' : Store ρ) : exec (checkDirectory machine store) now = (.ok (),now') ↔
    now' = now ∧ ∀ dir, store .outMoufoplotDir = ⟨.chars (some dir),true⟩ → machine.fileExists dir = true := by
  unfold checkDirectory charsOf
  obtain ⟨val,isSet⟩ := store .outMoufoplotDir
  cases val with
  | chars value =>
    cases value with
    | none => simp [eq_comm (a := now)]
    | some dir =>
      simp only [dieIf_iff]
      cases isSet <;> simp [and_comm]
  | _ => simp [eq_comm (a := now)]

theorem init_iff (strtod : List Char → ρ × List Char) (argv : List String) (store store' : Store ρ) :
    exec (init machine strtod argv) store = (.ok true,store') ↔
      ∃ parsed, exec (parse strtod argv) store = (.ok (),parsed) ∧ Passes machine parsed ∧
        store' = limited machine parsed := by
  constructor
  · intro accepted
    obtain ⟨_,parsed,ran,rest⟩ := bind_ok _ _ _ _ _ accepted
    refine ⟨parsed,ran,?_⟩
    rw [exec_bind_of _ _ _ _ _ (exec_get parsed)] at rest
    split at rest
    · cases (pure_ok _ _ _ _ rest).1
    next version =>
      split at rest
      · cases (pure_ok _ _ _ _ rest).1
      next help =>
        split at rest
        · cases rest
        next path given =>
          obtain ⟨_,_,ran,rest⟩ := bind_ok _ _ _ _ _ rest
          obtain ⟨detection,rfl⟩ := (dieIf_iff _ _ _ _).mp ran
          rw [exec_bind_of _ _ _ _ _ (limitJobs_exec machine _)] at rest
          obtain ⟨_,_,ran,rest⟩ := bind_ok _ _ _ _ _ rest
          obtain ⟨rfl,directory⟩ := (checkDirectory_iff machine _ _ _).mp ran
          obtain ⟨_,_,ran,rest⟩ := bind_ok _ _ _ _ _ rest
          obtain ⟨injections,rfl⟩ := (dieIf_iff _ _ _ _).mp ran
          obtain ⟨_,_,ran,rest⟩ := bind_ok _ _ _ _ _ rest
          obtain ⟨there,rfl⟩ := (dieIf_iff _ _ _ _).mp ran
          obtain ⟨_,rfl⟩ := pure_ok _ _ _ _ rest
          refine ⟨⟨by simpa using version,by simpa using help,⟨path,given,by simpa using there⟩,?_,directory,
            by simpa using injections⟩,rfl⟩
          simp only [Bool.and_eq_false_iff,decide_eq_false_iff_not] at detection
          omega
  · rintro ⟨parsed,ran,⟨version,help,⟨path,given,there⟩,detection,directory,injections⟩,rfl⟩
    have low : (decide (0 < intOf parsed .detectionExitCode) && decide (125 < intOf parsed .detectionExitCode)) = false := by
      simp only [Bool.and_eq_false_iff,decide_eq_false_iff_not]
      omega
    unfold init
    rw [exec_bind_of _ _ _ _ _ ran,exec_bind_of _ _ _ _ _ (exec_get parsed),version,help,given]
    refine (exec_bind_of _ _ _ _ _ ((dieIf_iff _ _ _ _).mpr ⟨low,rfl⟩)).trans ?_
    refine (exec_bind_of _ _ _ _ _ (limitJobs_exec machine parsed)).trans ?_
    refine (exec_bind_of _ _ _ _ _ ((checkDirectory_iff machine _ _ _).mpr ⟨rfl,directory⟩)).trans ?_
    refine (exec_bind_of _ _ _ _ _ ((dieIf_iff _ _ _ _).mpr ⟨by simpa using injections,rfl⟩)).trans ?_
    exact exec_bind_of _ _ _ _ _ ((dieIf_iff _ _ _ _).mpr ⟨by simpa using there,rfl⟩)

theorem init_ready (strtod : List Char → ρ × List Char) (argv : List String) (store store' : Store ρ)
    (typed : TypedStore store) (accepted : exec (init machine strtod argv) store = (.ok true,store')) :
    Ready machine store' := by
  obtain ⟨parsed,ran,passes,rfl⟩ := (init_iff machine strtod argv store store').mp accepted
  obtain ⟨typed,passed,_⟩ := (parse_typed strtod argv).ok typed ran
  have others := limited_other machine parsed
  have line := commandLine_same others
  have checked := passes.same others
  exact ⟨limited_typed machine parsed typed,by rw [line,passed],checked.binary,checked.detection,
    limited_jobs machine parsed,checked.directory,checked.injectionsPerRun⟩

end Init

/-! The campaign of an accepted command line. -/

/-- Whatever the test jobs report and in which order they end, the scheduler can go on until it is through. -/
def GetsThrough (limit total : Nat) : Prop :=
  ∀ outcome : Nat → FtStatus, (∀ id < total, outcome id ≠ .none) → ∀ stats trace w,
    Run (Moves testJobScheduler (reports outcome) limit total) {results := stats} trace w → ¬ Finished total w →
      ∃ event w', Moves testJobScheduler (reports outcome) limit total w event w'

theorem no_room (total : Nat) (w w' : World FtStatus Statistics) (event : Event) (none : w.activeJobs = [])
    (childless : w.children = []) (outcome : Nat → JobEnd FtStatus) : ¬ Moves testJobScheduler outcome 0 total w event w' := by
  intro step
  unfold Moves at step
  generalize Except.ok w' = result at step
  cases step with
  | fork _ _ _ more room => exact room (by rw [none]; rfl)
  | wait child garbage blocks member =>
    rw [childless] at member
    cases member

theorem getsThrough_iff (limit total : Nat) (few : total < 2^32) : GetsThrough limit total ↔ 0 < limit ∨ total = 0 := by
  constructor
  · intro through
    by_contra neither
    obtain ⟨rfl,some⟩ : limit = 0 ∧ total ≠ 0 := by omega
    obtain ⟨event,w',step⟩ := through (fun _ => .masked) (by simp) .zero [] _ .nil fun ended => some ended.1.symm
    exact no_room total _ w' event rfl rfl _ step
  · intro either outcome real stats trace w run going
    rcases either with one | none
    · exact (test_campaign (reports outcome) limit total few one
        (fun id low => reported_reports outcome id (real id low)) stats trace w run).2.1.progress going
    · subst none
      obtain ⟨active,orderly⟩ := run_orderly testJobScheduler (reports outcome) limit 0 few stats trace w run
      have first : w.id = 0 := Nat.le_zero.mp orderly.upTo
      have once := orderly.once.length_eq
      rw [first,List.range_zero,List.length_nil,List.length_append,List.length_map] at once
      refine absurd ⟨first,?_⟩ going
      rw [orderly.shape.records,List.length_map]
      omega

/-- Every command line that init() lets through: the values it leaves, and when its test runs get to
their end. -/
theorem accepted_campaign (machine : Machine) (strtod : List Char → ρ × List Char) (argv : List String) (store : Store ρ)
    (accepted : exec (init machine strtod argv) (initial strtod) = (.ok true,store)) :
    Ready machine store ∧ ∃ jobs testRuns, (store .jobs).val = .unsigned jobs ∧
      (store .testRuns).val = .unsigned testRuns ∧ (GetsThrough jobs testRuns ↔ 0 < machine.hwThreads ∨ testRuns = 0) := by
  have ready := init_ready machine strtod argv _ store (initial_typed strtod) accepted
  obtain ⟨jobs,_⟩ := unsigned_typed store ready.typed .jobs rfl
  obtain ⟨testRuns,few⟩ := unsigned_typed store ready.typed .testRuns rfl
  refine ⟨ready,_,_,jobs,testRuns,?_⟩
  rw [getsThrough_iff _ _ few,ready.jobs.2]

/-! A command line that is accepted. -/

section Listing

variable (strtod : List Char → ρ × List Char)

theorem one_fits : 1 < 2^32 := by decide

def oneThread : Machine := ⟨1,one_fits,fun file => file == "/bin/ls"⟩

def lsArgv : List String :=
  ["zofi","-bin","/bin/ls","-j","0","-force-inject-to-reg","rax","-force-inject-to-bit","0","-out-csv","out.csv"]

def lsParsed : Store ρ :=
  [(Opt.binary,Value.chars (some "/bin/ls")),(.jobs,.unsigned 0),(.forceInjectToReg,.string "rax"),
    (.forceInjectToBit,.string "0"),(.outCsvFile,.chars (some "out.csv"))].foldl
      (fun store given => Function.update store given.1 ⟨given.2,true⟩) (initial strtod)

def lsStore : Store ρ := Function.update (lsParsed strtod) .jobs ⟨.unsigned 1,true⟩

theorem lsArgv_parsed : exec (parse strtod lsArgv) (initial strtod) = (.ok (),lsParsed strtod) := by
  let items : List Item := [.value .binary "/bin/ls" rfl (by decide),.value .jobs "0" rfl (by decide),
    .value .forceInjectToReg "rax" rfl (by decide),.value .forceInjectToBit "0" rfl (by decide),
    .value .outCsvFile "out.csv" rfl (by decide)]
  have numeric : ∀ item ∈ items, ∃ val, item.given strtod = .ok val := by
    simp only [items,List.forall_mem_cons,List.not_mem_nil,false_implies,implies_true,and_true]
    exact ⟨⟨_,rfl⟩,⟨_,rfl⟩,⟨_,rfl⟩,⟨_,rfl⟩,⟨_,rfl⟩⟩
  have words : exec (parseWords strtod (lineOf items none)) (initial strtod) = (.ok (),lsParsed strtod) :=
    (parseWords_items items _ _ numeric).trans (parseWords_closing none _)
  refine (exec_parse "zofi" (lineOf items none) (lsParsed strtod) words).trans ?_
  have line : commandLine (lsParsed strtod) = {forceInjectToReg := some "rax",forceInjectToBit := some "0"} := rfl
  rw [line]
  exact congrArg (·,lsParsed strtod) (by decide +kernel)

theorem lsArgv_init : exec (init oneThread strtod lsArgv) (initial strtod) = (.ok true,lsStore strtod) :=
  (init_iff _ _ _ _ _).mpr ⟨lsParsed strtod,lsArgv_parsed strtod,
    ⟨rfl,rfl,⟨"/bin/ls",rfl,rfl⟩,(by decide : (0 : Int) ≤ 125),nofun,le_rfl⟩,rfl⟩

end Listing

theorem lsArgv_accepted : Ready oneThread (lsStore asWritten) ∧
    ∃ jobs testRuns, (lsStore asWritten .jobs).val = .unsigned jobs ∧ (lsStore asWritten .testRuns).val = .unsigned testRuns ∧
      (GetsThrough jobs testRuns ↔ 0 < 1 ∨ testRuns = 0) :=
  accepted_campaign oneThread asWritten lsArgv _ (lsArgv_init asWritten)

end Zofi.Startup
