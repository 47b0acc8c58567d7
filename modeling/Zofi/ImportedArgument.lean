import Zofi.DescribedEnds
import Zofi.Lib.Separators

/-! Which strings -set-orig-exit-state accepts, and what of them reaches the arrays that sscanf()
fills. -/
namespace Zofi.ImportedArgument
open Numerals Separators WrittenNumbers Model.Utils Model.WaitStatus Model.AddrSpace Model.TestRun Model.ExitState

def Behind (stop : Char) (text rest : List Char) : Prop :=
  ∃ run, text = run ++ stop :: rest ∧ run ≠ [] ∧ stop ∉ run

/-- Every field that the scan comes to is shorter than its width. -/
def Contained : List (Nat × Char) → List Char → Prop
  | [],_ => True
  | (size,stop) :: conversions,text =>
    (text.takeWhile (· ≠ stop)).length < size ∧ ∀ rest, Behind stop text rest → Contained conversions rest

def Splits : List (Nat × Char) → List Char → List (List Char) → List Char → Prop
  | [],text,runs,rest => runs = [] ∧ text = rest
  | (_,stop) :: conversions,text,runs,rest =>
    ∃ run behind others, text = run ++ stop :: behind ∧ run ≠ [] ∧ stop ∉ run ∧ runs = run :: others ∧
      Splits conversions behind others rest

theorem behind_unique (stop : Char) (text rest rest' : List Char) (one : Behind stop text rest)
    (other : Behind stop text rest') : rest = rest' := by
  obtain ⟨run,rfl,_,plain⟩ := one
  obtain ⟨run',same,_,plain'⟩ := other
  exact (first_unique stop run rest run' rest' plain plain' same).2

theorem scanSet_short (size : Nat) (stop : Char) (text : List Char)
    (short : (text.takeWhile (· ≠ stop)).length < size) :
    (∃ run rest, text = run ++ stop :: rest ∧ run ≠ [] ∧ stop ∉ run ∧ run.length < size ∧
      scanSet size stop text = some (run,stop :: rest)) ∨
    (∀ rest, ¬ Behind stop text rest) ∧
      (scanSet size stop text = none ∨ ∃ run, run.length < size ∧ scanSet size stop text = some (run,[])) := by
  have plain := takeWhile_plain stop text
  have scanned : scanSet size stop text = if (text.takeWhile (· ≠ stop)).isEmpty then none
      else some (text.takeWhile (· ≠ stop),text.drop (text.takeWhile (· ≠ stop)).length) := by
    unfold scanSet
    rw [List.take_of_length_le short.le]
  by_cases empty : text.takeWhile (· ≠ stop) = []
  · rw [if_pos (by rw [empty]; rfl)] at scanned
    refine .inr ⟨?_,.inl scanned⟩
    rintro rest ⟨run,rfl,occupied,inner⟩
    rw [takeWhile_field stop run rest inner] at empty
    exact occupied empty
  · rw [if_neg (by simpa using empty)] at scanned
    rcases drop_field stop text with ended | ⟨rest,dropped,split⟩
    · rw [ended] at scanned
      refine .inr ⟨?_,.inr ⟨_,short,scanned⟩⟩
      rintro rest ⟨run,rfl,_,inner⟩
      rw [takeWhile_field stop run rest inner] at ended
      simp at ended
    · rw [dropped] at scanned
      exact .inl ⟨_,rest,split,empty,plain,short,scanned⟩

theorem scanSet_full (size : Nat) (stop : Char) (text : List Char) (positive : 0 < size)
    (full : ¬ (text.takeWhile (· ≠ stop)).length < size) :
    ∃ run rest, scanSet size stop text = some (run,rest) ∧ run.length = size := by
  have length : ((text.takeWhile (· ≠ stop)).take size).length = size := List.length_take_of_le (by omega)
  have occupied : ((text.takeWhile (· ≠ stop)).take size).isEmpty = false := by
    rw [List.isEmpty_eq_false_iff]
    exact List.ne_nil_of_length_pos (by omega)
  exact ⟨_,_,by rw [scanSet,occupied]; rfl,length⟩

theorem stores_cons (size : Nat) (stop : Char) (conversions : List (Nat × Char)) (text run rest : List Char)
    (matched : scanSet size stop text = some (run,rest)) :
    stores ((size,stop) :: conversions) text =
      (size,run) :: ((scanChar stop rest).map (stores conversions)).getD [] := by
  rw [stores,matched]

theorem stores_fit (conversions : List (Nat × Char)) (positive : ∀ conversion ∈ conversions, 0 < conversion.1)
    (text : List Char) :
    (∀ stored ∈ stores conversions text, stored.2.length + 1 ≤ stored.1) ↔ Contained conversions text := by
  induction conversions generalizing text with
  | nil => simp [stores,Contained]
  | cons conversion conversions ih =>
    obtain ⟨size,stop⟩ := conversion
    obtain ⟨room,others⟩ := List.forall_mem_cons.mp positive
    unfold Contained
    by_cases short : (text.takeWhile (· ≠ stop)).length < size
    · rw [and_iff_right short]
      rcases scanSet_short size stop text short with ⟨run,rest,split,occupied,plain,fits,matched⟩ | ⟨none,matched⟩
      · have behind : Behind stop text rest := ⟨run,split,occupied,plain⟩
        rw [stores_cons _ _ _ _ _ _ matched,List.forall_mem_cons,and_iff_right (Nat.succ_le_of_lt fits),
          DescribedEnds.scanChar_head,Option.map_some,Option.getD_some,ih others]
        constructor
        · intro contained other found
          rw [behind_unique stop text other rest found behind]
          exact contained
        · intro contained
          exact contained rest behind
      · refine iff_of_true ?_ fun rest behind => absurd behind (none rest)
        rcases matched with failed | ⟨run,fits,matched⟩
        · rw [stores,failed]
          exact List.forall_mem_nil _
        · rw [stores_cons _ _ _ _ _ _ matched]
          exact List.forall_mem_cons.mpr ⟨Nat.succ_le_of_lt fits,List.forall_mem_nil _⟩
    · obtain ⟨run,rest,matched,full⟩ := scanSet_full size stop text room short
      rw [stores_cons _ _ _ _ _ _ matched,List.forall_mem_cons]
      refine iff_of_false ?_ fun contained => short contained.1
      rintro ⟨fits,_⟩
      exact absurd full (Nat.ne_of_lt fits)

theorem format_positive : ∀ conversion ∈ format, 0 < conversion.1 := by decide

theorem stores_fit_iff (str : String) :
    (∀ stored ∈ stores format str.toList, stored.2.length + 1 ≤ stored.1) ↔ Contained format str.toList :=
  stores_fit format format_positive str.toList

theorem terminated_overflows : ¬ ∀ stored ∈ stores format "/dev/null,/dev/null,terminated:1".toList,
    stored.2.length + 1 ≤ stored.1 := by
  decide

theorem scanBuffer_eq (size : Nat) (stop : Char) (text : List Char) : scanBuffer size stop text =
    ((scanSet size stop text).elim (.ok none) fun scanned => if scanned.1.length = size
      then .error (.undefined "write behind the buffer") else .ok (some scanned)) := by
  unfold scanBuffer scanSet
  by_cases empty : ((text.takeWhile (· ≠ stop)).take size).isEmpty = true
  · simp only [empty,if_true,Option.elim_none]
  · simp only [empty,if_false,Bool.false_eq_true,Option.elim_some]

def scanFields : List (Nat × Char) → List Char → OptionT (Except Halt) (List (List Char) × List Char)
  | [],text => return ([],text)
  | (size,stop) :: conversions,text => do
    let (run,rest) ← OptionT.mk (scanBuffer size stop text)
    let rest ← OptionT.mk (pure (scanChar stop rest))
    let (runs,rest) ← scanFields conversions rest
    return (run :: runs,rest)

section Binding

variable {α β : Type} (next : α → OptionT (Except Halt) β)

theorem bind_some (value : α) (result : Except Halt (Option α)) (given : result = .ok (some value)) :
    (OptionT.mk result >>= next).run = (next value).run := by
  subst given
  rfl

theorem bind_none (result : Except Halt (Option α)) (given : result = .ok none) :
    (OptionT.mk result >>= next).run = .ok none := by
  subst given
  rfl

theorem bind_error (halt : Halt) (result : Except Halt (Option α)) (given : result = .error halt) :
    (OptionT.mk result >>= next).run = .error halt := by
  subst given
  rfl

end Binding

theorem scanFields_field (size : Nat) (stop : Char) (conversions : List (Nat × Char)) (text run rest : List Char)
    (read : scanBuffer size stop text = .ok (some (run,stop :: rest))) :
    (scanFields ((size,stop) :: conversions) text).run =
      (scanFields conversions rest >>= fun scanned => pure (run :: scanned.1,scanned.2)).run := by
  rw [scanFields,bind_some _ _ _ read]
  exact bind_some _ _ _ (congrArg Except.ok (DescribedEnds.scanChar_head stop rest))

theorem scanFields_contained (conversions : List (Nat × Char)) (text : List Char) (contained : Contained conversions text) :
    (∃ runs rest, Splits conversions text runs rest ∧ (scanFields conversions text).run = .ok (some (runs,rest))) ∨
    (∀ runs rest, ¬ Splits conversions text runs rest) ∧ (scanFields conversions text).run = .ok none := by
  induction conversions generalizing text with
  | nil => exact .inl ⟨[],text,⟨rfl,rfl⟩,rfl⟩
  | cons conversion conversions ih =>
    obtain ⟨size,stop⟩ := conversion
    obtain ⟨short,later⟩ := contained
    have buffer := scanBuffer_eq size stop text
    rcases scanSet_short size stop text short with ⟨run,rest,split,occupied,plain,fits,matched⟩ | ⟨none,matched⟩
    · rw [matched,Option.elim_some,if_neg (Nat.ne_of_lt fits)] at buffer
      rw [scanFields_field _ _ _ _ _ _ buffer]
      rcases ih rest (later rest ⟨run,split,occupied,plain⟩) with ⟨runs,behind,inner,scanned⟩ | ⟨broken,scanned⟩
      · exact .inl ⟨run :: runs,behind,⟨run,rest,runs,split,occupied,plain,rfl,inner⟩,bind_some _ _ _ scanned⟩
      · refine .inr ⟨?_,bind_none _ _ scanned⟩
        rintro runs behind ⟨run',rest',others,split',occupied',plain',rfl,inner⟩
        rw [behind_unique stop text rest' rest ⟨run',split',occupied',plain'⟩ ⟨run,split,occupied,plain⟩] at inner
        exact broken others behind inner
    · refine .inr ⟨?_,?_⟩
      · rintro runs rest ⟨run,behind,others,split,occupied,plain,_⟩
        exact none behind ⟨run,split,occupied,plain⟩
      · rw [scanFields]
        rcases matched with failed | ⟨run,fits,matched⟩
        · rw [failed] at buffer
          exact bind_none _ _ buffer
        · rw [matched,Option.elim_some,if_neg (Nat.ne_of_lt fits)] at buffer
          rw [bind_some _ _ _ buffer]
          exact bind_none _ _ rfl

theorem scanFields_overflow (conversions : List (Nat × Char)) (positive : ∀ conversion ∈ conversions, 0 < conversion.1)
    (text : List Char) (overflows : ¬ Contained conversions text) :
    (scanFields conversions text).run = .error (.undefined "write behind the buffer") := by
  induction conversions generalizing text with
  | nil => exact absurd trivial overflows
  | cons conversion conversions ih =>
    obtain ⟨size,stop⟩ := conversion
    obtain ⟨room,others⟩ := List.forall_mem_cons.mp positive
    have buffer := scanBuffer_eq size stop text
    by_cases short : (text.takeWhile (· ≠ stop)).length < size
    · obtain ⟨rest,⟨run,split,occupied,plain⟩,inner⟩ : ∃ rest, Behind stop text rest ∧ ¬ Contained conversions rest := by
        simpa [Contained] using fun kept => overflows ⟨short,kept⟩
      have whole : text.takeWhile (· ≠ stop) = run := by rw [split,takeWhile_field stop run rest plain]
      rw [whole] at short
      have read := DescribedEnds.scanBuffer_run size stop run rest occupied plain short
      rw [← split] at read
      rw [scanFields_field _ _ _ _ _ _ read]
      exact bind_error _ _ _ (ih others rest inner)
    · obtain ⟨run,rest,matched,full⟩ := scanSet_full size stop text room short
      rw [matched,Option.elim_some,if_pos full] at buffer
      rw [scanFields]
      exact bind_error _ _ _ buffer

theorem scanArgument_fields (text : List Char) : (scanArgument text).run = (scanFields format text >>= fun scanned =>
    OptionT.mk (scanInt scanned.2) >>= fun value =>
      match scanned.1 with
      | [stdoutFile,stderrFile,exitTypeStr] => pure (stdoutFile,stderrFile,exitTypeStr,value)
      | _ => OptionT.mk (.ok none)).run := by
  simp only [scanArgument,format,scanFields,bind_assoc,pure_bind]

structure Reads (text stdoutFile stderrFile exitTypeStr rest : List Char) : Prop where
  split : text = stdoutFile ++ ',' :: (stderrFile ++ ',' :: (exitTypeStr ++ ':' :: rest))
  stdout : stdoutFile ≠ [] ∧ ',' ∉ stdoutFile
  stderr : stderrFile ≠ [] ∧ ',' ∉ stderrFile
  type : exitTypeStr ≠ [] ∧ ':' ∉ exitTypeStr

theorem splits_format (text : List Char) (runs : List (List Char)) (rest : List Char) :
    Splits format text runs rest ↔
      ∃ stdoutFile stderrFile exitTypeStr, runs = [stdoutFile,stderrFile,exitTypeStr] ∧
        Reads text stdoutFile stderrFile exitTypeStr rest := by
  constructor
  · rintro ⟨a,_,_,rfl,some_a,plain_a,rfl,b,_,_,rfl,some_b,plain_b,rfl,c,_,_,rfl,some_c,plain_c,rfl,rfl,rfl⟩
    exact ⟨a,b,c,rfl,rfl,⟨some_a,plain_a⟩,⟨some_b,plain_b⟩,⟨some_c,plain_c⟩⟩
  · rintro ⟨a,b,c,rfl,rfl,⟨some_a,plain_a⟩,⟨some_b,plain_b⟩,⟨some_c,plain_c⟩⟩
    exact ⟨a,_,_,rfl,some_a,plain_a,rfl,b,_,_,rfl,some_b,plain_b,rfl,c,_,_,rfl,some_c,plain_c,rfl,rfl,rfl⟩

theorem Reads.unique {text a b c rest a' b' c' rest' : List Char} (one : Reads text a b c rest)
    (other : Reads text a' b' c' rest') : a = a' ∧ b = b' ∧ c = c' ∧ rest = rest' := by
  have same := one.split.symm.trans other.split
  obtain ⟨stdout,same⟩ := first_unique ',' _ _ _ _ one.stdout.2 other.stdout.2 same
  obtain ⟨stderr,same⟩ := first_unique ',' _ _ _ _ one.stderr.2 other.stderr.2 same
  obtain ⟨type,same⟩ := first_unique ':' _ _ _ _ one.type.2 other.type.2 same
  exact ⟨stdout,stderr,type,same⟩

theorem Reads.contained_iff {text stdoutFile stderrFile exitTypeStr rest : List Char}
    (reads : Reads text stdoutFile stderrFile exitTypeStr rest) : Contained format text ↔
      stdoutFile.length < fnameSz ∧ stderrFile.length < fnameSz ∧ exitTypeStr.length < maxTySz := by
  have field {stop : Char} {run behind : List Char} (occupied : run ≠ []) (plain : stop ∉ run) (size : Nat)
      (conversions : List (Nat × Char)) : Contained ((size,stop) :: conversions) (run ++ stop :: behind) ↔
        run.length < size ∧ Contained conversions behind := by
    rw [Contained,takeWhile_field stop run behind plain]
    refine and_congr_right fun _ => ⟨fun later => later behind ⟨run,rfl,occupied,plain⟩,fun contained other found => ?_⟩
    rw [behind_unique stop _ other behind found ⟨run,rfl,occupied,plain⟩]
    exact contained
  rw [reads.split,format,field reads.stdout.1 reads.stdout.2,field reads.stderr.1 reads.stderr.2,
    field reads.type.1 reads.type.2,Contained,and_true]

theorem scanArgument_contained (text : List Char) (contained : Contained format text) :
    (∃ stdoutFile stderrFile exitTypeStr rest, Reads text stdoutFile stderrFile exitTypeStr rest ∧
      (scanArgument text).run =
        (scanInt rest).map (Option.map fun value => (stdoutFile,stderrFile,exitTypeStr,value))) ∨
    (∀ stdoutFile stderrFile exitTypeStr rest, ¬ Reads text stdoutFile stderrFile exitTypeStr rest) ∧
      (scanArgument text).run = .ok none := by
  rw [scanArgument_fields]
  rcases scanFields_contained format text contained with ⟨runs,rest,splits,scanned⟩ | ⟨broken,scanned⟩
  · obtain ⟨stdoutFile,stderrFile,exitTypeStr,rfl,reads⟩ := (splits_format text runs rest).mp splits
    refine .inl ⟨stdoutFile,stderrFile,exitTypeStr,rest,reads,?_⟩
    refine (bind_some _ _ _ scanned).trans ?_
    cases converted : scanInt rest with
    | error halt => rfl
    | ok value => cases value <;> rfl
  · refine .inr ⟨fun a b c rest reads => broken _ _ ((splits_format text _ rest).mpr ⟨a,b,c,rfl,reads⟩),?_⟩
    exact bind_none _ _ scanned

theorem scanArgument_overflow (text : List Char) (overflows : ¬ Contained format text) :
    (scanArgument text).run = .error (.undefined "write behind the buffer") := by
  rw [scanArgument_fields]
  exact bind_error _ _ _ (scanFields_overflow format format_positive text overflows)

def FitsInt (n : Int) : Prop := -2^31 ≤ n ∧ n < 2^31

theorem scanInt_number {text blanks number left : List Char} {n : Int} (read : Number text blanks number left n) :
    (FitsInt n ∧ scanInt text = .ok (some n)) ∨
    (¬ FitsInt n ∧ scanInt text = .error (.undefined "the value does not fit an int")) := by
  have shorter : ¬ left.length = text.length := by
    obtain ⟨c,rest,visible,_⟩ := decimal_visible _ _ read.decimal
    rw [read.split,visible]
    simp only [List.length_append,List.length_cons]
    omega
  have scanned : scanLong text = some (max longMin (min longMax n),left) := by
    rw [scanLong,strtol_number read]
    exact if_neg shorter
  rw [scanInt,scanned]
  dsimp only
  by_cases fits : FitsInt n
  · have clamped : max longMin (min longMax n) = n := by
      unfold FitsInt at fits
      unfold longMin longMax
      omega
    rw [clamped]
    exact .inl ⟨fits,if_pos fits⟩
  · refine .inr ⟨fits,if_neg ?_⟩
    unfold FitsInt at fits
    unfold longMin longMax
    omega

theorem scanInt_none (text : List Char) (missing : ∀ blanks number left n, ¬ Number text blanks number left n) :
    scanInt text = .ok none := by
  have stayed : (strtol text).2 = text := by
    by_contra moved
    obtain ⟨blanks,number,left,n,read⟩ := number_of_strtol text moved
    exact missing blanks number left n read
  have failed : scanLong text = none := if_pos (congrArg List.length stayed)
  rw [scanInt,failed]

theorem scanArgument_reads (text : List Char) (contained : Contained format text)
    {stdoutFile stderrFile exitTypeStr rest : List Char} (reads : Reads text stdoutFile stderrFile exitTypeStr rest) :
    (scanArgument text).run = (scanInt rest).map (Option.map fun value => (stdoutFile,stderrFile,exitTypeStr,value)) := by
  rcases scanArgument_contained text contained with ⟨a,b,c,behind,other,scanned⟩ | ⟨broken,_⟩
  · obtain ⟨rfl,rfl,rfl,rfl⟩ := reads.unique other
    exact scanned
  · exact absurd reads (broken _ _ _ _)

theorem scan_outside (text : List Char) (contained : Contained format text)
    {stdoutFile stderrFile exitTypeStr rest blanks number left : List Char} {n : Int}
    (reads : Reads text stdoutFile stderrFile exitTypeStr rest) (read : Number rest blanks number left n)
    (outside : ¬ FitsInt n) :
    (scanArgument text).run = .error (.undefined "the value does not fit an int") := by
  have scanned := scanArgument_reads text contained reads
  rcases scanInt_number read with ⟨fits,_⟩ | ⟨_,converted⟩
  · exact absurd fits outside
  · rw [converted] at scanned
    exact scanned

theorem decimal_whole {text blanks number left : List Char} {n m : Int} (decimal : Decimal text m)
    (read : Number text blanks number left n) :
    blanks = [] ∧ left = [] ∧ max longMin (min longMax m) = max longMin (min longMax n) := by
  have same := (strtol_number decimal.whole).symm.trans (strtol_number read)
  refine ⟨?_,(congrArg Prod.snd same).symm,congrArg Prod.fst same⟩
  obtain ⟨c,rest,visible,solid⟩ := decimal_visible text m decimal
  cases blanks with
  | nil => rfl
  | cons d blanks =>
    have first : c = d := (List.cons.inj (visible.symm.trans read.split)).1
    have space := read.spaces d List.mem_cons_self
    rw [first,space] at solid
    cases solid

def spellings : ExitType → List String
  | .exited => ["exited","EXITED","Exited"]
  | .signaled => ["signaled","SIGNALED","Signaled"]
  | _ => []

theorem importState_spelled (typeStr : String) (type : ExitType) (v : Int) (spelled : typeStr ∈ spellings type) :
    importState typeStr v = .ok ⟨type,toUnsigned v⟩ := by
  cases type with
  | exited => exact if_pos (by simpa [spellings] using spelled)
  | signaled =>
    have words : typeStr = "signaled" ∨ typeStr = "SIGNALED" ∨ typeStr = "Signaled" := by
      simpa [spellings] using spelled
    rcases words with rfl | rfl | rfl <;> rfl
  | invalid => exact absurd spelled List.not_mem_nil
  | stopped => exact absurd spelled List.not_mem_nil

theorem importState_other (typeStr : String) (v : Int) (unspelled : ∀ type, typeStr ∉ spellings type) :
    importState typeStr v = .error (.die ("Invalid Exit Type:" ++ typeStr)) := by
  have exited := unspelled .exited
  have signaled := unspelled .signaled
  simp only [spellings,List.mem_cons,List.not_mem_nil,or_false] at exited signaled
  rw [importState,if_neg exited,if_neg signaled]

theorem spelled_fits (exitTypeStr : List Char) (type : ExitType) (spelled : String.ofList exitTypeStr ∈ spellings type) :
    exitTypeStr.length < maxTySz := by
  have short : ∀ type word, word ∈ spellings type → word.toList.length < maxTySz := by
    intro type
    cases type with
    | exited => decide
    | signaled => decide
    | invalid => exact List.forall_mem_nil _
    | stopped => exact List.forall_mem_nil _
  have bound := short type _ spelled
  rwa [String.toList_ofList] at bound

section Import

variable (fileExists : String → Bool) (exState : ExecutionExitState) (str : String)

theorem import_error (errno : Int) (halt : Halt) (scanned : (scanArgument str.toList).run = .error halt) :
    importArgument errno fileExists exState str = .error halt := by
  unfold importArgument
  rw [scanned]
  rfl

theorem import_none (errno : Int) (scanned : (scanArgument str.toList).run = .ok none) :
    importArgument errno fileExists exState str = .error (.userDie ("Bad exit state argument: " ++ str ++ ".")) := by
  unfold importArgument
  rw [scanned]
  rfl

theorem import_errno (errno : Int) (left : errno ≠ 0) (fields : Option (List Char × List Char × List Char × Int))
    (scanned : (scanArgument str.toList).run = .ok fields) :
    importArgument errno fileExists exState str = .error (.userDie ("Bad exit state argument: " ++ str ++ ".")) := by
  unfold importArgument
  rw [scanned]
  cases fields with
  | none => rfl
  | some _ => simp [left,Option.filter,bind,Except.bind]

theorem import_some (stdoutFile stderrFile exitTypeStr : List Char) (value : Int)
    (scanned : (scanArgument str.toList).run = .ok (some (stdoutFile,stderrFile,exitTypeStr,value))) :
    importArgument 0 fileExists exState str = (do
      checkFile fileExists (String.ofList stdoutFile)
      checkFile fileExists (String.ofList stderrFile)
      return {exState with
        stdoutFile := String.ofList stdoutFile
        stderrFile := String.ofList stderrFile
        state := ← importState (String.ofList exitTypeStr) value}) := by
  unfold importArgument
  rw [scanned]
  rfl

def imported (exState : ExecutionExitState) (stdoutFile stderrFile : List Char) (type : ExitType) (value : Int) :
    ExecutionExitState :=
  {exState with
    state := ⟨type,toUnsigned value⟩
    stdoutFile := String.ofList stdoutFile
    stderrFile := String.ofList stderrFile }

/-- What import() accepts: the files exist, the names fit, the type is spelled right, and a number that fits an int
follows, behind blanks and with anything behind it. -/
def Readable (stdoutFile stderrFile : List Char) (type : ExitType) (value : Int) : Prop :=
  ∃ exitTypeStr rest blanks number left, Reads str.toList stdoutFile stderrFile exitTypeStr rest ∧
    (stdoutFile.length < fnameSz ∧ stderrFile.length < fnameSz) ∧ String.ofList exitTypeStr ∈ spellings type ∧
    (Number rest blanks number left value ∧ FitsInt value) ∧
    fileExists (String.ofList stdoutFile) = true ∧ fileExists (String.ofList stderrFile) = true

theorem import_readable (stdoutFile stderrFile : List Char) (type : ExitType) (value : Int)
    (readable : Readable fileExists str stdoutFile stderrFile type value) :
    importArgument 0 fileExists exState str = .ok (imported exState stdoutFile stderrFile type value) := by
  obtain ⟨exitTypeStr,rest,blanks,number,left,reads,fits,spelled,⟨read,int⟩,present⟩ := readable
  have converted : scanInt rest = .ok (some value) := by
    rcases scanInt_number read with ⟨_,converted⟩ | ⟨outside,_⟩
    · exact converted
    · exact absurd int outside
  have scanned := DescribedEnds.scanArgument_parts stdoutFile stderrFile exitTypeStr rest value
    ⟨reads.stdout.1,reads.stdout.2,fits.1⟩ ⟨reads.stderr.1,reads.stderr.2,fits.2⟩
    ⟨reads.type.1,reads.type.2,spelled_fits exitTypeStr type spelled⟩ converted
  rw [← reads.split] at scanned
  rw [import_some fileExists exState str _ _ _ _ scanned,importState_spelled _ type value spelled]
  simp [checkFile,present,bind,Except.bind,pure,Except.pure,imported]

theorem import_outside (contained : Contained format str.toList)
    {stdoutFile stderrFile exitTypeStr rest blanks number left : List Char} {n : Int}
    (reads : Reads str.toList stdoutFile stderrFile exitTypeStr rest) (read : Number rest blanks number left n)
    (outside : ¬ FitsInt n) :
    importArgument 0 fileExists exState str = .error (.undefined "the value does not fit an int") :=
  import_error fileExists exState str 0 _ (scan_outside str.toList contained reads read outside)

theorem import_unreadable (contained : Contained format str.toList)
    (unreadable : ∀ stdoutFile stderrFile type value, ¬ Readable fileExists str stdoutFile stderrFile type value) :
    (∃ message, importArgument 0 fileExists exState str = .error (.userDie message) ∨
      importArgument 0 fileExists exState str = .error (.die message)) ∨
    ∃ stdoutFile stderrFile exitTypeStr rest blanks number left n,
      Reads str.toList stdoutFile stderrFile exitTypeStr rest ∧ Number rest blanks number left n ∧ ¬ FitsInt n := by
  rcases scanArgument_contained str.toList contained with ⟨stdoutFile,stderrFile,exitTypeStr,rest,reads,scanned⟩ |
    ⟨_,scanned⟩
  · by_cases written : ∃ blanks number left n, Number rest blanks number left n
    · obtain ⟨blanks,number,left,n,read⟩ := written
      rcases scanInt_number read with ⟨fits,converted⟩ | ⟨outside,_⟩
      · rw [converted] at scanned
        rw [import_some fileExists exState str _ _ _ _ scanned]
        by_cases stdout : fileExists (String.ofList stdoutFile) = true
        · by_cases stderr : fileExists (String.ofList stderrFile) = true
          · have unspelled (type : ExitType) : String.ofList exitTypeStr ∉ spellings type := by
              intro spelled
              have lengths := reads.contained_iff.mp contained
              exact unreadable stdoutFile stderrFile type n ⟨exitTypeStr,rest,blanks,number,left,reads,
                ⟨lengths.1,lengths.2.1⟩,spelled,⟨read,fits⟩,stdout,stderr⟩
            rw [importState_other _ n unspelled]
            exact .inl ⟨_,.inr (by simp [checkFile,stdout,stderr,bind,Except.bind]; rfl)⟩
          · exact .inl ⟨_,.inl (by simp [checkFile,stdout,stderr,bind,Except.bind]; rfl)⟩
        · exact .inl ⟨_,.inl (by simp [checkFile,stdout,bind,Except.bind]; rfl)⟩
      · exact .inr ⟨stdoutFile,stderrFile,exitTypeStr,rest,blanks,number,left,n,reads,read,outside⟩
    · have missing := scanInt_none rest fun blanks number left n read => written ⟨blanks,number,left,n,read⟩
      rw [missing] at scanned
      exact .inl ⟨_,.inl (import_none fileExists exState str 0 scanned)⟩
  · exact .inl ⟨_,.inl (import_none fileExists exState str 0 scanned)⟩

theorem import_overflow (errno : Int) (overflows : ¬ Contained format str.toList) :
    importArgument errno fileExists exState str = .error (.undefined "write behind the buffer") :=
  import_error fileExists exState str errno _ (scanArgument_overflow str.toList overflows)

theorem accepted_readable (result : ExecutionExitState) (accepted : importArgument 0 fileExists exState str = .ok result) :
    ∃ stdoutFile stderrFile type value, Readable fileExists str stdoutFile stderrFile type value ∧
      result = imported exState stdoutFile stderrFile type value := by
  by_cases readable : ∃ stdoutFile stderrFile type value, Readable fileExists str stdoutFile stderrFile type value
  · obtain ⟨stdoutFile,stderrFile,type,value,readable⟩ := readable
    refine ⟨stdoutFile,stderrFile,type,value,readable,?_⟩
    exact Except.ok.inj (accepted.symm.trans (import_readable fileExists exState str _ _ _ _ readable))
  · by_cases contained : Contained format str.toList
    · rcases import_unreadable fileExists exState str contained fun a b type value some => readable ⟨a,b,type,value,some⟩
        with ⟨message,refused | refused⟩ | ⟨_,_,_,_,_,_,_,_,reads,read,outside⟩
      · rw [refused] at accepted
        cases accepted
      · rw [refused] at accepted
        cases accepted
      · rw [import_outside fileExists exState str contained reads read outside] at accepted
        cases accepted
    · rw [import_overflow fileExists exState str 0 contained] at accepted
      cases accepted

end Import

/-- The whole of the text is P1,P2,T:V. -/
def Grammar (text stdoutFile stderrFile : List Char) (type : ExitType) (value : Int) : Prop :=
  ∃ exitTypeStr number, Reads text stdoutFile stderrFile exitTypeStr number ∧
    (stdoutFile.length < fnameSz ∧ stderrFile.length < fnameSz) ∧ String.ofList exitTypeStr ∈ spellings type ∧
    Decimal number value ∧ FitsInt value

def AcceptsGrammar (fileExists : String → Bool) (exState : ExecutionExitState) (str : String) : Prop :=
  (∀ result, importArgument 0 fileExists exState str = .ok result ↔
    ∃ stdoutFile stderrFile type value, Grammar str.toList stdoutFile stderrFile type value ∧
      result = imported exState stdoutFile stderrFile type value) ∧
  ((∃ result, importArgument 0 fileExists exState str = .ok result) ∨
    ∃ message, importArgument 0 fileExists exState str = .error (.userDie message) ∨
      importArgument 0 fileExists exState str = .error (.die message))

/-- The number fits an int, and behind an accepted type there is nothing else. -/
def NumberOnly (text : List Char) : Prop :=
  ∀ stdoutFile stderrFile exitTypeStr rest blanks number left n, Reads text stdoutFile stderrFile exitTypeStr rest →
    Number rest blanks number left n →
      FitsInt n ∧ ((∃ type, String.ofList exitTypeStr ∈ spellings type) → blanks = [] ∧ left = [])

def Present (fileExists : String → Bool) (text : List Char) : Prop :=
  ∀ stdoutFile stderrFile rest, text = stdoutFile ++ ',' :: (stderrFile ++ ',' :: rest) → ',' ∉ stdoutFile →
    ',' ∉ stderrFile → fileExists (String.ofList stdoutFile) = true ∧ fileExists (String.ofList stderrFile) = true

section Grammar

variable {fileExists : String → Bool} {exState : ExecutionExitState} {str : String}

theorem Grammar.readable {stdoutFile stderrFile : List Char} {type : ExitType} {value : Int}
    (derived : Grammar str.toList stdoutFile stderrFile type value) (present : Present fileExists str.toList) :
    Readable fileExists str stdoutFile stderrFile type value := by
  obtain ⟨exitTypeStr,number,reads,lengths,spelled,decimal,fits⟩ := derived
  exact ⟨exitTypeStr,number,[],number,[],reads,lengths,spelled,⟨decimal.whole,fits⟩,
    present _ _ _ reads.split reads.stdout.2 reads.stderr.2⟩

theorem grammar_of_readable {stdoutFile stderrFile : List Char} {type : ExitType} {value : Int}
    (readable : Readable fileExists str stdoutFile stderrFile type value) (only : NumberOnly str.toList) :
    Grammar str.toList stdoutFile stderrFile type value := by
  obtain ⟨exitTypeStr,rest,blanks,number,left,reads,lengths,spelled,⟨read,fits⟩,_⟩ := readable
  obtain ⟨rfl,rfl⟩ := (only _ _ _ _ _ _ _ _ reads read).2 ⟨type,spelled⟩
  have whole : rest = number := by rw [read.split,List.nil_append,List.append_nil]
  exact ⟨exitTypeStr,rest,reads,lengths,spelled,whole ▸ read.decimal,fits⟩

/-- import() accepts the grammar, and nothing else, exactly on these strings. -/
theorem acceptsGrammar_iff (present : Present fileExists str.toList) :
    AcceptsGrammar fileExists exState str ↔ Contained format str.toList ∧ NumberOnly str.toList := by
  constructor
  · rintro ⟨exact_,decided⟩
    have defined (message : String) : importArgument 0 fileExists exState str ≠ .error (.undefined message) := by
      intro failed
      rw [failed] at decided
      rcases decided with ⟨_,same⟩ | ⟨_,same | same⟩ <;> cases same
    have contained : Contained format str.toList := by
      by_contra overflows
      exact defined _ (import_overflow fileExists exState str 0 overflows)
    refine ⟨contained,fun stdoutFile stderrFile exitTypeStr rest blanks number left n reads read => ?_⟩
    have fits : FitsInt n := by
      by_contra outside
      exact defined _ (import_outside fileExists exState str contained reads read outside)
    refine ⟨fits,?_⟩
    rintro ⟨type,spelled⟩
    have lengths := reads.contained_iff.mp contained
    have accepted := import_readable fileExists exState str stdoutFile stderrFile type n
      ⟨exitTypeStr,rest,blanks,number,left,reads,⟨lengths.1,lengths.2.1⟩,spelled,⟨read,fits⟩,
        present _ _ _ reads.split reads.stdout.2 reads.stderr.2⟩
    obtain ⟨_,_,_,_,⟨_,_,derived,_,_,decimal,_⟩,_⟩ := (exact_ _).mp accepted
    obtain ⟨_,_,_,rfl⟩ := reads.unique derived
    have whole := decimal_whole decimal read
    exact ⟨whole.1,whole.2.1⟩
  · rintro ⟨contained,only⟩
    refine ⟨fun result => ⟨fun accepted => ?_,?_⟩,?_⟩
    · obtain ⟨stdoutFile,stderrFile,type,value,readable,same⟩ :=
        accepted_readable fileExists exState str result accepted
      exact ⟨stdoutFile,stderrFile,type,value,grammar_of_readable readable only,same⟩
    · rintro ⟨stdoutFile,stderrFile,type,value,derived,rfl⟩
      exact import_readable fileExists exState str _ _ _ _ (derived.readable present)
    · by_cases readable : ∃ stdoutFile stderrFile type value, Readable fileExists str stdoutFile stderrFile type value
      · obtain ⟨stdoutFile,stderrFile,type,value,readable⟩ := readable
        exact .inl ⟨_,import_readable fileExists exState str _ _ _ _ readable⟩
      · rcases import_unreadable fileExists exState str contained fun a b type value some => readable ⟨a,b,type,value,some⟩
          with refused | ⟨_,_,_,_,_,_,_,_,reads,read,outside⟩
        · exact .inr refused
        · exact absurd (only _ _ _ _ _ _ _ _ reads read).1 outside

theorem reads_devNull (exitTypeStr rest : List Char) (type : exitTypeStr ≠ [] ∧ ':' ∉ exitTypeStr) :
    Reads ("/dev/null,/dev/null,".toList ++ (exitTypeStr ++ ':' :: rest)) "/dev/null".toList "/dev/null".toList
      exitTypeStr rest :=
  ⟨rfl,by decide,by decide,type⟩

theorem devNull_accepted : AcceptsGrammar (fun _ => true) {} "/dev/null,/dev/null,exited:66" := by
  have reads := reads_devNull "exited".toList "66".toList (by decide)
  have decimal : Decimal "66".toList 66 := ⟨.without,"66".toList,rfl,by decide,List.all_eq_true.mp rfl,rfl⟩
  apply (acceptsGrammar_iff fun _ _ _ _ _ _ => ⟨rfl,rfl⟩).mpr
  refine ⟨reads.contained_iff.mpr (by decide),?_⟩
  intro _ _ _ _ blanks number left n other read
  obtain ⟨_,_,_,rfl⟩ := reads.unique other
  obtain ⟨rfl,rfl,same⟩ := decimal_whole decimal read
  refine ⟨?_,fun _ => ⟨rfl,rfl⟩⟩
  unfold longMin longMax at same
  unfold FitsInt
  omega

theorem junk_accepted : ¬ AcceptsGrammar (fun _ => true) {} "/dev/null,/dev/null,exited:66junk" := by
  rintro ⟨exact_,_⟩
  have accepted : importArgument 0 (fun _ => true) {} "/dev/null,/dev/null,exited:66junk" =
      .ok {state := ⟨.exited,66⟩,stdoutFile := "/dev/null",stderrFile := "/dev/null"} := by decide
  obtain ⟨_,_,_,_,⟨_,_,derived,_,_,⟨sign,digits,split,_,all,_⟩,_⟩,_⟩ := (exact_ _).mp accepted
  obtain ⟨_,_,_,rfl⟩ := (reads_devNull "exited".toList "66junk".toList (by decide)).unique derived
  have last : 'k' ∈ digits := by
    have member : 'k' ∈ sign.text ++ digits := by
      rw [← split]
      decide
    rcases List.mem_append.mp member with inSign | inDigits
    · cases sign <;> simp [Sign.text] at inSign
    · exact inDigits
  have digit := all 'k' last
  simp at digit

/-- What a call makes of its argument, the state or a refusal; `none` where the behaviour is undefined. -/
def decision : Except Halt ExecutionExitState → Option (Option ExecutionExitState)
  | .ok imported => some (some imported)
  | .error (.undefined _) => none
  | .error _ => some none

def SameDecision (fileExists : String → Bool) (exState : ExecutionExitState) (str : String) (errno errno' : Int) : Prop :=
  ∃ made, decision (importArgument errno fileExists exState str) = some made ∧
    decision (importArgument errno' fileExists exState str) = some made

/-- Nothing is written behind an array, and no number is converted that does not fit an int. -/
def Defined (text : List Char) : Prop :=
  Contained format text ∧ ∀ stdoutFile stderrFile exitTypeStr rest blanks number left n,
    Reads text stdoutFile stderrFile exitTypeStr rest → Number rest blanks number left n → FitsInt n

theorem scan_undefined (text : List Char) (undefined_ : ¬ Defined text) :
    ∃ message, (scanArgument text).run = .error (.undefined message) := by
  by_cases contained : Contained format text
  · obtain ⟨stdoutFile,stderrFile,exitTypeStr,rest,blanks,number,left,n,reads,read,outside⟩ :
        ∃ stdoutFile stderrFile exitTypeStr rest blanks number left n,
          Reads text stdoutFile stderrFile exitTypeStr rest ∧ Number rest blanks number left n ∧ ¬ FitsInt n := by
      by_contra none
      exact undefined_ ⟨contained,fun a b c rest blanks number left n reads read =>
        by_contra fun outside => none ⟨a,b,c,rest,blanks,number,left,n,reads,read,outside⟩⟩
    exact ⟨_,scan_outside text contained reads read outside⟩
  · exact ⟨_,scanArgument_overflow text contained⟩

theorem scan_defined (text : List Char) (defined : Defined text) : ∃ fields, (scanArgument text).run = .ok fields := by
  rcases scanArgument_contained text defined.1 with ⟨stdoutFile,stderrFile,exitTypeStr,rest,reads,scanned⟩ | ⟨_,scanned⟩
  · by_cases written : ∃ blanks number left n, Number rest blanks number left n
    · obtain ⟨blanks,number,left,n,read⟩ := written
      rcases scanInt_number read with ⟨_,converted⟩ | ⟨outside,_⟩
      · rw [converted] at scanned
        exact ⟨_,scanned⟩
      · exact absurd (defined.2 _ _ _ _ _ _ _ _ reads read) outside
    · rw [scanInt_none rest fun blanks number left n read => written ⟨blanks,number,left,n,read⟩] at scanned
      exact ⟨_,scanned⟩
  · exact ⟨none,scanned⟩

theorem decision_undefined (errno : Int) (undefined_ : ¬ Defined str.toList) :
    decision (importArgument errno fileExists exState str) = none := by
  obtain ⟨message,scanned⟩ := scan_undefined str.toList undefined_
  rw [import_error fileExists exState str errno _ scanned]
  rfl

theorem decision_left (errno : Int) (left : errno ≠ 0) (defined : Defined str.toList) :
    decision (importArgument errno fileExists exState str) = some none := by
  obtain ⟨fields,scanned⟩ := scan_defined str.toList defined
  rw [import_errno fileExists exState str errno left fields scanned]
  rfl

theorem decision_cleared (defined : Defined str.toList) :
    ∃ made, decision (importArgument 0 fileExists exState str) = some made ∧
      (made = none ↔ ∀ stdoutFile stderrFile type value, ¬ Readable fileExists str stdoutFile stderrFile type value) := by
  by_cases readable : ∃ stdoutFile stderrFile type value, Readable fileExists str stdoutFile stderrFile type value
  · obtain ⟨stdoutFile,stderrFile,type,value,readable⟩ := readable
    rw [import_readable fileExists exState str _ _ _ _ readable]
    refine ⟨_,rfl,iff_of_false (by simp) fun unreadable => ?_⟩
    exact unreadable stdoutFile stderrFile type value readable
  · have unreadable : ∀ stdoutFile stderrFile type value,
        ¬ Readable fileExists str stdoutFile stderrFile type value :=
      fun a b type value some => readable ⟨a,b,type,value,some⟩
    refine ⟨none,?_,iff_of_true rfl unreadable⟩
    rcases import_unreadable fileExists exState str defined.1 unreadable
      with ⟨message,refused | refused⟩ | ⟨_,_,_,_,_,_,_,_,reads,read,outside⟩
    · rw [refused]
      rfl
    · rw [refused]
      rfl
    · exact absurd (defined.2 _ _ _ _ _ _ _ _ reads read) outside

/-- Two calls decide alike exactly if they are defined, and find errno cleared alike where it matters. -/
theorem sameDecision_iff (errno errno' : Int) : SameDecision fileExists exState str errno errno' ↔
    Defined str.toList ∧ ((errno = 0 ↔ errno' = 0) ∨
      ∀ stdoutFile stderrFile type value, ¬ Readable fileExists str stdoutFile stderrFile type value) := by
  unfold SameDecision
  by_cases defined : Defined str.toList
  · obtain ⟨made,cleared,refuses⟩ := @decision_cleared fileExists exState str defined
    rw [and_iff_right defined,← refuses]
    by_cases clear : errno = 0 <;> by_cases clear' : errno' = 0
    · subst clear clear'
      exact iff_of_true ⟨made,cleared,cleared⟩ (.inl Iff.rfl)
    · subst clear
      rw [cleared,decision_left errno' clear' defined]
      simp [clear',eq_comm]
    · subst clear'
      rw [cleared,decision_left errno clear defined]
      simp [clear]
    · rw [decision_left errno clear defined,decision_left errno' clear' defined]
      simp [clear,clear']
  · rw [decision_undefined errno defined]
    simp [defined]

theorem notty_refused : ¬ SameDecision (fun _ => true) {} "/dev/null,/dev/null,exited:66" 0 25 := by
  rintro ⟨made,cleared,left⟩
  have accepted : decision (importArgument 0 (fun _ => true) {} "/dev/null,/dev/null,exited:66") =
      some (some {state := ⟨.exited,66⟩,stdoutFile := "/dev/null",stderrFile := "/dev/null"}) := by decide
  have refused : decision (importArgument 25 (fun _ => true) {} "/dev/null,/dev/null,exited:66") = some none := by decide
  obtain rfl := Option.some.inj (left.symm.trans refused)
  cases accepted.symm.trans cleared

end Grammar

end Zofi.ImportedArgument
