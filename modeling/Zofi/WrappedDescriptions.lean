import Zofi.Lib.Numerals
import Zofi.Model.Options
import Zofi.Model.Printing

/-! The list of the options fits 80 columns: what its wrapping loop has printed after any number
of rounds, and for which descriptions it comes to its end. -/
namespace Zofi.WrappedDescriptions
open Sys Streams Transitions Numerals Model.Utils Model.Printing

/-- Where a description may be split; its terminator is such a place. -/
def splits (text : CString) (idx : Nat) : Bool := isLineSplitCandidate (text.val.getD idx '\x00')

theorem charAt_inside (text : CString) (idx : Nat) (inside : idx ≤ text.val.length) :
    text.charAt idx = .ok (text.val.getD idx '\x00') := by
  rcases Nat.lt_or_eq_of_le inside with inside | rfl
  · rw [CString.charAt,List.getD_eq_getElem?_getD,List.getElem?_eq_getElem inside]
    rfl
  · rw [CString.charAt,List.getD_eq_getElem?_getD,List.getElem?_eq_none le_rfl,if_pos rfl]
    rfl

/-- A split of the next `width` characters: behind the last candidate of them, if there is one. -/
structure Split (text : CString) (width printed length : Nat) : Prop where
  within : length ≤ width
  inside : printed + length ≤ text.val.length + 1
  candidate : 0 < length → splits text (printed + length - 1) = true
  last : ∀ idx, printed + length ≤ idx → idx < printed + width → splits text idx = false

theorem substrLen_split (text : CString) (printed width : Nat) (inside : printed + width ≤ text.val.length + 1)
    (small : printed + width ≤ 2^32) :
    ∃ length, substrLen text printed width = .ok length ∧ Split text width printed length := by
  induction width with
  | zero => exact ⟨0,rfl,le_rfl,inside,by omega,by omega⟩
  | succ lastSpaceIdx ih =>
    have unwrapped : (printed + lastSpaceIdx) % 2^32 = printed + lastSpaceIdx := Nat.mod_eq_of_lt (by omega)
    have read := charAt_inside text (printed + lastSpaceIdx) (by omega)
    by_cases candidate : splits text (printed + lastSpaceIdx) = true
    · refine ⟨lastSpaceIdx + 1,?_,le_rfl,inside,fun _ => candidate,by omega⟩
      rw [substrLen,unwrapped,read]
      exact if_pos candidate
    · obtain ⟨length,found,split⟩ := ih (by omega) (by omega)
      refine ⟨length,?_,Nat.le_succ_of_le split.within,split.inside,split.candidate,?_⟩
      · rw [substrLen,unwrapped,read,← found]
        exact if_neg candidate
      · intro idx behind before
        rcases Nat.lt_or_eq_of_le (Nat.le_of_lt_succ before) with before | rfl
        · exact split.last idx behind before
        · exact Bool.eq_false_iff.mpr candidate

theorem copied_terminated (text : List Char) (printed length : Nat) (inside : printed + length ≤ text.length + 1) :
    (List.range length).map (fun i => text.getD (printed + i) '\x00') =
      ((text ++ ['\x00']).drop printed).take length := by
  apply List.ext_getElem
  · simp only [List.length_map,List.length_range,List.length_take,List.length_drop,List.length_append,
      List.length_singleton]
    omega
  · intro i before _
    rw [List.length_map,List.length_range] at before
    rw [List.getElem_map,List.getElem_range,List.getElem_take,List.getElem_drop,List.getElem_append]
    split
    · rename_i inside
      rw [List.getD_eq_getElem?_getD,List.getElem?_eq_getElem inside,Option.getD_some]
    · rename_i behind
      rw [List.getD_eq_getElem?_getD,List.getElem?_eq_none (by omega),List.getElem_singleton,Option.getD_none]

/-- The terminator is copied with the last piece and not printed. -/
theorem copied_piece (text : CString) (printed length : Nat) (before : printed ≤ text.val.length) :
    (((text.val ++ ['\x00']).drop printed).take length).takeWhile (· ≠ '\x00') =
      (text.val.drop printed).take length := by
  rw [List.drop_append_of_le_length before,List.take_append]
  apply takeWhile_run
  · intro c member
    have plain : c ≠ '\x00' := by
      rintro rfl
      exact text.property (List.mem_of_mem_drop (List.mem_of_mem_take member))
    exact decide_eq_true plain
  · intro c head
    have terminator := List.mem_of_mem_take (List.mem_of_mem_head? head)
    simpa using terminator

theorem setwLeft_length (width : Nat) (text : List Char) : (setwLeft width text).length = max width text.length := by
  rw [setwLeft,List.length_append,List.length_replicate]
  omega

theorem maxSubstrLen_short (maxFlagW : Nat) (short : maxFlagW < 36) : maxSubstrLen maxFlagW = 76 - maxFlagW := by
  rw [maxSubstrLen]
  omega

def lineAt (maxFlagW : Nat) (option : OptionEntry) (printed length : Nat) : Line :=
  ⟨setwLeft maxFlagW (if printed = 0 then option.flag.val else [' ']),
    if printed = 0 then " : ".toList else "   ".toList,(option.description.val.drop printed).take length⟩

theorem descrLen_bounded (text : CString) (bounded : text.val.length < 2^32) : descrLen text = text.val.length :=
  Nat.mod_eq_of_lt bounded

theorem descrLen_le (text : CString) : descrLen text ≤ text.val.length := Nat.mod_le _ _

theorem descrLen_lt (text : CString) : descrLen text < 2^32 := Nat.mod_lt _ (by decide)

abbrev SplitAt (maxFlagW : Nat) (text : CString) (printed length : Nat) : Prop :=
  Split text (min (76 - maxFlagW) (descrLen text - printed + 1)) printed length

theorem SplitAt.inside {maxFlagW : Nat} {text : CString} {printed length : Nat} (split : SplitAt maxFlagW text printed length)
    (before : printed < descrLen text) : printed + length ≤ descrLen text + 1 := by
  have within := Split.within split
  omega

theorem Split.small {text : CString} {width printed length : Nat} (split : Split text width printed length)
    (bounded : text.val.length + 1 < 2^32) : (printed + length) % 2^32 = printed + length :=
  Nat.mod_eq_of_lt (split.inside.trans_lt bounded)

theorem printLine_split (maxFlagW : Nat) (option : OptionEntry) (printed : Nat) (short : maxFlagW < 36)
    (before : printed < descrLen option.description) :
    ∃ length, printLine maxFlagW option printed = .ok (lineAt maxFlagW option printed length,length) ∧
      SplitAt maxFlagW option.description printed length := by
  have whole := descrLen_le option.description
  have counted := descrLen_lt option.description
  obtain ⟨length,found,split⟩ := substrLen_split option.description printed
    (min (76 - maxFlagW) (descrLen option.description - printed + 1)) (by omega) (by omega)
  have inside := split.inside
  have within := split.within
  have copied := mapM_of_pure (fun i => option.description.charAt (printed + i))
    (fun i => option.description.val.getD (printed + i) '\x00') (List.range length)
    (fun i member => charAt_inside _ _ (by rw [List.mem_range] at member; omega))
  rw [copied_terminated _ _ _ inside] at copied
  have width : (if 76 - maxFlagW - 1 ≤ descrLen option.description - printed then 76 - maxFlagW - 1
      else descrLen option.description - printed) + 1 =
      min (76 - maxFlagW) (descrLen option.description - printed + 1) := by
    split
    · omega
    · omega
  refine ⟨length,?_,split⟩
  rw [printLine,maxSubstrLen_short maxFlagW short]
  dsimp only
  rw [width,assert,if_pos (decide_eq_true (by omega)),found]
  simp only [bind,Except.bind]
  rw [copied]
  simp only [pure,Except.pure]
  rw [if_neg (by omega),copied_piece _ _ _ (before.le.trans whole)]
  rfl

theorem printRound_counted (maxFlagW : Nat) (option : OptionEntry) (printed : Printed) (short : maxFlagW < 36)
    (before : printed.substrLen < descrLen option.description) :
    ∃ length, printRound maxFlagW option printed = .inr ⟨(printed.substrLen + length) % 2^32,
        printed.lines ++ [lineAt maxFlagW option printed.substrLen length]⟩ ∧
      SplitAt maxFlagW option.description printed.substrLen length := by
  obtain ⟨length,ran,split⟩ := printLine_split maxFlagW option printed.substrLen short before
  refine ⟨length,?_,split⟩
  rw [printRound,if_pos before,ran]

theorem printRound_behind (maxFlagW : Nat) (option : OptionEntry) (printed : Printed)
    (behind : descrLen option.description ≤ printed.substrLen) :
    printRound maxFlagW option printed = .inl (.ok printed.lines) := by
  rw [printRound,if_neg (by omega)]

theorem printRound_next (maxFlagW : Nat) (option : OptionEntry) (printed : Printed) (short : maxFlagW < 36)
    (before : printed.substrLen < option.description.val.length) (bounded : option.description.val.length < 2^32) :
    ∃ length, printRound maxFlagW option printed = .inr ⟨(printed.substrLen + length) % 2^32,
        printed.lines ++ [lineAt maxFlagW option printed.substrLen length]⟩ ∧
      Split option.description (min (76 - maxFlagW) (option.description.val.length - printed.substrLen + 1))
        printed.substrLen length := by
  have counted := printRound_counted maxFlagW option printed short
  simp only [SplitAt,descrLen_bounded _ bounded] at counted
  exact counted before

theorem printRound_last (maxFlagW : Nat) (option : OptionEntry) (printed : Printed)
    (behind : option.description.val.length ≤ printed.substrLen) (bounded : option.description.val.length < 2^32) :
    printRound maxFlagW option printed = .inl (.ok printed.lines) :=
  printRound_behind maxFlagW option printed ((descrLen_bounded _ bounded).le.trans behind)

theorem goes_counted (maxFlagW : Nat) (option : OptionEntry) (printed next : Printed) (short : maxFlagW < 36)
    (goes : printRound maxFlagW option printed = .inr next) :
    ∃ length, printed.substrLen < descrLen option.description ∧ next = ⟨(printed.substrLen + length) % 2^32,
        printed.lines ++ [lineAt maxFlagW option printed.substrLen length]⟩ ∧
      SplitAt maxFlagW option.description printed.substrLen length := by
  rcases Nat.lt_or_ge printed.substrLen (descrLen option.description) with before | behind
  · obtain ⟨length,ran,split⟩ := printRound_counted maxFlagW option printed short before
    rw [ran] at goes
    exact ⟨length,before,(Sum.inr.inj goes).symm,split⟩
  · rw [printRound_behind maxFlagW option printed behind] at goes
    cases goes

theorem goes_cases (maxFlagW : Nat) (option : OptionEntry) (printed next : Printed) (short : maxFlagW < 36)
    (bounded : option.description.val.length < 2^32) (goes : printRound maxFlagW option printed = .inr next) :
    ∃ length, next = ⟨(printed.substrLen + length) % 2^32,
        printed.lines ++ [lineAt maxFlagW option printed.substrLen length]⟩ ∧
      Split option.description (min (76 - maxFlagW) (option.description.val.length - printed.substrLen + 1))
        printed.substrLen length := by
  obtain ⟨length,_,same,split⟩ := goes_counted maxFlagW option printed next short goes
  rw [SplitAt,descrLen_bounded _ bounded] at split
  exact ⟨length,same,split⟩

/-- The continuation lines need a column for their blank. -/
def columns (maxFlagW : Nat) : Nat := if maxFlagW = 0 then 81 else 80

theorem lineAt_fits (maxFlagW printed length : Nat) (option : OptionEntry) (short : maxFlagW < 36)
    (flag : option.flag.val.length ≤ maxFlagW) (within : length ≤ 76 - maxFlagW) :
    (lineAt maxFlagW option printed length).text.length ≤ columns maxFlagW := by
  have separator : (if printed = 0 then " : ".toList else "   ".toList).length = 3 := by
    split
    · rfl
    · rfl
  have column : (if printed = 0 then option.flag.val else [' ']).length ≤ max maxFlagW 1 := by
    split
    · exact flag.trans (Nat.le_max_left _ _)
    · exact Nat.le_max_right _ _
  have piece : ((option.description.val.drop printed).take length).length ≤ length := List.length_take_le _ _
  have room : columns maxFlagW = max maxFlagW 1 + (80 - maxFlagW) := by
    rw [columns]
    split
    · omega
    · omega
  simp only [lineAt,Line.text,List.length_cons,List.length_append,setwLeft_length,separator,room]
  omega

def PrintedSoFar (option : OptionEntry) (printed : Printed) : Prop :=
  printed.lines.flatMap Line.piece = option.description.val.take printed.substrLen

theorem PrintedSoFar.next (maxFlagW : Nat) (option : OptionEntry) (printed : Printed)
    (soFar : PrintedSoFar option printed) (length : Nat) :
    (printed.lines ++ [lineAt maxFlagW option printed.substrLen length]).flatMap Line.piece =
      option.description.val.take (printed.substrLen + length) := by
  rw [List.flatMap_append,soFar,List.take_add]
  simp [lineAt]

theorem maxFlagW_le_iff (options : List OptionEntry) (width : Nat) :
    maxFlagW options ≤ width ↔ ∀ option ∈ options, option.flag.val.length ≤ width := by
  have fold : ∀ (options : List OptionEntry) (start : Nat),
      options.foldl (fun width option => max width option.flag.val.length) start ≤ width ↔
        start ≤ width ∧ ∀ option ∈ options, option.flag.val.length ≤ width := by
    intro options
    induction options with
    | nil => simp
    | cons option options ih =>
      intro start
      rw [List.foldl_cons,ih,max_le_iff,List.forall_mem_cons,and_assoc]
  rw [maxFlagW,fold]
  exact and_iff_right (Nat.zero_le _)

theorem le_maxFlagW (options : List OptionEntry) (option : OptionEntry) (member : option ∈ options) :
    option.flag.val.length ≤ maxFlagW options :=
  (maxFlagW_le_iff options _).mp le_rfl option member

theorem printedSoFar_run (maxFlagW : Nat) (option : OptionEntry) (short : maxFlagW < 36)
    (bounded : option.description.val.length + 1 < 2^32) (rounds : List Unit) (printed : Printed)
    (run : Run (Goes (printRound maxFlagW option)) {} rounds printed) : PrintedSoFar option printed := by
  have start : PrintedSoFar option {} := rfl
  apply Run.invariant (fun _ => PrintedSoFar option) start _ run
  intro rounds printed round next soFar goes
  obtain ⟨length,rfl,split⟩ := goes_cases maxFlagW option printed next short (by omega) goes
  rw [split.small bounded]
  exact soFar.next maxFlagW option printed length

theorem columns_run (maxFlagW : Nat) (option : OptionEntry) (short : maxFlagW < 36)
    (flag : option.flag.val.length ≤ maxFlagW) (bounded : option.description.val.length < 2^32)
    (rounds : List Unit) (printed : Printed) (run : Run (Goes (printRound maxFlagW option)) {} rounds printed) :
    ∀ line ∈ printed.lines, line.text.length ≤ columns maxFlagW := by
  apply Run.invariant (fun _ printed => ∀ line ∈ printed.lines, line.text.length ≤ columns maxFlagW) (by simp) _ run
  intro rounds printed round next fits goes
  obtain ⟨length,rfl,split⟩ := goes_cases maxFlagW option printed next short bounded goes
  intro line member
  rcases List.mem_append.mp member with earlier | last
  · exact fits line earlier
  · rw [List.mem_singleton] at last
    subst last
    exact lineAt_fits maxFlagW _ length option short flag (split.within.trans (Nat.min_le_left _ _))

structure Wrapped (maxFlagW width : Nat) (option : OptionEntry) (printed : Printed) : Prop where
  pieces : printed.lines.flatMap Line.piece <+: option.description.val
  fits : ∀ line ∈ printed.lines, line.text.length ≤ width
  defined : ∀ halt, printRound maxFlagW option printed ≠ .inl (.error halt)
  whole : ∀ lines, printRound maxFlagW option printed = .inl (.ok lines) →
    lines = printed.lines ∧ lines.flatMap Line.piece = option.description.val

theorem wrapped_run (options : List OptionEntry) (option : OptionEntry) (member : option ∈ options)
    (short : maxFlagW options < 36) (bounded : option.description.val.length + 1 < 2^32) (rounds : List Unit)
    (printed : Printed) (run : Run (Goes (printRound (maxFlagW options) option)) {} rounds printed) :
    Wrapped (maxFlagW options) (columns (maxFlagW options)) option printed := by
  have soFar := printedSoFar_run _ option short bounded rounds printed run
  have fits := columns_run _ option short (le_maxFlagW options option member) (by omega) rounds printed run
  have pieces : printed.lines.flatMap Line.piece <+: option.description.val := by
    rw [soFar]
    exact List.take_prefix _ _
  rcases Nat.lt_or_ge printed.substrLen option.description.val.length with before | behind
  · obtain ⟨length,ran,_⟩ := printRound_next _ option printed short before (by omega)
    refine ⟨pieces,fits,?_,?_⟩
    · intro halt stops
      cases ran.symm.trans stops
    · intro lines stops
      cases ran.symm.trans stops
  · have ran := printRound_last (maxFlagW options) option printed behind (by omega)
    refine ⟨pieces,fits,?_,?_⟩
    · intro halt stops
      cases ran.symm.trans stops
    · intro lines stops
      cases ran.symm.trans stops
      exact ⟨rfl,by rw [soFar,List.take_of_length_le behind]⟩

def forceInjectToBit : OptionEntry := ⟨⟨"-force-inject-to-bit".toList,by decide⟩,
  ⟨"Force fault injection to the specified bit. ".toList ++
    "To get a list of the legal bits for each register please pass 'help'.".toList,by decide⟩⟩

set_option maxRecDepth 2000 in
theorem forceInjectToBit_wrapped :
    Wrapped (maxFlagW [forceInjectToBit]) (columns (maxFlagW [forceInjectToBit])) forceInjectToBit
      ⟨114,[lineAt 20 forceInjectToBit 0 53,lineAt 20 forceInjectToBit 53 53,lineAt 20 forceInjectToBit 106 8]⟩ := by
  have first : printRound (maxFlagW [forceInjectToBit]) forceInjectToBit {} = .inr ⟨53,[lineAt 20 forceInjectToBit 0 53]⟩ := rfl
  have second : printRound (maxFlagW [forceInjectToBit]) forceInjectToBit ⟨53,[lineAt 20 forceInjectToBit 0 53]⟩ =
      .inr ⟨106,[lineAt 20 forceInjectToBit 0 53,lineAt 20 forceInjectToBit 53 53]⟩ := rfl
  have third : printRound (maxFlagW [forceInjectToBit]) forceInjectToBit
      ⟨106,[lineAt 20 forceInjectToBit 0 53,lineAt 20 forceInjectToBit 53 53]⟩ = .inr
        ⟨114,[lineAt 20 forceInjectToBit 0 53,lineAt 20 forceInjectToBit 53 53,lineAt 20 forceInjectToBit 106 8]⟩ := rfl
  exact wrapped_run [forceInjectToBit] forceInjectToBit List.mem_cons_self (by decide) (by decide) _ _
    (.snoc _ _ () _ (.snoc _ _ () _ (.snoc _ _ () _ .nil first) second) third)

def unflagged : OptionEntry := ⟨⟨[],by simp⟩,⟨',' :: (List.replicate 75 'b' ++ [',']),by decide⟩⟩

theorem unflagged_wide : ∃ rounds printed,
    Run (Goes (printRound (maxFlagW [unflagged]) unflagged)) {} rounds printed ∧
      ∃ line ∈ printed.lines, line.text.length = 81 := by
  have first : printRound (maxFlagW [unflagged]) unflagged {} = .inr ⟨1,[lineAt 0 unflagged 0 1]⟩ := rfl
  have second : printRound (maxFlagW [unflagged]) unflagged ⟨1,[lineAt 0 unflagged 0 1]⟩ =
      .inr ⟨77,[lineAt 0 unflagged 0 1,lineAt 0 unflagged 1 76]⟩ := rfl
  exact ⟨_,_,.snoc _ _ () _ (.snoc _ _ () _ .nil first) second,lineAt 0 unflagged 1 76,by simp,by decide⟩

def listed (length : Nat) : OptionEntry :=
  ⟨⟨['b'],by decide⟩,⟨List.replicate length ',',fun member => by simpa using List.eq_of_mem_replicate member⟩⟩

theorem splits_listed (length idx : Nat) : splits (listed length).description idx = true := by
  rw [splits,List.getD_eq_getElem?_getD]
  change isLineSplitCandidate ((List.replicate length ',')[idx]?.getD '\x00') = true
  rw [List.getElem?_replicate]
  split
  · rfl
  · rfl

theorem listed_round (length : Nat) (printed : Printed) (before : printed.substrLen < length) (bounded : length < 2^32) :
    printRound 1 (listed length) printed =
      .inr ⟨(printed.substrLen + min 75 (length - printed.substrLen + 1)) % 2^32,
        printed.lines ++ [lineAt 1 (listed length) printed.substrLen (min 75 (length - printed.substrLen + 1))]⟩ := by
  have size : (listed length).description.val.length = length := List.length_replicate
  obtain ⟨found,ran,split⟩ := printRound_next 1 (listed length) printed (by decide) (by omega) (by omega)
  rw [size] at split
  have full : found = min 75 (length - printed.substrLen + 1) := by
    by_contra less
    have within := split.within
    have none := split.last (printed.substrLen + found) le_rfl (by omega)
    rw [splits_listed] at none
    cases none
  rw [ran,full]

theorem listed_progress (length : Nat) (huge : length + 1 = 2^32) (printed : Printed)
    (reached : printed.substrLen % 75 = 0 ∧ printed.substrLen + 45 ≤ length ∧ PrintedSoFar (listed length) printed)
    (before : ¬ printed.substrLen + 45 = length) :
    ∃ round next, Goes (printRound 1 (listed length)) printed round next ∧
      (next.substrLen % 75 = 0 ∧ next.substrLen + 45 ≤ length ∧ PrintedSoFar (listed length) next) ∧
      length - next.substrLen < length - printed.substrLen := by
  obtain ⟨lines,inside,soFar⟩ := reached
  have size : (listed length).description.val.length = length := List.length_replicate
  have ran := listed_round length printed (by omega) (by omega)
  have full : min 75 (length - printed.substrLen + 1) = 75 := by omega
  have small : (printed.substrLen + 75) % 2^32 = printed.substrLen + 75 := Nat.mod_eq_of_lt (by omega)
  rw [full,small] at ran
  refine ⟨(),_,ran,⟨?_,?_,soFar.next 1 (listed length) printed 75⟩,?_⟩
  all_goals
    dsimp only
    omega

/-- `PrintedSubstrLen` is back at zero behind the terminator. -/
theorem listed_restarts (length : Nat) (huge : length + 1 = 2^32) :
    ∃ rounds printed, Run (Goes (printRound 1 (listed length))) {} rounds printed ∧
      ¬ printed.lines.flatMap Line.piece <+: (listed length).description.val := by
  have size : (listed length).description.val.length = length := List.length_replicate
  obtain ⟨rounds,printed,run,⟨_,_,soFar⟩,last⟩ := Run.exists_final _ _ _ (listed_progress length huge) {}
    ⟨rfl,by dsimp only; omega,rfl⟩
  have end_ := listed_round length printed (by omega) (by omega)
  have rest : min 75 (length - printed.substrLen + 1) = 46 := by omega
  have wraps : (printed.substrLen + 46) % 2^32 = 0 := by omega
  rw [rest,wraps] at end_
  have whole := soFar.next 1 (listed length) printed 46
  rw [List.take_of_length_le (by omega)] at whole
  have again := listed_round length ⟨0,printed.lines ++ [lineAt 1 (listed length) printed.substrLen 46]⟩
    (by dsimp only; omega) (by omega)
  have added : ([lineAt 1 (listed length) 0 (min 75 (length - 0 + 1))].flatMap Line.piece).length = 75 := by
    rw [List.flatMap_singleton]
    change (((listed length).description.val.drop 0).take _).length = 75
    rw [List.drop_zero,List.length_take,size]
    omega
  refine ⟨_,_,.snoc _ _ () _ (.snoc _ _ () _ run end_) again,?_⟩
  intro prefixed
  have shorter := prefixed.length_le
  rw [List.flatMap_append,List.length_append,whole,added] at shorter
  omega

theorem unwrapped : (maxFlagW [unflagged] < 36 ∧ ∃ rounds printed,
      Run (Goes (printRound (maxFlagW [unflagged]) unflagged)) {} rounds printed ∧
        ¬ Wrapped (maxFlagW [unflagged]) 80 unflagged printed) ∧
    maxFlagW [listed (2^32 - 1)] < 36 ∧ ∃ rounds printed,
      Run (Goes (printRound (maxFlagW [listed (2^32 - 1)]) (listed (2^32 - 1)))) {} rounds printed ∧
        ¬ Wrapped (maxFlagW [listed (2^32 - 1)]) 80 (listed (2^32 - 1)) printed := by
  have flag : ∀ length, maxFlagW [listed length] = 1 := fun length => rfl
  rw [flag]
  refine ⟨⟨by decide,?_⟩,by decide,?_⟩
  · obtain ⟨rounds,printed,run,line,member,wide⟩ := unflagged_wide
    refine ⟨rounds,printed,run,?_⟩
    intro wrapped
    have fits := wrapped.fits line member
    omega
  · obtain ⟨rounds,printed,run,restarts⟩ := listed_restarts (2^32 - 1) rfl
    exact ⟨rounds,printed,run,fun wrapped => restarts wrapped.pieces⟩

/-- A run of the description that would not fit beside the flags and has no place to split it. -/
def Unsplittable (width : Nat) (text run : List Char) : Prop :=
  run <:+: text ∧ run.length = width ∧ ∀ c ∈ run, isLineSplitCandidate c = false

theorem splits_terminator (text : CString) : splits text text.val.length = true := by
  rw [splits,List.getD_eq_getElem?_getD,List.getElem?_eq_none le_rfl]
  rfl

theorem splits_run (text : CString) (before run behind : List Char) (whole : text.val = before ++ run ++ behind)
    (idx : Nat) (from_ : before.length ≤ idx) (to_ : idx < before.length + run.length)
    (none : ∀ c ∈ run, isLineSplitCandidate c = false) : splits text idx = false := by
  have inside : idx - before.length < run.length := by omega
  have read : text.val[idx]? = some run[idx - before.length] := by
    rw [whole,List.append_assoc,List.getElem?_append_right from_,List.getElem?_append_left inside,
      List.getElem?_eq_getElem]
  rw [splits,List.getD_eq_getElem?_getD,read]
  exact none _ (List.getElem_mem _)

theorem splits_inside (text : CString) (idx : Nat) (inside : idx < text.val.length) :
    splits text idx = isLineSplitCandidate text.val[idx] := by
  rw [splits,List.getD_eq_getElem?_getD,List.getElem?_eq_getElem inside,Option.getD_some]

theorem window_plain (text : CString) (start width : Nat)
    (none : ∀ idx, start ≤ idx → idx < start + width → splits text idx = false) :
    ∀ c ∈ (text.val.drop start).take width, isLineSplitCandidate c = false := by
  intro c member
  obtain ⟨i,within,rfl⟩ := List.getElem_of_mem member
  rw [List.length_take,List.length_drop] at within
  rw [List.getElem_take,List.getElem_drop,← splits_inside text (start + i) (by omega)]
  exact none (start + i) (Nat.le_add_right _ _) (by omega)

theorem Split.occupied (text : CString) (width printed length : Nat) (before : printed < text.val.length)
    (splittable : ∀ run, ¬ Unsplittable width text.val run)
    (split : Split text (min width (text.val.length - printed + 1)) printed length) : 0 < length := by
  by_contra empty
  have inside : printed + width ≤ text.val.length := by
    by_contra outside
    have stop := split.last text.val.length (by omega) (by omega)
    rw [splits_terminator] at stop
    cases stop
  apply splittable ((text.val.drop printed).take width)
  refine ⟨(List.take_prefix _ _).isInfix.trans (List.drop_suffix _ _).isInfix,?_,?_⟩
  · rw [List.length_take,List.length_drop]
    omega
  · exact window_plain text printed width fun idx from_ to_ => split.last idx (by omega) (by omega)

theorem ends_of_splittable (maxFlagW : Nat) (option : OptionEntry) (short : maxFlagW < 36)
    (bounded : option.description.val.length + 1 < 2^32)
    (splittable : ∀ run, ¬ Unsplittable (maxSubstrLen maxFlagW) option.description.val run) :
    ∃ fuel lines, (printOption fuel maxFlagW option).run = some (.ok lines) := by
  rw [maxSubstrLen_short maxFlagW short] at splittable
  have progress (printed : Printed) (inside : printed.substrLen ≤ option.description.val.length + 1)
      (before : ¬ option.description.val.length ≤ printed.substrLen) :
      ∃ round next, Goes (printRound maxFlagW option) printed round next ∧
        next.substrLen ≤ option.description.val.length + 1 ∧
        option.description.val.length + 1 - next.substrLen < option.description.val.length + 1 - printed.substrLen := by
    obtain ⟨length,ran,split⟩ := printRound_next maxFlagW option printed short (by omega) (by omega)
    have occupied := split.occupied _ _ _ _ (by omega) splittable
    have inside := split.inside
    rw [split.small bounded] at ran
    refine ⟨(),_,ran,inside,?_⟩
    dsimp only
    omega
  obtain ⟨rounds,printed,run,_,behind⟩ := Run.exists_final _ _ _ progress {} (Nat.zero_le _)
  obtain ⟨fuel,ends⟩ := (iterate_iff_run _ _ _).mpr
    ⟨rounds,printed,run,printRound_last maxFlagW option printed behind (by omega)⟩
  exact ⟨fuel,printed.lines,ends⟩

theorem before_unsplittable (maxFlagW : Nat) (option : OptionEntry) (short : maxFlagW < 36)
    (bounded : option.description.val.length < 2^32) (before unsplit behind : List Char)
    (whole : option.description.val = before ++ unsplit ++ behind) (width : unsplit.length = 76 - maxFlagW)
    (none : ∀ c ∈ unsplit, isLineSplitCandidate c = false) (rounds : List Unit) (printed : Printed)
    (run : Run (Goes (printRound maxFlagW option)) {} rounds printed) : printed.substrLen ≤ before.length := by
  apply Run.invariant (fun _ printed => printed.substrLen ≤ before.length) (Nat.zero_le _) _ run
  intro rounds printed round next reached goes
  obtain ⟨length,rfl,split⟩ := goes_cases maxFlagW option printed next short bounded goes
  apply (Nat.mod_le _ _).trans
  by_contra past
  have within := split.within
  have place := split.candidate (by omega)
  rw [splits_run _ before unsplit behind whole _ (by omega) (by omega) none] at place
  cases place

theorem ends_iff (maxFlagW : Nat) (option : OptionEntry) (short : maxFlagW < 36)
    (bounded : option.description.val.length + 1 < 2^32) :
    (∃ fuel lines, (printOption fuel maxFlagW option).run = some (.ok lines)) ↔
      ∀ run, ¬ Unsplittable (maxSubstrLen maxFlagW) option.description.val run := by
  constructor
  · rintro ⟨fuel,lines,ends⟩ run ⟨⟨before,behind,whole⟩,width,none⟩
    rw [maxSubstrLen_short maxFlagW short] at width
    obtain ⟨rounds,printed,reached,left⟩ := (iterate_iff_run _ _ _).mp ⟨fuel,ends⟩
    have stays := before_unsplittable maxFlagW option short (by omega) before run behind whole.symm width none
      rounds printed reached
    have size := congrArg List.length whole
    rw [List.length_append,List.length_append] at size
    obtain ⟨length,ran,_⟩ := printRound_next maxFlagW option printed short (by omega) (by omega)
    cases ran.symm.trans left
  · exact ends_of_splittable maxFlagW option short bounded

theorem printOption_wrapped (maxFlagW : Nat) (option : OptionEntry) (short : maxFlagW < 36)
    (flag : option.flag.val.length ≤ maxFlagW) (bounded : option.description.val.length + 1 < 2^32) (fuel : Nat)
    (lines : List Line) (ends : (printOption fuel maxFlagW option).run = some (.ok lines)) :
    lines.flatMap Line.piece = option.description.val ∧ ∀ line ∈ lines, line.text.length ≤ columns maxFlagW := by
  obtain ⟨rounds,printed,run,left⟩ := (iterate_iff_run _ _ _).mp ⟨fuel,ends⟩
  have soFar := printedSoFar_run maxFlagW option short bounded rounds printed run
  have fits := columns_run maxFlagW option short flag (by omega) rounds printed run
  rcases Nat.lt_or_ge printed.substrLen option.description.val.length with before | behind
  · obtain ⟨length,ran,_⟩ := printRound_next maxFlagW option printed short before (by omega)
    cases ran.symm.trans left
  · cases (printRound_last maxFlagW option printed behind (by omega)).symm.trans left
    refine ⟨?_,fits⟩
    rw [soFar,List.take_of_length_le behind]

theorem printAllOptions_groups (fuel : Nat) (options : List OptionEntry) (lines : List Line)
    (ends : (printAllOptions fuel options).run = some (.ok lines)) :
    ∃ groups : List (List Line), lines = groups.flatten ∧
      List.Forall₂ (fun option group => (printOption fuel (maxFlagW options) option).run = some (.ok group))
        options groups := by
  unfold printAllOptions at ends
  generalize maxFlagW options = width at ends
  suffices all : ∀ earlier, (List.foldlM _ earlier options : ExceptT Halt Option _).run = some (.ok lines) →
      ∃ groups : List (List Line), lines = earlier ++ groups.flatten ∧
        List.Forall₂ (fun option group => (printOption fuel width option).run = some (.ok group)) options groups from
    all [] ends
  clear ends
  induction options with
  | nil =>
    intro earlier ends
    cases ends
    exact ⟨[],(List.append_nil _).symm,.nil⟩
  | cons option options ih =>
    intro earlier ends
    rw [List.foldlM_cons] at ends
    obtain ⟨sofar,one,rest⟩ := option_bind_ok _ _ _ ends
    obtain ⟨_,_,body⟩ := option_bind_ok _ _ _ one
    obtain ⟨new,printed,added⟩ := option_bind_ok _ _ _ body
    cases added
    obtain ⟨groups,rfl,each⟩ := ih _ rest
    exact ⟨new :: groups,List.append_assoc _ _ _,.cons printed each⟩

theorem printAllOptions_wrapped (fuel : Nat) (options : List OptionEntry) (short : maxFlagW options < 36)
    (bounded : ∀ option ∈ options, option.description.val.length + 1 < 2^32) (lines : List Line)
    (ends : (printAllOptions fuel options).run = some (.ok lines)) :
    lines.flatMap Line.piece = (options.flatMap fun option => option.description.val) ∧
      ∀ line ∈ lines, line.text.length ≤ columns (maxFlagW options) := by
  obtain ⟨groups,rfl,each⟩ := printAllOptions_groups fuel options lines ends
  have flags := le_maxFlagW options
  clear ends
  generalize maxFlagW options = width at short each flags
  induction each with
  | nil => simp
  | @cons option group options groups printed each ih =>
    have head := printOption_wrapped width option short (flags option List.mem_cons_self)
      (bounded option List.mem_cons_self) fuel group printed
    have tail := ih (fun other member => bounded other (List.mem_cons_of_mem _ member))
      (fun other member => flags other (List.mem_cons_of_mem _ member))
    rw [List.flatten_cons,List.flatMap_append,head.1,tail.1,List.flatMap_cons]
    refine ⟨rfl,?_⟩
    intro line member
    rcases List.mem_append.mp member with first | later
    · exact head.2 line first
    · exact tail.2 line later

theorem flag_length (opt : Model.Options.Opt) : 0 < opt.flag.toList.length ∧ opt.flag.toList.length < 36 := by
  cases opt <;> decide

/-- The list of the tool's own options, whatever their descriptions say. -/
theorem registered_wrapped (fuel : Nat) (options : List OptionEntry)
    (flags : ∀ option ∈ options, ∃ opt : Model.Options.Opt, option.flag.val = opt.flag.toList)
    (bounded : ∀ option ∈ options, option.description.val.length + 1 < 2^32) (lines : List Line)
    (ends : (printAllOptions fuel options).run = some (.ok lines)) :
    lines.flatMap Line.piece = (options.flatMap fun option => option.description.val) ∧
      ∀ line ∈ lines, line.text.length ≤ 80 := by
  have short : maxFlagW options ≤ 35 := by
    apply (maxFlagW_le_iff options 35).mpr
    intro option member
    obtain ⟨opt,flag⟩ := flags option member
    rw [flag]
    exact Nat.le_of_lt_succ (flag_length opt).2
  have wrapped := printAllOptions_wrapped fuel options (by omega) bounded lines ends
  cases options with
  | nil =>
    cases ends
    exact ⟨rfl,List.forall_mem_nil _⟩
  | cons option options =>
    obtain ⟨opt,flag⟩ := flags option List.mem_cons_self
    have occupied := le_maxFlagW (option :: options) option List.mem_cons_self
    have positive := (flag_length opt).1
    rw [← flag] at positive
    have width : columns (maxFlagW (option :: options)) = 80 := if_neg (by omega)
    rw [width] at wrapped
    exact wrapped

end Zofi.WrappedDescriptions
