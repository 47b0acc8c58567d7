import Mathlib.Data.List.DropRight
import Zofi.Model.Report
import Zofi.WrittenNumbers

/-! The table that Statistics::dump prints, as the get_outcome script of the tests reads it. -/
namespace Zofi.OutcomeTable
open Lines WrittenNumbers Model.Utils Model.Outcomes Model.StatisticsObject Model.Printing Model.Report

/-- A float that is not infinite, as a stream prints it without std::fixed. -/
structure Numeric (text : List Char) : Prop where
  chars : ∀ c ∈ text, isShareChar c = true ∨ c ∈ ['e','+','-']
  last : ∃ c, text.getLast? = some c ∧ isShareChar c = true

theorem numeric_of_all (text : List Char) (c : Char) (all : text.all isShareChar = true) (last : text.getLast? = some c)
    (ends : isShareChar c = true) : Numeric text :=
  ⟨fun c member => .inl (List.all_eq_true.mp all c member),c,last,ends⟩

/-- What a reader that knows no exponents takes for the number: all of it, or the end of the exponent. -/
def readShare (text : List Char) : List Char := text.rtakeWhile isShareChar

theorem readShare_eq_iff (text : List Char) : readShare text = text ↔ ∀ c ∈ text, isShareChar c = true :=
  List.rtakeWhile_eq_self_iff

def name (s : StatType) : List Char := (getTypeStr s).toList

def outcomeTypes : List StatType := [.masked,.exception,.infExec,.corrupted,.detected,.injFailed,.skipped]

theorem mem_outcomeTypes (s : StatType) : s ∈ outcomeTypes ↔ isCounter s = true := by cases s <;> decide

theorem replicate_cons (c : Char) (n : Nat) (rest : List Char) :
    c :: (List.replicate n c ++ rest) = List.replicate n c ++ c :: rest := by
  rw [← List.cons_append,← List.replicate_succ,List.replicate_succ',List.append_assoc,List.singleton_append]

theorem readShare_behind (front text : List Char) (b : Char) (outside : isShareChar b = false) :
    readShare (front ++ b :: text) = readShare text := by
  rw [readShare,List.rtakeWhile,List.reverse_append,List.reverse_cons,List.append_assoc,List.singleton_append,
    List.takeWhile_append]
  split
  next all =>
    rw [List.takeWhile_cons_of_neg (by simp [outside]),List.append_nil,readShare,List.rtakeWhile]
    exact congrArg List.reverse ((List.takeWhile_prefix _).eq_of_length all).symm
  · rfl

theorem readShare_some (text : List Char) (numeric : Numeric text) : readShare text ≠ [] := by
  obtain ⟨c,last,shown⟩ := numeric.last
  obtain ⟨front,rfl⟩ := List.getLast?_eq_some_iff.mp last
  rw [readShare,List.rtakeWhile_concat_pos _ _ _ shown]
  simp

theorem percent_read (front text : List Char) (b : Char) (outside : isShareChar b = false)
    (plain : '%' ∉ front ++ b :: text) (some_ : readShare text ≠ []) :
    (matches_ (runThen isShareChar '%') (front ++ b :: (text ++ ['%']))).flatMap (matches_ (run isShareChar)) =
      [readShare text] := by
  have halves : (front ++ b :: text).rdropWhile isShareChar ++ (front ++ b :: text).rtakeWhile isShareChar =
      front ++ b :: text := List.rdropWhile_append_rtakeWhile
  have behind : (front ++ b :: text).rtakeWhile isShareChar = readShare text := readShare_behind front text b outside
  have occupied : (front ++ b :: text).rdropWhile isShareChar ≠ [] := by
    rw [Ne,List.rdropWhile_eq_nil_iff]
    intro all
    simp [all b (by simp)] at outside
  have stops := List.rdropWhile_last_not isShareChar _ occupied
  have before := (List.rdropWhile_prefix isShareChar (front ++ b :: text)).subset
  rw [behind] at halves
  rw [show front ++ b :: (text ++ ['%']) = (front ++ b :: text) ++ ['%'] by simp,← halves]
  generalize (front ++ b :: text).rdropWhile isShareChar = dropped at *
  obtain ⟨start,last,rfl⟩ : ∃ start last, dropped = start ++ [last] :=
    ⟨_,_,(List.dropLast_append_getLast occupied).symm⟩
  rw [List.getLast_append_singleton,Bool.not_eq_true] at stops
  rw [List.append_assoc,List.append_assoc,List.singleton_append,
    runThen_before _ _ _ _ _ stops fun member => plain (before member),
    runThen_field _ _ (by decide) _ _ (fun c member => List.mem_rtakeWhile_imp member) (by simp),List.flatMap_singleton,
    run_field _ _ (by decide) _ some_ (fun c member => List.mem_rtakeWhile_imp member)]

section Row

variable (showShare : Nat → Nat → List Char) (stats : Statistics) (s : StatType)

def label : List Char := setwLeft 16 (name s) ++ ':' :: List.replicate (3 - (Nat.toDigits 10 (stats.uLongMap s)).length) ' '

def share : List Char := showShare (stats.uLongMap s) stats.totalInjOK

def padding : List Char := List.replicate (7 - (share showShare stats s).length) ' '

theorem dumpRow_eq : dumpRow showShare stats s = label stats s ++ ' ' :: (Nat.toDigits 10 (stats.uLongMap s) ++
    ',' :: ' ' :: (padding showShare stats s ++ (share showShare stats s ++ ['%']))) := by
  have colon : ": ".toList = [':',' '] := rfl
  have comma : ", ".toList = [',',' '] := rfl
  have percent : "%".toList = ['%'] := rfl
  simp only [dumpRow,label,padding,share,name,setwRight,colon,comma,percent,List.append_assoc,List.cons_append,
    List.nil_append,replicate_cons ' ']

def figures : List Char := List.replicate (16 - (name s).length) ' ' ++ ':' ::
  List.replicate (3 - (Nat.toDigits 10 (stats.uLongMap s)).length) ' ' ++ ' ' :: (Nat.toDigits 10 (stats.uLongMap s) ++
    ',' :: ' ' :: (padding showShare stats s ++ (share showShare stats s ++ ['%'])))

theorem name_letters : ∀ s ∈ outcomeTypes, ∀ c ∈ name s, c.isAlpha = true := by
  have letters : ∀ s ∈ outcomeTypes, (name s).all Char.isAlpha = true := by decide
  exact fun s outcome => List.all_eq_true.mp (letters s outcome)

variable {s}

theorem label_plain (outcome : s ∈ outcomeTypes) (c : Char) (other : c.isAlpha = false ∧ c ≠ ' ' ∧ c ≠ ':') :
    c ∉ label stats s := by
  intro member
  rw [label,setwLeft] at member
  simp only [List.mem_append,List.mem_cons,List.mem_replicate] at member
  rcases member with (letter | ⟨_,blank⟩) | colon | ⟨_,blank⟩
  · exact absurd (name_letters s outcome c letter) (by simp [other.1])
  · exact other.2.1 blank
  · exact other.2.2 colon
  · exact other.2.1 blank

theorem padding_blank (c : Char) (member : c ∈ padding showShare stats s) : c = ' ' := List.eq_of_mem_replicate member

variable (numeric : Numeric (share showShare stats s))

include numeric in
theorem share_chars (c : Char) (member : c ∈ share showShare stats s) :
    c.isDigit = true ∨ c ∈ ['.','e','+','-'] := by
  rcases numeric.chars c member with shown | exponent
  · rcases Bool.or_eq_true _ _ |>.mp shown with digit | point
    · exact .inl digit
    · exact .inr (by simp [beq_iff_eq.mp point])
  · exact .inr (List.mem_cons_of_mem _ exponent)

include numeric in
theorem counter_read (outcome : s ∈ outcomeTypes) :
    (matches_ (runThen Char.isDigit ',') (dumpRow showShare stats s)).flatMap (matches_ (run Char.isDigit)) =
      [Nat.toDigits 10 (stats.uLongMap s)] := by
  have front : ',' ∉ label stats s ++ [' '] := by
    simpa using label_plain stats outcome ',' (by decide)
  have rest : ',' ∉ ' ' :: (padding showShare stats s ++ (share showShare stats s ++ ['%'])) := by
    intro member
    simp only [List.mem_cons,List.mem_append,List.not_mem_nil,or_false] at member
    rcases member with blank | blank | shown | percent
    · exact absurd blank (by decide)
    · exact absurd (padding_blank showShare stats ',' blank) (by decide)
    · exact absurd (share_chars showShare stats numeric ',' shown) (by decide)
    · exact absurd percent (by decide)
  rw [dumpRow_eq,runThen_before _ _ _ _ _ (by decide) front,
    runThen_field _ _ (by decide) _ _ (digits_decimal _) rest,List.flatMap_singleton,
    run_field _ _ (by decide) _ Nat.toDigits_ne_nil (digits_decimal _)]

include numeric in
theorem share_read (outcome : s ∈ outcomeTypes) :
    (matches_ (runThen isShareChar '%') (dumpRow showShare stats s)).flatMap (matches_ (run isShareChar)) =
      [readShare (share showShare stats s)] := by
  have blanks : ' ' :: (padding showShare stats s ++ (share showShare stats s ++ ['%'])) =
      padding showShare stats s ++ ' ' :: (share showShare stats s ++ ['%']) := replicate_cons _ _ _
  have row : dumpRow showShare stats s = (label stats s ++ ' ' :: (Nat.toDigits 10 (stats.uLongMap s) ++
      ',' :: padding showShare stats s)) ++ ' ' :: (share showShare stats s ++ ['%']) := by
    rw [dumpRow_eq,blanks]
    simp
  rw [row]
  refine percent_read _ _ _ (by decide) ?_ (readShare_some _ numeric)
  simp only [List.mem_append,List.mem_cons]
  rintro ((name | blank | digit | comma | blank) | blank | shown)
  · exact label_plain stats outcome '%' (by decide) name
  · exact absurd blank (by decide)
  · exact absurd (digits_decimal _ _ digit) (by decide)
  · exact absurd comma (by decide)
  · exact absurd (padding_blank showShare stats '%' blank) (by decide)
  · exact absurd blank (by decide)
  · exact absurd (share_chars showShare stats numeric '%' shown) (by decide)

theorem dumpRow_figures : dumpRow showShare stats s = name s ++ figures showShare stats s := by
  rw [dumpRow_eq,label,setwLeft,figures]
  simp

include numeric in
theorem figures_chars (c : Char) (member : c ∈ figures showShare stats s) :
    c.isDigit = true ∨ c ∈ [' ',':',',','.','e','+','-','%'] := by
  simp only [figures,List.mem_append,List.mem_cons,List.not_mem_nil,or_false] at member
  rcases member with (blank | colon | blank) | blank | digit | comma | blank | blank | shown | percent
  · exact .inr (by simp [List.eq_of_mem_replicate blank])
  · exact .inr (by simp [colon])
  · exact .inr (by simp [List.eq_of_mem_replicate blank])
  · exact .inr (by simp [blank])
  · exact .inl (digits_decimal _ c digit)
  · exact .inr (by simp [comma])
  · exact .inr (by simp [blank])
  · exact .inr (by simp [padding_blank showShare stats c blank])
  · rcases share_chars showShare stats numeric c shown with digit | other
    · exact .inl digit
    · exact .inr (by simp only [List.mem_cons] at other ⊢; tauto)
  · exact .inr (by simp [percent])

theorem name_last : ∀ s ∈ outcomeTypes, (name s).getLast? ∈ ['d','n','c'].map some := by decide

theorem name_within : ∀ s ∈ outcomeTypes, ∀ t ∈ outcomeTypes, name s <:+: name t → s = t := by decide

include numeric in
theorem named_iff (t : StatType) (outcome : s ∈ outcomeTypes) (other : t ∈ outcomeTypes) :
    name t <:+: dumpRow showShare stats s ↔ s = t := by
  rw [dumpRow_figures]
  constructor
  · intro within
    obtain ⟨c,ending,last⟩ := List.mem_map.mp (name_last t other)
    refine (name_within t other s outcome (infix_front _ _ _ c last.symm ?_ within)).symm
    intro figure
    rcases figures_chars showShare stats numeric c figure with digit | sign
    · simp only [List.mem_cons,List.not_mem_nil,or_false] at ending
      rcases ending with rfl | rfl | rfl <;> exact absurd digit (by decide)
    · simp only [List.mem_cons,List.not_mem_nil,or_false] at ending
      rcases ending with rfl | rfl | rfl <;> exact absurd sign (by decide)
  · rintro rfl
    exact ⟨[],figures showShare stats s,rfl⟩

include numeric in
theorem row_line (outcome : s ∈ outcomeTypes) : '\n' ∉ dumpRow showShare stats s := by
  rw [dumpRow_figures,List.mem_append]
  rintro (letter | figure)
  · exact absurd (name_letters s outcome _ letter) (by decide)
  · exact absurd (figures_chars showShare stats numeric _ figure) (by decide)

end Row

theorem dumpStats_nodup (detectionExitCode : Int) (stats : Statistics) : (dumpStats detectionExitCode stats).Nodup := by
  unfold dumpStats
  split <;> split <;> decide

theorem dumpStats_outcomes (detectionExitCode : Int) (stats : Statistics) :
    ∀ s ∈ dumpStats detectionExitCode stats, s ∈ outcomeTypes := by
  unfold dumpStats
  split <;> split <;> decide

def Shown (detectionExitCode : Int) (stats : Statistics) (s : StatType) : Prop :=
  stats.totalInjOK ≠ 0 ∧ s ∈ dumpStats detectionExitCode stats

instance (detectionExitCode : Int) (stats : Statistics) (s : StatType) : Decidable (Shown detectionExitCode stats s) :=
  inferInstanceAs (Decidable (_ ∧ _))

theorem filter_apart (s : StatType) (before : List (List Char))
    (apart : ∀ line ∈ before, '\n' ∉ line ∧ ¬ name s <:+: line) :
    before.filter (fun line => decide (name s <:+: line)) = [] := by
  rw [List.filter_eq_nil_iff]
  intro line member
  simpa using (apart line member).2

theorem getOutcome_unnamed (s : StatType) (before : List (List Char))
    (apart : ∀ line ∈ before, '\n' ∉ line ∧ ¬ name s <:+: line) :
    getOutcome [getTypeStr s,"N"] (unlines '\n' before) = .ok [] := by
  have all := lines_unlines '\n' before [] fun line member => (apart line member).1
  rw [List.append_nil,lines,List.append_nil] at all
  refine congrArg Except.ok ?_
  rw [filterLines,all,← name,filter_apart s before apart,List.flatMap_nil]

section Table

variable (showShare : Nat → Nat → List Char) (numeric : ∀ count total, total ≠ 0 → Numeric (showShare count total))
  (detectionExitCode : Int) (stats : Statistics) (s : StatType) (outcome : s ∈ outcomeTypes)

theorem heading_unnamed : ∀ s ∈ outcomeTypes, ∀ line ∈ ["No Results.".toList,[],ruler,heading], ¬ name s <:+: line := by
  decide

include numeric outcome in
theorem named_lines : (dumpLines showShare detectionExitCode stats).filter (fun line => decide (name s <:+: line)) =
    if Shown detectionExitCode stats s then [dumpRow showShare stats s] else [] := by
  have unnamed := heading_unnamed s outcome
  simp only [List.mem_cons,List.not_mem_nil,or_false,forall_eq_or_imp,forall_eq] at unnamed
  obtain ⟨noResults,empty,rule,head⟩ := unnamed
  unfold dumpLines
  by_cases none : stats.totalInjOK = 0
  · rw [if_pos none,if_neg fun shown => shown.1 none,List.filter_singleton,decide_eq_false noResults]
    rfl
  · have rows : (dumpStats detectionExitCode stats).filter (fun t => decide (name s <:+: dumpRow showShare stats t)) =
        (dumpStats detectionExitCode stats).filter (· = s) := by
      refine List.filter_congr fun t member => ?_
      rw [decide_eq_decide]
      exact named_iff showShare stats (numeric _ _ none) s (dumpStats_outcomes _ _ t member) outcome
    rw [if_neg none,List.filter_append,List.filter_map]
    simp only [Function.comp_def,rows,List.filter_cons,List.filter_nil,empty,rule,head,decide_false,
      Bool.false_eq_true,if_false,List.nil_append]
    by_cases shown : s ∈ dumpStats detectionExitCode stats
    · rw [if_pos ⟨none,shown⟩,List.filter_eq,List.count_eq_one_of_mem (dumpStats_nodup _ _) shown]
      rfl
    · rw [if_neg fun both => shown both.2,List.filter_eq,List.count_eq_zero_of_not_mem shown]
      rfl

include numeric in
theorem dump_lines : ∀ line ∈ dumpLines showShare detectionExitCode stats, '\n' ∉ line := by
  unfold dumpLines
  split
  · decide
  next some =>
    rw [List.forall_mem_append]
    refine ⟨by decide,?_⟩
    rw [List.forall_mem_map]
    intro t member
    exact row_line showShare stats (numeric _ _ some) (dumpStats_outcomes _ _ t member)

include numeric outcome in
theorem filterLines_dump (before : List (List Char)) (apart : ∀ line ∈ before, '\n' ∉ line ∧ ¬ name s <:+: line)
    (first second : List Char → Nat) (found : List Char)
    (read : stats.totalInjOK ≠ 0 → (matches_ first (dumpRow showShare stats s)).flatMap (matches_ second) = [found]) :
    filterLines (name s) first second (unlines '\n' before ++ dump showShare detectionExitCode stats) =
      if Shown detectionExitCode stats s then [found] else [] := by
  have all := lines_unlines '\n' (before ++ dumpLines showShare detectionExitCode stats) [] (by
    rw [List.forall_mem_append]
    exact ⟨fun line member => (apart line member).1,dump_lines showShare numeric detectionExitCode stats⟩)
  rw [unlines,List.flatMap_append,List.append_nil,lines,List.append_nil] at all
  rw [filterLines,dump,unlines,unlines,all,List.filter_append,filter_apart s before apart,
    named_lines showShare numeric detectionExitCode stats s outcome,List.nil_append]
  by_cases shown : Shown detectionExitCode stats s
  · rw [if_pos shown,if_pos shown,List.flatMap_singleton,read shown.1]
  · rw [if_neg shown,if_neg shown,List.flatMap_nil]

include numeric outcome in
theorem getOutcome_count (before : List (List Char)) (apart : ∀ line ∈ before, '\n' ∉ line ∧ ¬ name s <:+: line) :
    getOutcome [getTypeStr s,"N"] (unlines '\n' before ++ dump showShare detectionExitCode stats) =
      .ok (if Shown detectionExitCode stats s then [Nat.toDigits 10 (stats.uLongMap s)] else []) :=
  congrArg Except.ok (filterLines_dump showShare numeric detectionExitCode stats s outcome before apart _ _ _ fun some =>
    counter_read showShare stats (numeric _ _ some) outcome)

include numeric outcome in
theorem getOutcome_share (before : List (List Char)) (apart : ∀ line ∈ before, '\n' ∉ line ∧ ¬ name s <:+: line) :
    getOutcome [getTypeStr s,"%"] (unlines '\n' before ++ dump showShare detectionExitCode stats) =
      .ok (if Shown detectionExitCode stats s then [readShare (share showShare stats s)] else []) :=
  congrArg Except.ok (filterLines_dump showShare numeric detectionExitCode stats s outcome before apart _ _ _ fun some =>
    share_read showShare stats (numeric _ _ some) outcome)

include numeric outcome in
/-- Whatever is printed in front of the table without the name of the outcome: the script finds the
number of its row, and nothing if the table has no such row; the share it finds there is the one that is
printed exactly if that has no exponent. -/
theorem getOutcome_dump (before : List (List Char)) (apart : ∀ line ∈ before, '\n' ∉ line ∧ ¬ name s <:+: line) :
    getOutcome [getTypeStr s,"N"] (unlines '\n' before ++ dump showShare detectionExitCode stats) =
      .ok (if Shown detectionExitCode stats s then [Nat.toDigits 10 (stats.uLongMap s)] else []) ∧
    getOutcome [getTypeStr s,"%"] (unlines '\n' before ++ dump showShare detectionExitCode stats) =
      .ok (if Shown detectionExitCode stats s then [readShare (share showShare stats s)] else []) ∧
    (getOutcome [getTypeStr s,"%"] (unlines '\n' before ++ dump showShare detectionExitCode stats) =
      .ok (if Shown detectionExitCode stats s then [share showShare stats s] else []) ↔
        (Shown detectionExitCode stats s → ∀ c ∈ share showShare stats s, isShareChar c = true)) := by
  have read := getOutcome_share showShare numeric detectionExitCode stats s outcome before apart
  refine ⟨getOutcome_count showShare numeric detectionExitCode stats s outcome before apart,read,?_⟩
  rw [read,Except.ok.injEq]
  by_cases shown : Shown detectionExitCode stats s
  · rw [if_pos shown,if_pos shown,List.singleton_inj,readShare_eq_iff]
    exact ⟨fun plain _ => plain,fun plain => plain shown⟩
  · rw [if_neg shown,if_neg shown]
    exact iff_of_true rfl fun is => absurd is shown

end Table

def oneOfFifteen : Statistics := {uLongMap := fun s => if s = .masked then 1 else 0,totalInjOK := 15}

theorem masked_read : getOutcome ["Masked","N"] (unlines '\n' ["-- Test Runs --".toList] ++
      dump (fun _ _ => "6.67".toList) 0 oneOfFifteen) = .ok ["1".toList] ∧
    getOutcome ["Masked","%"] (unlines '\n' ["-- Test Runs --".toList] ++
      dump (fun _ _ => "6.67".toList) 0 oneOfFifteen) = .ok ["6.67".toList] := by
  have shown : Shown 0 oneOfFifteen .masked := by decide
  have both := getOutcome_dump (fun _ _ => "6.67".toList)
    (fun _ _ _ => numeric_of_all _ '7' (by decide) (by decide) (by decide)) 0 oneOfFifteen .masked (by decide) ["-- Test Runs --".toList] (by decide)
  rw [if_pos shown,if_pos shown] at both
  exact ⟨both.1,both.2.2.mpr fun _ => List.all_eq_true.mp rfl⟩

/-- A share with an exponent loses it. -/
example : getOutcome ["Masked","%"] (dump (fun _ _ => "9e-05".toList) 0 oneOfFifteen) = .ok ["05".toList] := by decide

end Zofi.OutcomeTable
