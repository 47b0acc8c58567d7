import Zofi.WrappedDescriptions

/-! For which descriptions the list of the options is printed to its end: every round has to find
a place to split. -/
namespace Zofi.WrappingEnds
open Sys Streams Transitions Model.Utils Model.Printing WrappedDescriptions

section Rounds
variable {maxFlagW : Nat} {option : OptionEntry}

/-- The rounds from one value of `PrintedSubstrLen` on, as long as it does not leave an unsigned. -/
inductive Chain (maxFlagW : Nat) (option : OptionEntry) : Nat → List Line → Nat → Prop
  | done (printed : Nat) (behind : descrLen option.description ≤ printed) : Chain maxFlagW option printed [] printed
  | next (printed length : Nat) (lines : List Line) (final : Nat) (before : printed < descrLen option.description)
      (split : SplitAt maxFlagW option.description printed length) (unwrapped : printed + length < 2^32)
      (rest : Chain maxFlagW option (printed + length) lines final) :
      Chain maxFlagW option printed (lineAt maxFlagW option printed length :: lines) final

theorem Split.le {text : CString} {width printed one two : Nat} (first : Split text width printed one)
    (second : Split text width printed two) : two ≤ one := by
  by_contra longer
  have within := second.within
  have candidate := second.candidate (by omega)
  rw [first.last (printed + two - 1) (by omega) (by omega)] at candidate
  cases candidate

theorem Split.unique {text : CString} {width printed one two : Nat} (first : Split text width printed one)
    (second : Split text width printed two) : one = two :=
  Nat.le_antisymm (Split.le second first) (Split.le first second)

theorem printRound_at (short : maxFlagW < 36) (printed : Printed) (length : Nat)
    (before : printed.substrLen < descrLen option.description)
    (split : SplitAt maxFlagW option.description printed.substrLen length) :
    printRound maxFlagW option printed = .inr ⟨(printed.substrLen + length) % 2^32,
      printed.lines ++ [lineAt maxFlagW option printed.substrLen length]⟩ := by
  obtain ⟨other,ran,same⟩ := printRound_counted maxFlagW option printed short before
  rw [Split.unique split same]
  exact ran

theorem Chain.iterates (short : maxFlagW < 36) {printed final : Nat} {lines : List Line}
    (chain : Chain maxFlagW option printed lines final) :
    ∃ fuel, ∀ earlier, iterate (printRound maxFlagW option) fuel ⟨printed,earlier⟩ = some (.ok (earlier ++ lines)) := by
  induction chain with
  | done printed behind =>
    refine ⟨1,?_⟩
    intro earlier
    rw [iterate,printRound_behind maxFlagW option ⟨printed,earlier⟩ behind,List.append_nil]
  | next printed length lines final before split unwrapped rest ih =>
    obtain ⟨fuel,ends⟩ := ih
    refine ⟨fuel + 1,?_⟩
    intro earlier
    rw [iterate,printRound_at short ⟨printed,earlier⟩ length before split]
    dsimp only
    rw [Nat.mod_eq_of_lt unwrapped,ends,List.append_assoc]
    rfl

/-- A loop that ends does so below 2^32, or ends from the start in fewer rounds. -/
theorem iterate_chain (short : maxFlagW < 36) (fuel printed : Nat) (earlier : List Line) (result : Except Halt (List Line))
    (ends : iterate (printRound maxFlagW option) fuel ⟨printed,earlier⟩ = some result) :
    (∃ lines final, Chain maxFlagW option printed lines final) ∨
      ∃ less < fuel, ∃ lines, iterate (printRound maxFlagW option) less ⟨0,lines⟩ = some result := by
  induction fuel generalizing printed earlier with
  | zero => cases ends
  | succ fuel ih =>
    rcases Nat.lt_or_ge printed (descrLen option.description) with before | behind
    · obtain ⟨length,ran,split⟩ := printRound_counted maxFlagW option ⟨printed,earlier⟩ short before
      rw [iterate,ran] at ends
      dsimp only at ends split
      rcases Nat.lt_or_ge (printed + length) (2^32) with unwrapped | wraps
      · rw [Nat.mod_eq_of_lt unwrapped] at ends
        rcases ih _ _ ends with ⟨lines,final,rest⟩ | ⟨less,fewer,again⟩
        · exact .inl ⟨_,final,.next printed length lines final before split unwrapped rest⟩
        · exact .inr ⟨less,Nat.lt_succ_of_lt fewer,again⟩
      · have inside := split.inside before
        have counted := descrLen_lt option.description
        have start : (printed + length) % 2^32 = 0 := by omega
        rw [start] at ends
        exact .inr ⟨fuel,Nat.lt_succ_self fuel,_,ends⟩
    · exact .inl ⟨[],printed,.done printed behind⟩

theorem exists_chain (short : maxFlagW < 36) (fuel : Nat) (earlier : List Line) (result : Except Halt (List Line))
    (ends : iterate (printRound maxFlagW option) fuel ⟨0,earlier⟩ = some result) :
    ∃ lines final, Chain maxFlagW option 0 lines final := by
  induction fuel using Nat.strongRecOn generalizing earlier with
  | _ fuel ih =>
    rcases iterate_chain short fuel 0 earlier result ends with chain | ⟨less,fewer,lines,again⟩
    · exact chain
    · exact ih less fewer lines again

theorem printOption_chain (short : maxFlagW < 36) (fuel : Nat) (result : Except Halt (List Line))
    (ends : (printOption fuel maxFlagW option).run = some result) :
    ∃ lines final, Chain maxFlagW option 0 lines final ∧ result = .ok lines := by
  obtain ⟨lines,final,chain⟩ := exists_chain short fuel [] result ends
  obtain ⟨enough,reaches⟩ := chain.iterates short
  exact ⟨lines,final,chain,iterate_unique _ fuel enough _ _ _ ends (reaches [])⟩

theorem Chain.pieces {printed final : Nat} {lines : List Line} (chain : Chain maxFlagW option printed lines final) :
    option.description.val.take printed ++ lines.flatMap Line.piece = option.description.val.take final := by
  induction chain with
  | done printed behind => exact List.append_nil _
  | next printed length lines final before split unwrapped rest ih =>
    rw [← ih,List.flatMap_cons,← List.append_assoc,List.take_add]
    rfl

theorem Chain.behind {printed final : Nat} {lines : List Line} (chain : Chain maxFlagW option printed lines final) :
    descrLen option.description ≤ final := by
  induction chain with
  | done printed behind => exact behind
  | next printed length lines final before split unwrapped rest ih => exact ih

theorem Chain.small {printed final : Nat} {lines : List Line} (chain : Chain maxFlagW option printed lines final)
    (start : printed < 2^32) : final < 2^32 := by
  induction chain with
  | done printed behind => exact start
  | next printed length lines final before split unwrapped rest ih => exact ih unwrapped

theorem chain_of_progress (short : maxFlagW < 36) (invariant : Nat → Prop)
    (each : ∀ printed length, invariant printed → printed < descrLen option.description →
      SplitAt maxFlagW option.description printed length →
        0 < length ∧ printed + length < 2^32 ∧ invariant (printed + length))
    (printed : Nat) (initial : invariant printed) :
    ∃ lines final, Chain maxFlagW option printed lines final ∧ invariant final := by
  induction bound : descrLen option.description - printed using Nat.strongRecOn generalizing printed with
  | _ left ih =>
    rcases Nat.lt_or_ge printed (descrLen option.description) with before | behind
    · obtain ⟨length,_,split⟩ := printRound_counted maxFlagW option ⟨printed,[]⟩ short before
      obtain ⟨occupied,unwrapped,kept⟩ := each printed length initial before split
      obtain ⟨lines,final,rest,holds⟩ := ih _ (by omega) (printed + length) kept rfl
      exact ⟨_,final,.next printed length lines final before split unwrapped rest,holds⟩
    · exact ⟨[],printed,.done printed behind,initial⟩

structure Prints (maxFlagW : Nat) (option : OptionEntry) : Prop where
  whole : ∃ fuel lines, (printOption fuel maxFlagW option).run = some (.ok lines) ∧
    lines.flatMap Line.piece = option.description.val
  progress : ∀ rounds printed next, Run (Goes (printRound maxFlagW option)) {} rounds printed →
    printRound maxFlagW option printed = .inr next → printed.substrLen < next.substrLen

theorem prints_of_progress (short : maxFlagW < 36) (invariant : Nat → Prop) (initial : invariant 0)
    (each : ∀ printed length, invariant printed → printed < descrLen option.description →
      SplitAt maxFlagW option.description printed length →
        0 < length ∧ printed + length < 2^32 ∧ invariant (printed + length))
    (few : option.description.val.length < 2^32) : Prints maxFlagW option := by
  constructor
  · obtain ⟨lines,final,chain,_⟩ := chain_of_progress short invariant each 0 initial
    obtain ⟨fuel,ends⟩ := chain.iterates short
    have behind := chain.behind
    rw [descrLen_bounded _ few] at behind
    refine ⟨fuel,lines,ends [],?_⟩
    have pieces := chain.pieces
    rw [List.take_zero,List.nil_append,List.take_of_length_le behind] at pieces
    exact pieces
  · intro rounds printed next run goes
    have reached : invariant printed.substrLen := by
      apply Run.invariant (fun _ printed => invariant printed.substrLen) initial _ run
      intro rounds printed round next holds goes
      obtain ⟨length,before,rfl,split⟩ := goes_counted maxFlagW option printed next short goes
      obtain ⟨_,unwrapped,kept⟩ := each _ length holds before split
      dsimp only
      rw [Nat.mod_eq_of_lt unwrapped]
      exact kept
    obtain ⟨length,before,rfl,split⟩ := goes_counted maxFlagW option printed next short goes
    obtain ⟨occupied,unwrapped,_⟩ := each _ length reached before split
    dsimp only
    rw [Nat.mod_eq_of_lt unwrapped]
    exact Nat.lt_add_of_pos_right occupied

/-- Every piece ends in the full window before it, and the last one at the end of the text. -/
inductive ComesOut (width : Nat) : List Char → Prop
  | nil : ComesOut width []
  | next (piece : List Char) (c : Char) (gap rest : List Char) (candidate : isLineSplitCandidate c = true)
      (plain : ∀ c ∈ gap, isLineSplitCandidate c = false) (full : piece.length + 1 + gap.length = width)
      (after : ComesOut width (gap ++ rest)) : ComesOut width (piece ++ c :: (gap ++ rest))

/-- Behind a description of the largest length `PrintedSubstrLen` must not come past its terminator. -/
def Splittable (maxFlagW : Nat) (text : List Char) : Prop :=
  (text.length + 1 < 2^32 ∧ ∀ run, ¬ Unsplittable (maxSubstrLen maxFlagW) text run) ∨
    (text.length + 1 = 2^32 ∧ ComesOut (maxSubstrLen maxFlagW) text)

theorem splits_at (text : CString) (before behind : List Char) (c : Char) (whole : text.val = before ++ c :: behind) :
    splits text before.length = isLineSplitCandidate c := by
  rw [splits,whole,List.getD_eq_getElem?_getD,List.getElem?_append_right le_rfl,Nat.sub_self]
  rfl

theorem split_of_window (text : CString) (width printed : Nat) (piece gap rest : List Char) (c : Char)
    (left : text.val.drop printed = piece ++ c :: (gap ++ rest)) (inside : printed ≤ text.val.length)
    (candidate : isLineSplitCandidate c = true) (plain : ∀ c ∈ gap, isLineSplitCandidate c = false)
    (full : piece.length + 1 + gap.length = width) : Split text width printed (piece.length + 1) := by
  have whole : text.val = (text.val.take printed ++ piece) ++ c :: (gap ++ rest) := by
    rw [List.append_assoc,← left,List.take_append_drop]
  have size := congrArg List.length whole
  simp only [List.length_append,List.length_cons,List.length_take,Nat.min_eq_left inside] at size
  refine ⟨by omega,by omega,?_,?_⟩
  · intro _
    have place := splits_at text (text.val.take printed ++ piece) (gap ++ rest) c whole
    rw [List.length_append,List.length_take,Nat.min_eq_left inside] at place
    exact place.trans candidate
  · intro idx from_ to_
    have parted : text.val = (text.val.take printed ++ piece ++ [c]) ++ gap ++ rest := by
      rw [List.append_assoc _ gap,List.append_assoc _ [c]]
      exact whole
    have before : (text.val.take printed ++ piece ++ [c]).length = printed + piece.length + 1 := by
      rw [List.length_append,List.length_append,List.length_take,Nat.min_eq_left inside,List.length_singleton]
    exact splits_run text _ gap rest parted idx (by omega) (by omega) plain

theorem ComesOut.round {width printed length : Nat} {text : CString} (out : ComesOut width (text.val.drop printed))
    (before : printed < text.val.length)
    (split : Split text (min width (text.val.length - printed + 1)) printed length) :
    0 < length ∧ printed + length ≤ text.val.length ∧ ComesOut width (text.val.drop (printed + length)) := by
  generalize left : text.val.drop printed = rest at out
  have size := congrArg List.length left
  rw [List.length_drop] at size
  cases out with
  | nil =>
    rw [List.length_nil] at size
    omega
  | next piece c gap rest candidate plain full after =>
    simp only [List.length_append,List.length_cons] at size
    have window : min width (text.val.length - printed + 1) = width := by omega
    rw [window] at split
    have same := Split.unique split (split_of_window text width printed piece gap rest c left before.le candidate plain full)
    have behind : text.val.drop (printed + length) = gap ++ rest := by
      rw [← List.drop_drop,left,same,← List.singleton_append,← List.append_assoc]
      exact List.drop_left' (List.length_append.trans rfl)
    rw [behind]
    exact ⟨by omega,by omega,after⟩

theorem prints_of_splittable (short : maxFlagW < 36) (splittable : Splittable maxFlagW option.description.val) :
    Prints maxFlagW option := by
  unfold Splittable at splittable
  rw [maxSubstrLen_short maxFlagW short] at splittable
  rcases splittable with ⟨bounded,plain⟩ | ⟨huge,out⟩
  · apply prints_of_progress short (fun _ => True) trivial _ (by omega)
    intro printed length _ before split
    have inside := split.inside before
    rw [SplitAt,descrLen_bounded _ (by omega)] at split
    rw [descrLen_bounded _ (by omega)] at before inside
    exact ⟨Split.occupied _ _ _ _ before plain split,by omega,trivial⟩
  · apply prints_of_progress short (fun printed => ComesOut (76 - maxFlagW) (option.description.val.drop printed)) out _
      (by omega)
    intro printed length out before split
    rw [SplitAt,descrLen_bounded _ (by omega)] at split
    rw [descrLen_bounded _ (by omega)] at before
    obtain ⟨occupied,inside,rest⟩ := out.round before split
    exact ⟨occupied,by omega,rest⟩

theorem Chain.le {printed final : Nat} {lines : List Line} (chain : Chain maxFlagW option printed lines final) :
    printed ≤ final := by
  induction chain with
  | done printed behind => exact le_rfl
  | next printed length lines final before split unwrapped rest ih => exact (Nat.le_add_right _ _).trans ih

/-- A chain that ends with the last character, and not with the terminator behind it. -/
theorem Chain.comesOut (few : option.description.val.length < 2^32) {printed final : Nat} {lines : List Line}
    (chain : Chain maxFlagW option printed lines final) (inside : final ≤ option.description.val.length) :
    ComesOut (76 - maxFlagW) (option.description.val.drop printed) := by
  induction chain with
  | done printed behind =>
    rw [descrLen_bounded _ few] at behind
    rw [List.drop_of_length_le behind]
    exact .nil
  | next printed length lines final before split unwrapped rest ih =>
    have after := ih inside
    rw [SplitAt,descrLen_bounded _ few] at split
    rw [descrLen_bounded _ few] at before
    rcases Nat.eq_zero_or_pos length with rfl | occupied
    · exact after
    · have past := rest.le
      have window : 76 - maxFlagW ≤ option.description.val.length - printed := by
        by_contra short
        have stop := split.last option.description.val.length (by omega) (by omega)
        rw [splits_terminator] at stop
        cases stop
      have last : printed + (length - 1) < option.description.val.length := by omega
      have next : printed + (length - 1) + 1 = printed + length := by omega
      have place := split.candidate occupied
      rw [Nat.add_sub_assoc occupied,splits_inside _ _ last] at place
      have plain := window_plain option.description (printed + length) (76 - maxFlagW - length)
        fun idx from_ to_ => split.last idx from_ (by omega)
      have within := split.within
      rw [← List.take_append_drop (76 - maxFlagW - length) (option.description.val.drop (printed + length))] at after
      have out := ComesOut.next ((option.description.val.drop printed).take (length - 1)) _ _ _ place plain
        (by rw [List.length_take,List.length_take,List.length_drop,List.length_drop]; omega) after
      rw [List.take_append_drop,← next,← List.drop_eq_getElem_cons last,← List.drop_drop,List.take_append_drop] at out
      exact out

theorem splittable_of_whole (short : maxFlagW < 36) (fuel : Nat) (lines : List Line)
    (ends : (printOption fuel maxFlagW option).run = some (.ok lines))
    (whole : lines.flatMap Line.piece = option.description.val) : Splittable maxFlagW option.description.val := by
  obtain ⟨others,final,chain,same⟩ := printOption_chain short fuel (.ok lines) ends
  cases same
  have few := chain.small (by decide)
  have all := congrArg List.length chain.pieces
  rw [List.take_zero,List.nil_append,whole,List.length_take] at all
  rcases Nat.lt_or_eq_of_le (show option.description.val.length + 1 ≤ 2^32 by omega) with bounded | huge
  · exact .inl ⟨bounded,(ends_iff maxFlagW option short bounded).mp ⟨fuel,lines,ends⟩⟩
  · refine .inr ⟨huge,?_⟩
    rw [maxSubstrLen_short maxFlagW short]
    exact chain.comesOut (by omega) (by omega)

theorem wide_enough (short : maxFlagW < 36) (message : String) :
    assert (decide (40 < maxSubstrLen maxFlagW)) message = .ok () := by
  rw [maxSubstrLen_short maxFlagW short]
  exact if_pos (decide_eq_true (by omega))

end Rounds

/-! The options one behind the other. -/

section Pieces
variable {α β : Type}

theorem length_of_pieces (whole : β → List α) (items : List β) (pieces : List (List α))
    (each : List.Forall₂ (fun item piece => piece <+: whole item) items pieces) :
    pieces.flatten.length ≤ (items.flatMap whole).length := by
  induction each with
  | nil => exact le_rfl
  | cons head rest ih =>
    rw [List.flatten_cons,List.flatMap_cons,List.length_append,List.length_append]
    exact Nat.add_le_add head.length_le ih

theorem whole_of_pieces (whole : β → List α) (items : List β) (pieces : List (List α))
    (each : List.Forall₂ (fun item piece => piece <+: whole item) items pieces)
    (all : pieces.flatten = items.flatMap whole) : List.Forall₂ (fun item piece => piece = whole item) items pieces := by
  induction each with
  | nil => exact .nil
  | @cons item piece items pieces head rest ih =>
    rw [List.flatten_cons,List.flatMap_cons] at all
    have size := congrArg List.length all
    have later := length_of_pieces whole items pieces rest
    have first := head.length_le
    rw [List.length_append,List.length_append] at size
    have same := head.eq_of_length (by omega)
    rw [same] at all
    exact .cons same (ih (List.append_cancel_left all))

end Pieces

theorem printAllOptions_ok (fuel : Nat) (options : List OptionEntry) (groups : List (List Line))
    (short : maxFlagW options < 36)
    (each : List.Forall₂ (fun option group => (printOption fuel (maxFlagW options) option).run = some (.ok group))
      options groups) : (printAllOptions fuel options).run = some (.ok groups.flatten) := by
  unfold printAllOptions
  generalize maxFlagW options = width at short each
  suffices all : ∀ earlier, (List.foldlM _ earlier options : ExceptT Halt Option _).run =
      some (.ok (earlier ++ groups.flatten)) from all []
  induction each with
  | nil =>
    intro earlier
    rw [List.flatten_nil,List.append_nil]
    rfl
  | @cons option group options groups printed rest ih =>
    intro earlier
    rw [List.foldlM_cons,List.flatten_cons,← List.append_assoc]
    have head : (do
        ExceptT.mk (some (assert (decide (40 < maxSubstrLen width))
          "Some flag is too long! We need at least 40 columns for the description."))
        return earlier ++ (← printOption fuel width option) : ExceptT Halt Option (List Line)).run =
          some (.ok (earlier ++ group)) := by
      rw [wide_enough short,ExceptT.run_bind]
      change (printOption fuel width option >>= _).run = _
      rw [ExceptT.run_bind,printed]
      rfl
    rw [ExceptT.run_bind,head]
    exact ih (earlier ++ group)

theorem printAllOptions_error (fuel : Nat) (options : List OptionEntry) (short : maxFlagW options < 36) (halt : Halt)
    (ends : (printAllOptions fuel options).run = some (.error halt)) :
    ∃ option ∈ options, (printOption fuel (maxFlagW options) option).run = some (.error halt) := by
  unfold printAllOptions at ends
  generalize maxFlagW options = width at short ends
  suffices all : ∀ earlier, (List.foldlM _ earlier options : ExceptT Halt Option _).run = some (.error halt) →
      ∃ option ∈ options, (printOption fuel width option).run = some (.error halt) from all [] ends
  clear ends
  induction options with
  | nil =>
    intro earlier ends
    cases ends
  | cons option options ih =>
    intro earlier ends
    rw [List.foldlM_cons] at ends
    rcases option_bind_error _ _ _ ends with head | ⟨_,_,rest⟩
    · rw [wide_enough short] at head
      rcases option_bind_error _ _ _ head with wide | ⟨_,_,body⟩
      · cases wide
      · rcases option_bind_error _ _ _ body with stopped | ⟨_,_,added⟩
        · exact ⟨option,List.mem_cons_self,stopped⟩
        · cases added
    · obtain ⟨other,member,stopped⟩ := ih _ rest
      exact ⟨other,List.mem_cons_of_mem _ member,stopped⟩

structure Terminates (options : List OptionEntry) : Prop where
  ends : ∃ fuel result, (printAllOptions fuel options).run = some result ∧
    (result = .error (.assertion "Please fix the option description. It cannot be split to fit 80-columns.") ∨
      ∃ lines, result = .ok lines ∧ lines.flatMap Line.piece = options.flatMap fun option => option.description.val)
  progress : ∀ option ∈ options, ∀ rounds printed next,
    Run (Goes (printRound (maxFlagW options) option)) {} rounds printed →
      printRound (maxFlagW options) option printed = .inr next → printed.substrLen < next.substrLen

theorem exists_groups (width : Nat) (options : List OptionEntry) (prints : ∀ option ∈ options, Prints width option) :
    ∃ fuel groups,
      List.Forall₂ (fun option group => (printOption fuel width option).run = some (.ok group)) options groups ∧
        groups.flatten.flatMap Line.piece = options.flatMap fun option => option.description.val := by
  induction options with
  | nil => exact ⟨0,[],.nil,rfl⟩
  | cons option options ih =>
    obtain ⟨fuel,groups,each,whole⟩ := ih fun other member => prints other (List.mem_cons_of_mem _ member)
    obtain ⟨enough,lines,ends,own⟩ := (prints option List.mem_cons_self).whole
    refine ⟨fuel + enough,lines :: groups,.cons ?_ ?_,?_⟩
    · exact iterate_mono _ enough _ (Nat.le_add_left _ _) _ _ ends
    · exact each.imp fun option group printed => iterate_mono _ fuel _ (Nat.le_add_right _ _) _ _ printed
    · rw [List.flatten_cons,List.flatMap_append,own,whole,List.flatMap_cons]

theorem terminates_of_prints (options : List OptionEntry) (short : maxFlagW options < 36)
    (prints : ∀ option ∈ options, Prints (maxFlagW options) option) : Terminates options := by
  obtain ⟨fuel,groups,each,whole⟩ := exists_groups (maxFlagW options) options prints
  refine ⟨⟨fuel,_,printAllOptions_ok fuel options groups short each,.inr ⟨_,rfl,whole⟩⟩,?_⟩
  exact fun option member => (prints option member).progress

theorem printOption_pieces (width fuel : Nat) (option : OptionEntry) (short : width < 36) (lines : List Line)
    (ends : (printOption fuel width option).run = some (.ok lines)) :
    lines.flatMap Line.piece <+: option.description.val := by
  obtain ⟨others,final,chain,same⟩ := printOption_chain short fuel (.ok lines) ends
  cases same
  have pieces := chain.pieces
  rw [List.take_zero,List.nil_append] at pieces
  rw [pieces]
  exact List.take_prefix _ _

theorem splittable_of_terminates (options : List OptionEntry) (short : maxFlagW options < 36)
    (terminates : Terminates options) : ∀ option ∈ options, Splittable (maxFlagW options) option.description.val := by
  obtain ⟨fuel,result,ends,rfl | ⟨lines,rfl,whole⟩⟩ := terminates.ends
  · obtain ⟨option,_,stopped⟩ := printAllOptions_error fuel options short _ ends
    obtain ⟨_,_,_,other⟩ := printOption_chain short fuel _ stopped
    cases other
  · obtain ⟨groups,rfl,each⟩ := printAllOptions_groups fuel options lines ends
    have pieces : List.Forall₂ (fun option piece => piece <+: option.description.val) options
        (groups.map (List.flatMap Line.piece)) := by
      rw [List.forall₂_map_right_iff]
      exact each.imp fun option group => printOption_pieces _ fuel option short group
    have all : (groups.map (List.flatMap Line.piece)).flatten = options.flatMap fun option => option.description.val := by
      rw [← whole,List.flatMap_def,List.map_flatten,List.flatten_flatten,List.map_map]
      rfl
    have wholes := whole_of_pieces _ options _ pieces all
    rw [List.forall₂_map_right_iff] at wholes
    clear ends whole pieces all terminates
    generalize maxFlagW options = width at short each ⊢
    induction each with
    | nil => exact nofun
    | cons printed each ih =>
      cases wholes with
      | cons own rest =>
        intro option member
        rcases List.mem_cons.mp member with rfl | later
        · exact splittable_of_whole short fuel _ printed own
        · exact ih rest option later

theorem options_terminate_iff (options : List OptionEntry) (short : maxFlagW options < 36) :
    Terminates options ↔ ∀ option ∈ options, Splittable (maxFlagW options) option.description.val := by
  constructor
  · exact splittable_of_terminates options short
  · intro splittable
    exact terminates_of_prints options short fun option member => prints_of_splittable short (splittable option member)

theorem splittable_of_windows (width : Nat) (text : List Char)
    (windows : (List.range (text.length + 1 - width)).all
      (fun from_ => ((text.drop from_).take width).any isLineSplitCandidate) = true) :
    ∀ run, ¬ Unsplittable width text run := by
  rintro run ⟨⟨before,behind,rfl⟩,long,plain⟩
  have inside : before.length < (before ++ run ++ behind).length + 1 - width := by
    rw [List.length_append,List.length_append]
    omega
  have window : ((before ++ run ++ behind).drop before.length).take width = run := by
    rw [List.append_assoc,List.drop_left,← long,List.take_left]
  have split := List.all_eq_true.mp windows before.length (List.mem_range.mpr inside)
  rw [window] at split
  obtain ⟨c,member,candidate⟩ := List.any_eq_true.mp split
  rw [plain c member] at candidate
  cases candidate

set_option maxRecDepth 2000 in
theorem forceInjectToBit_terminates : Terminates [forceInjectToBit] := by
  apply (options_terminate_iff [forceInjectToBit] (by decide)).mpr
  intro option member
  rw [List.mem_singleton] at member
  subst member
  exact .inl ⟨by decide,splittable_of_windows _ _ (by decide)⟩

def oneWord : OptionEntry := ⟨⟨"-x".toList,by decide⟩,⟨List.replicate 80 'a',by decide⟩⟩

theorem oneWord_round (printed : Printed) (start : printed.substrLen = 0) :
    printRound 2 oneWord printed = .inr ⟨0,printed.lines ++ [lineAt 2 oneWord 0 0]⟩ := by
  have ran : printLine 2 oneWord 0 = .ok (lineAt 2 oneWord 0 0,0) := by decide
  rw [printRound,start,if_pos (by decide),ran]
  rfl

theorem oneWord_endless : maxFlagW [oneWord] < 36 ∧ (∀ fuel, (printAllOptions fuel [oneWord]).run = none) ∧
    ¬ Terminates [oneWord] := by
  have never : ∀ fuel, (printAllOptions fuel [oneWord]).run = none := by
    intro fuel
    have loops : (printOption fuel 2 oneWord).run = none :=
      iterate_endless _ (fun printed => printed.substrLen = 0)
        (fun printed start => ⟨_,oneWord_round printed start,rfl⟩) {} rfl fuel
    rcases run : (printAllOptions fuel [oneWord]).run with _ | halt | lines
    · rfl
    · obtain ⟨option,member,stopped⟩ := printAllOptions_error fuel [oneWord] (by decide) halt run
      rw [List.mem_singleton] at member
      subst member
      cases loops.symm.trans stopped
    · obtain ⟨groups,_,each⟩ := printAllOptions_groups fuel [oneWord] lines run
      cases each with
      | cons printed rest => cases loops.symm.trans printed
  refine ⟨by decide,never,?_⟩
  intro terminates
  obtain ⟨fuel,result,ends,_⟩ := terminates.ends
  cases (never fuel).symm.trans ends

end Zofi.WrappingEnds
