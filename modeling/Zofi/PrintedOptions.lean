import Zofi.Lib.Lines
import Zofi.Lib.Triple
import Zofi.OptionNumbers
import Zofi.Startup

/-! Starting the program again with the options that it has printed. -/
namespace Zofi.PrintedOptions
open Keyed Lines Numerals Sys WrittenNumbers
open Model.Utils Model.OptionsParser Model.Options Model.Startup Model.Printing CommandWords Startup

variable {ρ : Type}

/-! Reading the lines. -/

def readOption (line : List Char) : List Char × List Char :=
  let body := line.tail
  (body.takeWhile (· != ' '),((body.dropWhile (· != ' ')).dropWhile (· == ' ')).drop 2)

def itemOf (opt : Opt) (inner : opt ≠ .args) (text : String) : Item :=
  if takes : opt.type.needsValue = true then .value opt text takes inner else .flag opt (by simpa using takes)

/-- The words to give for a line; a line of -args is kept for the end. -/
def rowWords (row : List Char × List Char) : List String :=
  match optionsMap.lookup (String.ofList row.1) with
  | none => [String.ofList row.1]
  | some opt =>
    if opt = .args then []
    else if opt.type.needsValue then [opt.flag,String.ofList row.2]
    else [opt.flag]

def closingOf (rows : List (List Char × List Char)) : Option (List String) :=
  (rows.find? fun row => row.1 == Opt.args.flag.toList).map fun row => (lines ' ' row.2).map String.ofList

def rowsOf (text : List Char) : List (List Char × List Char) := (lines '\n' text).map readOption

def retyped (text : List Char) : List String :=
  (rowsOf text).flatMap rowWords ++ closingWords (closingOf (rowsOf text))

theorem itemOf_opt (opt : Opt) (inner : opt ≠ .args) (text : String) : (itemOf opt inner text).opt = opt := by
  unfold itemOf
  split <;> rfl

def rowItem (row : List Char × List Char) : Option Item :=
  match optionsMap.lookup (String.ofList row.1) with
  | none => none
  | some opt => if args : opt = .args then none else some (itemOf opt args (String.ofList row.2))

def Known (row : List Char × List Char) : Prop := (optionsMap.lookup (String.ofList row.1)).isSome = true

theorem rowWords_known (row : List Char × List Char) (known : Known row) :
    rowWords row = (rowItem row).toList.flatMap Item.words := by
  unfold Known at known
  unfold rowWords rowItem
  cases found : optionsMap.lookup (String.ofList row.1) with
  | none => simp [found] at known
  | some opt =>
    by_cases args : opt = .args
    · simp [args]
    · simp only [args,if_false,dif_neg,not_false_eq_true,Option.toList_some,List.flatMap_singleton,itemOf]
      split <;> simp_all [Item.words]

variable {strtod : List Char → ρ × List Char}

theorem parseWords_rows (rows : List (List Char × List Char)) (closing : Option (List String)) (store store' : Store ρ) :
    exec (parseWords strtod (rows.flatMap rowWords ++ closingWords closing)) store = (.ok (),store') ↔
      (∀ row ∈ rows, Known row) ∧ (∀ item ∈ rows.filterMap rowItem, ∃ value, item.given strtod = .ok value) ∧
        store' = closed closing (assignAll Item.opt (Item.setting strtod) store (rows.filterMap rowItem)) := by
  induction rows generalizing store with
  | nil =>
    rw [List.flatMap_nil,List.nil_append,parseWords_closing]
    simp [assignAll,eq_comm]
  | cons row rows ih =>
    by_cases known : Known row
    · rw [List.flatMap_cons,rowWords_known row known,List.forall_mem_cons,List.filterMap_cons]
      cases reads : rowItem row with
      | none => simpa [known] using ih store
      | some item =>
        rw [Option.toList_some,List.flatMap_singleton,List.append_assoc,List.forall_mem_cons,assignAll_cons]
        cases converted : item.given strtod with
        | error halt => simp [parseWords_bad item halt _ store converted]
        | ok value =>
          rw [parseWords_item item value _ store converted,ih,Item.setting,converted]
          simp [known]
    · refine iff_of_false (fun ran => ?_) fun all => known (all.1 row List.mem_cons_self)
      have unknown : optionsMap.lookup (String.ofList row.1) = none :=
        Option.not_isSome_iff_eq_none.mp known
      rw [List.flatMap_cons,rowWords,unknown,List.singleton_append,List.cons_append,parseWords,unknown] at ran
      cases ran

/-! What is printed. -/

def Clean : Value ρ → Prop
  | .chars value => '\n' ∉ (value.getD "").toList
  | .string value => '\n' ∉ value.toList
  | .words value => ∀ word ∈ value.getD [], ' ' ∉ word.toList ∧ '\n' ∉ word.toList
  | .int _ | .unsigned _ | .unsignedLong _ | .bool _ | .double _ => True

structure Legible (strtod : List Char → ρ × List Char) (showDouble : ρ → String) (value : Value ρ) : Prop where
  clean : Clean value
  survives : ∀ x, value = .double x → strtodSafe strtod (showDouble x) = .ok x

def Settable : Value ρ → Prop
  | .chars value => value.isSome = true
  | .words value => value.isSome = true
  | .bool value => value = true
  | .int _ | .unsigned _ | .unsignedLong _ | .string _ | .double _ => True

structure Entered (strtod : List Char → ρ × List Char) (opt : Opt) (setting : Setting ρ) : Prop where
  typed : Typed opt.type setting.val
  initial : setting.isSet = false → setting = {val := opt.initVal strtod}
  settable : setting.isSet = true → Settable setting.val

theorem text_one (item : Item) (type : item.opt.type = .bool) : item.text = "1" := by
  cases item with
  | flag opt switch => rfl
  | value opt word takes inner =>
    have type : opt.type = .bool := type
    rw [type] at takes
    cases takes

theorem given_settable (item : Item) (value : Value ρ) (read : item.given strtod = .ok value) : Settable value := by
  have bool := text_one item
  unfold Item.given at read
  cases type : item.opt.type <;> rw [type] at read <;> simp only [getValForStr] at read
  case bool =>
    rw [bool type] at read
    obtain rfl := Except.ok.inj read
    rfl
  case words => cases read
  case int | unsigned | unsignedLong | double =>
    obtain ⟨_,_,rest⟩ := except_bind_ok _ _ _ read
    obtain rfl := Except.ok.inj rest
    trivial
  case chars | string =>
    obtain rfl := Except.ok.inj read
    trivial

theorem initial_entered (opt : Opt) : Entered strtod opt (initial strtod opt) :=
  ⟨initial_typed strtod opt,fun _ => rfl,nofun⟩

theorem parse_entered (argv : List String) : Triple (fun _ => True) (Kept (Entered strtod)) (parse strtod argv)
    fun _ store => Kept (Entered strtod) store ∧ sanityChecks (commandLine store) = .ok () ∧
      helpMessages (commandLine store) = .ok () := by
  refine parse_kept strtod (Entered strtod) (fun item value read => ?_) (fun words => ?_) argv
  · exact ⟨getValForStr_typed strtod item.text item.opt.type value read,nofun,
      fun _ => given_settable item value read⟩
  · exact ⟨trivial,nofun,fun _ => rfl⟩

theorem limited_entered (machine : Machine) (store : Store ρ) (entered : Kept (Entered strtod) store) :
    Kept (Entered strtod) (limited machine store) := by
  intro opt
  by_cases jobs : opt = .jobs
  · subst jobs
    unfold limited
    split
    · rw [Function.update_self]
      exact ⟨machine.fits,nofun,fun _ => trivial⟩
    · exact entered .jobs
  · rw [limited_other machine store opt jobs]
    exact entered opt

theorem writes_natural (n : Nat) : Writes (Nat.toDigits 10 n) n := by
  refine ⟨[],.without,Nat.toDigits 10 n,rfl,List.forall_mem_nil _,Nat.toDigits_ne_nil,digits_decimal n,?_⟩
  rw [value_toDigits decDigit_reads (by omega)]
  rfl

theorem writes_int (n : Int) :
    Writes (if n < 0 then '-' :: Nat.toDigits 10 n.natAbs else Nat.toDigits 10 n.natAbs) n := by
  split
  next negative =>
    refine ⟨[],.minus,Nat.toDigits 10 n.natAbs,rfl,List.forall_mem_nil _,Nat.toDigits_ne_nil,digits_decimal _,?_⟩
    rw [value_toDigits decDigit_reads (by omega),Sign.apply]
    omega
  next natural =>
    obtain ⟨m,rfl⟩ := Int.eq_ofNat_of_zero_le (not_lt.mp natural)
    exact writes_natural m

theorem strtolSafe_int (n : Int) (low : -2^31 ≤ n) (high : n < 2^31) (showDouble : ρ → String) :
    strtolSafe (String.ofList (valueText showDouble (.int n))) = .ok n := by
  have text : Writes (String.ofList (valueText showDouble (.int n))).toList n := by
    rw [String.toList_ofList]
    exact writes_int n
  have read : strtolSafe _ = .ok (OptionNumbers.kept .long n) := OptionNumbers.getValForStr_writes .long _ n text nofun
  rw [read,(OptionNumbers.kept_iff .long n nofun).mpr ⟨by omega,by omega⟩]

theorem strtoulSafe_natural (n : Nat) (high : n < 2^64) : strtoulSafe (String.ofList (Nat.toDigits 10 n)) = .ok n := by
  have read := OptionNumbers.strtoul_natural _ n (writes_natural n) (Int.natCast_nonneg n)
  rw [strtoulSafe,convertSafe,String.toList_ofList,read]
  have whole : (min (n : Int) (2^64 - 1)).toNat = n := by omega
  exact (if_neg (by simp [Nat.toDigits_ne_nil])).trans (congrArg Except.ok whole)

theorem itemOf_text (opt : Opt) (inner : opt ≠ .args) (text : String) (takes : opt.type.needsValue = true) :
    (itemOf opt inner text).text = text := by
  unfold itemOf
  rw [dif_pos takes]
  rfl

theorem getValForStr_valueText (showDouble : ρ → String) (type : OptType) (value : Value ρ) (typed : Typed type value)
    (settable : Settable value) (legible : Legible strtod showDouble value) (takes : type.needsValue = true)
    (single : type ≠ .words) : getValForStr strtod (String.ofList (valueText showDouble value)) type = .ok value := by
  cases type <;> cases value <;> try exact typed.elim
  case int n =>
    rw [getValForStr,strtolSafe_int n typed.1 typed.2]
    have kept : n.bmod (2^32) = n := Int.bmod_eq_of_le (by have := typed.1; omega) (by have := typed.2; omega)
    exact congrArg (fun n => Except.ok (Value.int n)) kept
  case unsigned n =>
    have low : n < 2^32 := typed
    rw [getValForStr,valueText,strtoulSafe_natural n (by omega)]
    exact congrArg (fun n => Except.ok (Value.unsigned n)) (Nat.mod_eq_of_lt low)
  case unsignedLong n =>
    rw [getValForStr,valueText,strtoulSafe_natural n typed]
    rfl
  case bool => cases takes
  case chars text =>
    obtain ⟨text,rfl⟩ := Option.isSome_iff_exists.mp settable
    rw [getValForStr,valueText,Option.getD_some,String.ofList_toList]
    rfl
  case string text =>
    rw [getValForStr,valueText,String.ofList_toList]
    rfl
  case double x =>
    rw [getValForStr,valueText,String.ofList_toList,legible.survives x rfl]
    rfl
  case words => exact absurd rfl single

theorem itemOf_given (showDouble : ρ → String) (opt : Opt) (inner : opt ≠ .args) (setting : Setting ρ)
    (entered : Entered strtod opt setting) (set : setting.isSet = true)
    (legible : Legible strtod showDouble setting.val) :
    (itemOf opt inner (String.ofList (valueText showDouble setting.val))).given strtod = .ok setting.val := by
  have settable := entered.settable set
  unfold Item.given
  cases takes : opt.type.needsValue with
  | true =>
    rw [itemOf_text opt inner _ takes,itemOf_opt]
    exact getValForStr_valueText showDouble opt.type setting.val entered.typed settable legible takes
      fun words => inner (type_words opt words)
  | false =>
    have type : opt.type = .bool := by cases type : opt.type <;> rw [type] at takes <;> first | rfl | cases takes
    have typed := entered.typed
    rw [text_one _ ((congrArg Opt.type (itemOf_opt opt inner _)).trans type),itemOf_opt,type]
    rw [type] at typed
    cases val : setting.val <;> rw [val] at typed settable <;> try exact typed.elim
    obtain rfl : _ = true := settable
    rfl

/-! The lines that are printed. -/

section Printed

variable (showDouble : ρ → String) (store : Store ρ)

def optionLine (opt : Opt) : List Char :=
  ' ' :: (setwLeft 22 opt.flag.toList ++ (" = ".toList ++ valueText showDouble (store opt).val))

def printedRow (opt : Opt) : List Char × List Char := (opt.flag.toList,valueText showDouble (store opt).val)

def shown : List Opt := mapOrder.filter fun opt => (store opt).isSet

theorem mem_shown (opt : Opt) : opt ∈ shown store ↔ (store opt).isSet = true := by
  have listed : opt ∈ mapOrder := (List.perm_insertionSort _ registered).mem_iff.mpr (mem_registered opt)
  simp [shown,listed]

theorem flag_plain (opt : Opt) : ' ' ∉ opt.flag.toList ∧ '\n' ∉ opt.flag.toList := by cases opt <;> decide

theorem readOption_line (opt : Opt) : readOption (optionLine showDouble store opt) = printedRow showDouble store opt := by
  let rest := '=' :: ' ' :: valueText showDouble (store opt).val
  let blanks := List.replicate (22 - opt.flag.toList.length) ' ' ++ [' ']
  have body : (optionLine showDouble store opt).tail = opt.flag.toList ++ (blanks ++ rest) := by
    simp [optionLine,setwLeft,blanks,rest]
  have letters : ∀ c ∈ opt.flag.toList, (c != ' ') = true := fun c member =>
    bne_iff_ne.mpr fun blank => (flag_plain opt).1 (blank ▸ member)
  have spaces : ∀ c ∈ blanks, (c == ' ') = true := by
    intro c member
    rcases List.mem_append.mp member with padding | last
    · exact beq_iff_eq.mpr (List.eq_of_mem_replicate padding)
    · exact beq_iff_eq.mpr (List.mem_singleton.mp last)
  have ends : ∀ c ∈ (blanks ++ rest).head?, (c != ' ') = false := by
    intro c head
    have first : blanks ≠ [] := by simp [blanks]
    rw [List.head?_append_of_ne_nil _ first] at head
    simpa using spaces c (List.mem_of_mem_head? head)
  have stops : ∀ c ∈ rest.head?, (c == ' ') = false := by
    rintro c ⟨⟩
    rfl
  unfold readOption
  dsimp only
  rw [body,takeWhile_run _ _ _ letters ends,dropWhile_run _ _ _ letters ends,dropWhile_run _ _ _ spaces stops]
  rfl

theorem getValuesStr_lines : getValuesStr showDouble store =
    unlines '\n' ((shown store).map (optionLine showDouble store)) := by
  unfold getValuesStr shown
  induction mapOrder with
  | nil => rfl
  | cons opt opts ih =>
    rw [List.flatMap_cons,ih,dumpOption]
    cases set : (store opt).isSet <;> simp [set,unlines,optionLine]

variable {store} (plain : ∀ x, '\n' ∉ (showDouble x).toList)

include plain in
theorem valueText_plain (value : Value ρ) (clean : Clean value) : '\n' ∉ valueText showDouble value := by
  have digits (n : Nat) : '\n' ∉ Nat.toDigits 10 n := fun member => absurd (digits_decimal n _ member) (by decide)
  cases value with
  | int n =>
    rw [valueText]
    split <;> simp [digits]
  | unsigned n => exact digits n
  | unsignedLong n => exact digits n
  | bool value => cases value <;> simp [valueText]
  | chars value => exact clean
  | string value => exact clean
  | double x => exact plain x
  | words value => simpa [valueText] using fun word member => (clean word member).2

include plain in
theorem rowsOf_printed (clean : ∀ opt, (store opt).isSet = true → Clean (store opt).val) :
    rowsOf (getValuesStr showDouble store) = (shown store).map (printedRow showDouble store) := by
  have single : ∀ line ∈ (shown store).map (optionLine showDouble store), '\n' ∉ line := by
    rw [List.forall_mem_map]
    intro opt member
    have value := valueText_plain showDouble plain _ (clean opt ((mem_shown store opt).mp member))
    simp [optionLine,setwLeft,(flag_plain opt).2,value]
  have split := lines_unlines '\n' _ [] single
  rw [List.append_nil,lines,List.append_nil] at split
  rw [rowsOf,getValuesStr_lines,split,List.map_map]
  exact List.map_congr_left fun opt _ => readOption_line showDouble store opt

theorem lookup_row (opt : Opt) : optionsMap.lookup (String.ofList (printedRow showDouble store opt).1) = some opt := by
  rw [printedRow,String.ofList_toList]
  exact lookup_flag opt

theorem rowItem_args : rowItem (printedRow showDouble store .args) = none := by
  rw [rowItem,lookup_row]
  rfl

theorem rowItem_printed (opt : Opt) (inner : opt ≠ .args) : rowItem (printedRow showDouble store opt) =
    some (itemOf opt inner (String.ofList (valueText showDouble (store opt).val))) := by
  rw [rowItem,lookup_row]
  exact dif_neg inner

theorem mem_items (item : Item) : item ∈ ((shown store).map (printedRow showDouble store)).filterMap rowItem ↔
    ∃ opt, ∃ inner : opt ≠ .args, (store opt).isSet = true ∧
      item = itemOf opt inner (String.ofList (valueText showDouble (store opt).val)) := by
  rw [List.filterMap_map,List.mem_filterMap]
  constructor
  · rintro ⟨opt,member,reads⟩
    by_cases args : opt = .args
    · subst args
      cases (rowItem_args showDouble).symm.trans reads
    · exact ⟨opt,args,(mem_shown store opt).mp member,
        (Option.some.inj ((rowItem_printed showDouble opt args).symm.trans reads)).symm⟩
  · rintro ⟨opt,inner,set,rfl⟩
    exact ⟨opt,(mem_shown store opt).mpr set,rowItem_printed showDouble opt inner⟩

theorem flag_injective (one other : Opt) (same : one.flag = other.flag) : one = other :=
  Option.some.inj ((lookup_flag one).symm.trans ((congrArg (fun flag => optionsMap.lookup flag) same).trans (lookup_flag other)))

theorem closingOf_printed : closingOf ((shown store).map (printedRow showDouble store)) =
    if (store .args).isSet then some ((lines ' ' (valueText showDouble (store .args).val)).map String.ofList) else none := by
  have find : (shown store).find? (fun opt => opt.flag.toList == Opt.args.flag.toList) =
      if (store .args).isSet then some .args else none := by
    split
    next set =>
      exact find_key (fun opt : Opt => opt.flag.toList) (shown store) .args ((mem_shown store .args).mpr set)
        fun opt _ same => flag_injective opt .args (String.toList_inj.mp same)
    next unset =>
      refine List.find?_eq_none.mpr fun opt member same => unset ?_
      obtain rfl := flag_injective opt .args (String.toList_inj.mp (beq_iff_eq.mp same))
      exact (mem_shown store _).mp member
  rw [closingOf,List.find?_map]
  change Option.map _ (Option.map _ ((shown store).find? fun opt => opt.flag.toList == Opt.args.flag.toList)) = _
  rw [find]
  split <;> rfl

end Printed

section Reread

variable (showDouble : ρ → String) (store : Store ρ) (entered : Kept (Entered strtod) store)

theorem rowItem_plain (row : List Char × List Char) (item : Item) (reads : rowItem row = some item) (plain : '\n' ∉ row.2) :
    '\n' ∉ item.text.toList := by
  unfold rowItem at reads
  split at reads
  · cases reads
  next opt _ =>
    split at reads
    · cases reads
    next inner =>
      obtain rfl := Option.some.inj reads
      unfold itemOf
      split
      · simpa [Item.text] using plain
      · exact (by decide : '\n' ∉ "1".toList)

theorem given_clean (item : Item) (value : Value ρ) (read : item.given strtod = .ok value) (plain : '\n' ∉ item.text.toList) :
    Clean value := by
  unfold Item.given at read
  cases type : item.opt.type <;> rw [type] at read <;> simp only [getValForStr] at read
  case words => cases read
  case int | unsigned | unsignedLong | double | bool =>
    obtain ⟨_,_,rest⟩ := except_bind_ok _ _ _ read
    obtain rfl := Except.ok.inj rest
    trivial
  case chars | string =>
    obtain rfl := Except.ok.inj read
    exact plain

theorem reread_clean (text : List Char) (settled : Settled strtod ((rowsOf text).filterMap rowItem) (closingOf (rowsOf text)) store)
    (opt : Opt) (set : (store opt).isSet = true) : Clean (store opt).val := by
  have line : ∀ row ∈ rowsOf text, '\n' ∉ row.2 := by
    intro row member within
    obtain ⟨line,inside,rfl⟩ := List.mem_map.mp member
    refine lines_plain '\n' text line inside (List.mem_of_mem_tail ?_)
    exact (List.dropWhile_suffix _).subset ((List.dropWhile_suffix _).subset (List.mem_of_mem_drop within))
  by_cases args : opt = .args
  · subst args
    have kept := settled.args
    cases closing : closingOf (rowsOf text) with
    | none =>
      rw [closing] at kept
      rw [kept] at set
      cases set
    | some words =>
      rw [closing] at kept
      rw [kept]
      intro word member
      obtain ⟨row,found,rfl⟩ := Option.map_eq_some_iff.mp closing
      obtain ⟨piece,inside,rfl⟩ := List.mem_map.mp member
      rw [String.toList_ofList]
      exact ⟨lines_plain ' ' row.2 piece inside,fun within =>
        line row (List.mem_of_find?_eq_some found) (lines_subset ' ' row.2 piece inside within)⟩
  · by_cases mentioned : ∃ item ∈ (rowsOf text).filterMap rowItem, item.opt = opt
    · obtain ⟨item,last⟩ := exists_lastFor Item.opt opt _ mentioned
      obtain ⟨val,read,kept⟩ := settled.mentioned opt item last
      rw [kept]
      obtain ⟨before,after,split,_⟩ := last
      obtain ⟨row,member,reads⟩ := List.mem_filterMap.mp (split ▸ List.mem_append_cons_self : item ∈ _)
      exact given_clean item val read (rowItem_plain row item reads (line row member))
    · have kept := settled.unmentioned opt args fun item member same => mentioned ⟨item,member,same⟩
      rw [kept] at set
      cases set

variable (plain : ∀ x, '\n' ∉ (showDouble x).toList)

theorem last_printed (opt : Opt) (inner : opt ≠ .args) (set : (store opt).isSet = true) :
    LastFor Item.opt opt (((shown store).map (printedRow showDouble store)).filterMap rowItem)
      (itemOf opt inner (String.ofList (valueText showDouble (store opt).val))) := by
  obtain ⟨item,last⟩ := exists_lastFor Item.opt opt (((shown store).map (printedRow showDouble store)).filterMap rowItem)
    ⟨_,(mem_items showDouble _).mpr ⟨opt,inner,set,rfl⟩,itemOf_opt opt inner _⟩
  obtain ⟨before,after,split,same,_⟩ := id last
  obtain ⟨other,args,_,rfl⟩ := (mem_items showDouble item).mp (by rw [split]; exact List.mem_append_cons_self)
  rw [itemOf_opt] at same
  subst same
  exact last

include entered in
theorem closing_kept (clean : ∀ opt, (store opt).isSet = true → Clean (store opt).val) :
    store .args = match closingOf ((shown store).map (printedRow showDouble store)) with
      | none => ⟨Opt.args.initVal strtod,false⟩
      | some words => ⟨.words (some words),true⟩ := by
  rw [closingOf_printed]
  obtain ⟨typed,initial,settable⟩ := entered .args
  have clean := clean .args
  generalize store .args = setting at typed initial settable clean
  obtain ⟨value,isSet⟩ := setting
  cases isSet with
  | false => exact initial rfl
  | true =>
    cases value with
    | words value =>
      obtain ⟨words,rfl⟩ := Option.isSome_iff_exists.mp (settable rfl)
      have apart : ∀ word ∈ words.map String.toList, ' ' ∉ word :=
        List.forall_mem_map.mpr fun word member => (clean rfl word member).1
      have read := lines_unlines ' ' (words.map String.toList) [] apart
      rw [List.append_nil,lines,List.append_nil,unlines,List.flatMap_map] at read
      rw [if_pos rfl,valueText,Option.getD_some,read,List.map_map]
      simp [Function.comp_def]
    | _ => exact typed.elim

include entered plain in
theorem survives_of_parsed (clean : ∀ opt, (store opt).isSet = true → Clean (store opt).val) (store' : Store ρ)
    (ran : exec (parseWords strtod (retyped (getValuesStr showDouble store))) (initial strtod) = (.ok (),store'))
    (opt : Opt) (set : (store opt).isSet = true) (same : store' opt = store opt) (x : ρ) (double : (store opt).val = .double x) :
    strtodSafe strtod (showDouble x) = .ok x := by
  rw [retyped,rowsOf_printed showDouble plain clean,parseWords_rows] at ran
  obtain ⟨-,numeric,whole⟩ := ran
  have settled := closed_settled _ (closingOf ((shown store).map (printedRow showDouble store))) numeric
  rw [← whole] at settled
  have type : opt.type = .double := by
    have typed := (entered opt).typed
    rw [double] at typed
    cases type : opt.type <;> rw [type] at typed <;> first | rfl | exact typed.elim
  have inner : opt ≠ .args := by
    rintro rfl
    cases type
  have takes : opt.type.needsValue = true := by rw [type]; rfl
  obtain ⟨val,read,kept⟩ := settled.mentioned opt _ (last_printed showDouble store opt inner set)
  rw [← same,kept] at double
  subst double
  rw [Item.given,itemOf_text opt inner _ takes,itemOf_opt,type,← same,kept,getValForStr,valueText,String.ofList_toList] at read
  obtain ⟨y,converted,rest⟩ := except_bind_ok _ _ _ read
  cases Except.ok.inj rest
  exact converted

include entered plain in
theorem parseWords_legible (legible : ∀ opt, (store opt).isSet = true → Legible strtod showDouble (store opt).val) :
    exec (parseWords strtod (retyped (getValuesStr showDouble store))) (initial strtod) = (.ok (),store) := by
  have clean (opt : Opt) (set : (store opt).isSet = true) := (legible opt set).clean
  rw [retyped,rowsOf_printed showDouble plain clean,parseWords_rows]
  have given (opt : Opt) (inner : opt ≠ .args) (set : (store opt).isSet = true) :=
    itemOf_given showDouble opt inner (store opt) (entered opt) set (legible opt set)
  have numeric : ∀ item ∈ ((shown store).map (printedRow showDouble store)).filterMap rowItem,
      ∃ value, item.given strtod = .ok value := by
    intro item member
    obtain ⟨opt,inner,set,rfl⟩ := (mem_items showDouble item).mp member
    exact ⟨_,given opt inner set⟩
  refine ⟨?_,numeric,funext fun opt => ?_⟩
  · rw [List.forall_mem_map]
    intro opt _
    rw [Known,lookup_row]
    rfl
  · have settled := closed_settled _ (closingOf ((shown store).map (printedRow showDouble store))) numeric
    by_cases args : opt = .args
    · subst args
      exact (closing_kept showDouble store entered clean).trans settled.args.symm
    · cases set : (store opt).isSet with
      | true =>
        obtain ⟨val,read,kept⟩ := settled.mentioned opt _ (last_printed showDouble store opt args set)
        rw [given opt args set] at read
        cases read
        rw [kept,← set]
      | false =>
        have unset : ∀ item ∈ ((shown store).map (printedRow showDouble store)).filterMap rowItem, item.opt ≠ opt := by
          rintro item member rfl
          obtain ⟨other,inner,shows,rfl⟩ := (mem_items showDouble item).mp member
          rw [itemOf_opt,shows] at set
          cases set
        rw [settled.unmentioned opt args unset]
        exact (entered opt).initial set

end Reread

theorem parse_parsed (program : String) (words : List String) (store : Store ρ)
    (ran : exec (parse strtod (program :: words)) (initial strtod) = (.ok (),store)) :
    exec (parseWords strtod words) (initial strtod) = (.ok (),store) := by
  obtain ⟨_,parsed,words,rest⟩ := bind_ok _ _ _ _ _ ran
  rw [exec_bind_of _ _ _ _ _ (exec_get parsed)] at rest
  obtain ⟨_,_,checked,rest⟩ := bind_ok _ _ _ _ _ rest
  obtain ⟨_,rfl⟩ := lift_ok _ _ _ _ checked
  obtain ⟨_,rfl⟩ := lift_ok _ _ _ _ rest
  exact words

/-- The options that the program prints when it starts make it start with the same settings, exactly
if each of them can be told from its line. -/
theorem init_retyped_iff (machine : Machine) (showDouble : ρ → String) (plain : ∀ x, '\n' ∉ (showDouble x).toList)
    (argv : List String) (program : String) (store : Store ρ)
    (accepted : exec (init machine strtod argv) (initial strtod) = (.ok true,store)) :
    exec (init machine strtod (program :: retyped (getValuesStr showDouble store))) (initial strtod) = (.ok true,store) ↔
      ∀ opt, (store opt).isSet = true → Legible strtod showDouble (store opt).val := by
  obtain ⟨parsed,ran,passes,same⟩ := (init_iff machine strtod argv _ store).mp accepted
  obtain ⟨entered,checked,helped⟩ := (parse_entered argv).ok initial_entered ran
  have others : ∀ opt ≠ .jobs, store opt = parsed opt := same ▸ limited_other machine parsed
  have entered : Kept (Entered strtod) store := same ▸ limited_entered machine parsed entered
  rw [init_iff]
  constructor
  · rintro ⟨again,ran,-,same⟩ opt set
    have kept : ∀ opt ≠ .jobs, again opt = store opt := fun opt other => by rw [same,limited_other machine again opt other]
    have words := parse_parsed program _ again ran
    have clean : ∀ opt, (store opt).isSet = true → Clean (store opt).val := by
      intro opt set
      by_cases jobs : opt = .jobs
      · subst jobs
        have typed := (entered .jobs).typed
        cases val : (store .jobs).val <;> rw [val] at typed <;> first | exact typed.elim | trivial
      · obtain ⟨-,numeric,whole⟩ := (parseWords_rows _ _ _ again).mp words
        have settled := closed_settled _ (closingOf (rowsOf (getValuesStr showDouble store))) numeric
        rw [← whole] at settled
        rw [← kept opt jobs] at set ⊢
        exact reread_clean again _ settled opt set
    refine ⟨clean opt set,fun x double => ?_⟩
    have other : opt ≠ .jobs := by
      rintro rfl
      have typed := (entered .jobs).typed
      rw [double] at typed
      exact typed.elim
    exact survives_of_parsed showDouble store entered plain clean again words opt set (kept opt other) x double
  · intro legible
    have words := parseWords_legible showDouble store entered plain legible
    have line := commandLine_same others
    refine ⟨store,?_,passes.same others,?_⟩
    · rw [exec_parse program _ store words,line,checked]
      exact congrArg (·,store) helped
    · rw [same,limited_limited]

def textOf (x : List Char) : String := String.ofList (x.filter fun c => c != '\n')

theorem textOf_plain (x : List Char) : '\n' ∉ (textOf x).toList := by simp [textOf]

theorem lsArgv_retyped : exec (init oneThread asWritten ("zofi" :: retyped (getValuesStr textOf (lsStore asWritten))))
    (initial asWritten) = (.ok true,lsStore asWritten) := by
  refine (init_retyped_iff oneThread textOf textOf_plain lsArgv "zofi" _ (lsArgv_init asWritten)).mpr fun opt set => ?_
  cases opt <;> try cases set
  case binary => exact ⟨(by decide : '\n' ∉ "/bin/ls".toList),fun x double => by cases double⟩
  case jobs => exact ⟨trivial,fun x double => by cases double⟩
  case forceInjectToReg => exact ⟨(by decide : '\n' ∉ "rax".toList),fun x double => by cases double⟩
  case forceInjectToBit => exact ⟨(by decide : '\n' ∉ "0".toList),fun x double => by cases double⟩
  case outCsvFile => exact ⟨(by decide : '\n' ∉ "out.csv".toList),fun x double => by cases double⟩

/-- The line end in a path is taken for the end of its line. -/
example : retyped (getValuesStr textOf (Function.update (initial asWritten) .stdout ⟨.string "a\nb",true⟩)) =
    ["-stdout-path","a",""] := by decide +kernel

end Zofi.PrintedOptions
