import Zofi.Lib.Keyed
import Zofi.Model.Options

/-! Which words of argv are flags and which are values: each step of parse() takes one word,
two words, or all that are left. -/
namespace Zofi.CommandWords
open Keyed Sys Model.Utils Model.OptionsParser Model.Options

variable {ρ : Type} {strtod : List Char → ρ × List Char}

inductive Item
  | flag (opt : Opt) (switch : opt.type.needsValue = false)
  | value (opt : Opt) (word : String) (takes : opt.type.needsValue = true) (inner : opt ≠ .args)

namespace Item

def opt : Item → Opt
  | flag opt _ => opt
  | value opt _ _ _ => opt

def text : Item → String
  | flag _ _ => "1"
  | value _ word _ _ => word

def words : Item → List String
  | flag opt _ => [opt.flag]
  | value opt word _ _ => [opt.flag,word]

def given (strtod : List Char → ρ × List Char) (item : Item) : Except Halt (Value ρ) :=
  getValForStr strtod item.text item.opt.type

def setting (strtod : List Char → ρ × List Char) (item : Item) : Setting ρ :=
  match item.given strtod with
  | .ok val => ⟨val,true⟩
  | .error _ => {val := item.opt.initVal strtod}

end Item

def closingWords : Option (List String) → List String
  | none => []
  | some words => Opt.args.flag :: words

def lineOf (items : List Item) (closing : Option (List String)) : List String :=
  items.flatMap Item.words ++ closingWords closing

theorem mem_registered (opt : Opt) : opt ∈ registered := by
  cases opt <;> decide

theorem registered_found : ∀ opt ∈ registered, optionsMap.lookup opt.flag = some opt := by decide +kernel

theorem lookup_flag (opt : Opt) : optionsMap.lookup opt.flag = some opt := registered_found opt (mem_registered opt)

theorem lookup_unregistered (word : String) (unregistered : ∀ opt : Opt, word ≠ opt.flag) :
    optionsMap.lookup word = none := by
  have keys : ∀ row ∈ optionsMap, row.1 = row.2.flag := by decide
  rw [List.lookup_eq_none_iff]
  intro row member
  rw [keys row member]
  exact bne_iff_ne.mpr (unregistered row.2)

theorem exec_setValueFromStr (opt : Opt) (text : String) (value : Value ρ) (store : Store ρ)
    (converted : getValForStr strtod text opt.type = .ok value) :
    exec (setValueFromStr strtod opt text) store = (.ok (),Function.update store opt ⟨value,true⟩) := by
  rw [setValueFromStr,exec_bind,exec_lift,converted]
  exact exec_modify _ _

theorem Item.inner (item : Item) : item.opt ≠ .args := by
  cases item with
  | flag opt switch =>
    rintro rfl
    cases switch
  | value opt word takes inner => exact inner

theorem parseWords_step (item : Item) (rest : List String) :
    parseWords strtod (item.words ++ rest) =
      (do setValueFromStr strtod item.opt item.text; parseWords strtod rest) := by
  cases item with
  | flag opt switch =>
    have inner : opt ≠ .args := (Item.flag opt switch).inner
    change parseWords strtod (opt.flag :: rest) = _
    rw [parseWords,lookup_flag]
    dsimp only
    rw [if_neg inner,switch,if_neg Bool.false_ne_true]
    rfl
  | value opt word takes inner =>
    change parseWords strtod (opt.flag :: word :: rest) = _
    rw [parseWords,lookup_flag]
    dsimp only
    rw [if_neg inner,takes,if_pos rfl]
    rfl

theorem parseWords_item (item : Item) (value : Value ρ) (rest : List String) (store : Store ρ)
    (converted : item.given strtod = .ok value) :
    exec (parseWords strtod (item.words ++ rest)) store =
      exec (parseWords strtod rest) (Function.update store item.opt ⟨value,true⟩) := by
  rw [parseWords_step]
  exact exec_bind_of _ _ _ _ _ (exec_setValueFromStr item.opt item.text value store converted)

theorem parseWords_bad (item : Item) (halt : Halt) (rest : List String) (store : Store ρ)
    (bad : item.given strtod = .error halt) : exec (parseWords strtod (item.words ++ rest)) store = (.error halt,store) := by
  have failed : getValForStr strtod item.text item.opt.type = .error halt := bad
  rw [parseWords_step,exec_bind,setValueFromStr,exec_bind,exec_lift,failed]

theorem parseWords_items (items : List Item) (rest : List String) (store : Store ρ)
    (numeric : ∀ item ∈ items, ∃ value, item.given strtod = .ok value) :
    exec (parseWords strtod (items.flatMap Item.words ++ rest)) store =
      exec (parseWords strtod rest) (assignAll Item.opt (Item.setting strtod) store items) := by
  induction items generalizing store with
  | nil => rfl
  | cons item items ih =>
    obtain ⟨⟨value,converted⟩,others⟩ := List.forall_mem_cons.mp numeric
    have setting : item.setting strtod = ⟨value,true⟩ := by rw [Item.setting,converted]
    rw [List.flatMap_cons,List.append_assoc,parseWords_item item value _ store converted,ih _ others,assignAll_cons,
      setting]

def closed (closing : Option (List String)) (store : Store ρ) : Store ρ :=
  match closing with
  | none => store
  | some words => Function.update store .args ⟨.words (some words),true⟩

theorem parseWords_closing (closing : Option (List String)) (store : Store ρ) :
    exec (parseWords strtod (closingWords closing)) store = (.ok (),closed closing store) := by
  cases closing with
  | none => rfl
  | some words =>
    rw [closingWords,parseWords,lookup_flag]
    exact exec_modify _ _

/-- What the words ask for: the last occurrence of an option counts, and an option that does not
occur is left alone. -/
structure Settled (strtod : List Char → ρ × List Char) (items : List Item) (closing : Option (List String))
    (store : Store ρ) : Prop where
  mentioned : ∀ opt item, LastFor Item.opt opt items item →
    ∃ val, item.given strtod = .ok val ∧ store opt = ⟨val,true⟩
  unmentioned : ∀ opt, opt ≠ .args → (∀ item ∈ items, item.opt ≠ opt) → store opt = ⟨opt.initVal strtod,false⟩
  args : store .args = match closing with
    | none => ⟨Opt.args.initVal strtod,false⟩
    | some words => ⟨.words (some words),true⟩

theorem closed_other (closing : Option (List String)) (store : Store ρ) (opt : Opt) (inner : opt ≠ .args) :
    closed closing store opt = store opt := by
  cases closing with
  | none => rfl
  | some words => exact Function.update_of_ne inner _ _

theorem closed_settled (items : List Item) (closing : Option (List String))
    (numeric : ∀ item ∈ items, ∃ val, item.given strtod = .ok val) :
    Settled strtod items closing (closed closing (assignAll Item.opt (Item.setting strtod) (initial strtod) items)) := by
  constructor
  · intro opt item last
    obtain ⟨before,after,split,same,_⟩ := id last
    obtain ⟨val,converted⟩ := numeric item (by simp [split])
    refine ⟨val,converted,?_⟩
    rw [closed_other closing _ opt (same ▸ item.inner),assignAll_last _ _ _ items opt item last,Item.setting,converted]
  · intro opt inner absent
    rw [closed_other closing _ opt inner,assignAll_other _ _ _ items opt absent]
    rfl
  · cases closing with
    | none => exact assignAll_other Item.opt _ _ items Opt.args fun item _ => item.inner
    | some words => simp [closed]

theorem Settled.runnerArgv {items : List Item} {closing : Option (List String)} {store : Store ρ}
    (settled : Settled strtod items closing store) (item : Item) (last : LastFor Item.opt .binary items item) :
    Model.Options.runnerArgv store = some item.text :: (closing.getD []).map some ++ [none] := by
  obtain ⟨_,_,_,same,_⟩ := id last
  obtain ⟨val,converted,kept⟩ := settled.mentioned .binary item last
  rw [Item.given,same] at converted
  obtain rfl : .chars (some item.text) = val := Except.ok.inj converted
  have path : binaryPath store = some item.text := by rw [binaryPath,kept]
  have words : binaryArgs store = closing.getD [] := by
    rw [binaryArgs,settled.args]
    cases closing <;> rfl
  rw [Model.Options.runnerArgv,path,words]

theorem exec_parse (program : String) (words : List String) (store : Store ρ)
    (parsed : exec (parseWords strtod words) (initial strtod) = (.ok (),store)) :
    exec (parse strtod (program :: words)) (initial strtod) =
      (do sanityChecks (commandLine store); helpMessages (commandLine store),store) := by
  rw [parse,List.tail_cons,exec_bind_of _ _ _ _ _ parsed,exec_bind_of _ _ _ _ _ (exec_get store)]
  exact exec_lift_bind _ _ store

def userDies (halt : Halt) : Prop := ∃ message, halt = .userDie message

def Rejected (strtod : List Char → ρ × List Char) (argv : List String) : Prop :=
  ∃ halt, userDies halt ∧ (exec (parse strtod argv) (initial strtod)).1 = .error halt

theorem convertSafe_fails {α : Type} (convert : List Char → α × List Char) (text : String) :
    FailsAs userDies (convertSafe convert text) := by
  unfold convertSafe
  dsimp only
  split
  · exact FailsAs.error ⟨_,rfl⟩
  · exact FailsAs.ok _ _

theorem strtolSafe_fails (text : String) : FailsAs userDies (strtolSafe text) := convertSafe_fails strtol text

theorem type_words (opt : Opt) (words : opt.type = .words) : opt = .args := by
  revert words
  cases opt <;> decide

theorem given_fails (item : Item) : FailsAs userDies (item.given strtod) := by
  have inner : item.opt.type ≠ .words := fun words => item.inner (type_words item.opt words)
  unfold Item.given
  cases type : item.opt.type with
  | int => exact FailsAs.bind (strtolSafe_fails _) fun _ => FailsAs.ok _ _
  | unsigned => exact FailsAs.bind (convertSafe_fails _ _) fun _ => FailsAs.ok _ _
  | unsignedLong => exact FailsAs.bind (convertSafe_fails _ _) fun _ => FailsAs.ok _ _
  | bool => exact FailsAs.bind (strtolSafe_fails _) fun _ => FailsAs.ok _ _
  | chars => exact FailsAs.ok _ _
  | string => exact FailsAs.ok _ _
  | double => exact FailsAs.bind (convertSafe_fails _ _) fun _ => FailsAs.ok _ _
  | words => exact absurd type inner

theorem parseWords_refuses (items : List Item) (rest : List String) (store : Store ρ)
    (refuses : ∀ store : Store ρ, ∃ halt, userDies halt ∧ (exec (parseWords strtod rest) store).1 = .error halt) :
    ∃ halt, userDies halt ∧ (exec (parseWords strtod (items.flatMap Item.words ++ rest)) store).1 = .error halt := by
  induction items generalizing store with
  | nil => exact refuses store
  | cons item items ih =>
    rw [List.flatMap_cons,List.append_assoc]
    cases converted : item.given strtod with
    | ok val =>
      rw [parseWords_item item val _ store converted]
      exact ih _
    | error halt =>
      rw [parseWords_bad item halt _ store converted]
      exact ⟨halt,given_fails item halt converted,rfl⟩

theorem rejected_of_refused (program : String) (items : List Item) (rest : List String)
    (refuses : ∀ store : Store ρ, ∃ halt, userDies halt ∧ (exec (parseWords strtod rest) store).1 = .error halt) :
    Rejected strtod (program :: (items.flatMap Item.words ++ rest)) := by
  obtain ⟨halt,died,refused⟩ := parseWords_refuses items rest (initial strtod) refuses
  refine ⟨halt,died,?_⟩
  rw [parse,List.tail_cons,exec_bind]
  cases ran : exec (parseWords strtod (items.flatMap Item.words ++ rest)) (initial strtod) with
  | mk outcome store =>
    rw [ran] at refused
    cases refused
    rfl

theorem unregistered_refused (word : String) (rest : List String) (unregistered : ∀ opt : Opt, word ≠ opt.flag)
    (store : Store ρ) : ∃ halt, userDies halt ∧ (exec (parseWords strtod (word :: rest)) store).1 = .error halt := by
  rw [parseWords,lookup_unregistered word unregistered]
  exact ⟨_,⟨_,rfl⟩,rfl⟩

theorem valueless_refused (opt : Opt) (takes : opt.type.needsValue = true) (inner : opt ≠ .args) (store : Store ρ) :
    ∃ halt, userDies halt ∧ (exec (parseWords strtod [opt.flag]) store).1 = .error halt := by
  rw [parseWords,lookup_flag]
  dsimp only
  rw [if_neg inner,takes,if_pos rfl]
  exact ⟨_,⟨_,rfl⟩,rfl⟩

/-- The words are told apart by their positions: each option ends with the value of its last
occurrence, the words behind -args go to the binary as they are, and nothing else is accepted. -/
theorem parse_words (strtod : List Char → ρ × List Char) (program : String) (items : List Item) :
    (∀ closing, (∀ item ∈ items, ∃ val, item.given strtod = .ok val) →
      ∃ store, exec (parse strtod (program :: lineOf items closing)) (initial strtod) =
          (do sanityChecks (commandLine store); helpMessages (commandLine store),store) ∧
        Settled strtod items closing store ∧
        ∀ item, LastFor Item.opt .binary items item →
          runnerArgv store = some item.text :: (closing.getD []).map some ++ [none]) ∧
    (∀ word rest, (∀ opt : Opt, word ≠ opt.flag) →
      Rejected strtod (program :: (items.flatMap Item.words ++ word :: rest))) ∧
    ∀ opt : Opt, opt.type.needsValue = true → opt ≠ .args →
      Rejected strtod (program :: (items.flatMap Item.words ++ [opt.flag])) := by
  refine ⟨?_,?_,?_⟩
  · intro closing numeric
    have settled : Settled strtod items closing _ := closed_settled items closing numeric
    refine ⟨_,?_,settled,settled.runnerArgv⟩
    apply exec_parse
    rw [lineOf,parseWords_items items _ _ numeric]
    exact parseWords_closing closing _
  · intro word rest unregistered
    exact rejected_of_refused program items _ (unregistered_refused word rest unregistered)
  · intro opt takes inner
    exact rejected_of_refused program items _ (valueless_refused opt takes inner)

/-- A number is kept as its text, which is read to the end. -/
def asWritten (text : List Char) : List Char × List Char := (text,[])

/-- `-diff-cmd -args -test-runs 7 -bin a.out -no-cleanup -test-runs 2` -/
def someItems : List Item :=
  [.value .diffCmd "-args" rfl (by decide),.value .testRuns "7" rfl (by decide),.value .binary "a.out" rfl (by decide),
    .flag .noCleanup rfl,.value .testRuns "2" rfl (by decide)]

theorem someItems_parsed : ∃ store, exec (parse asWritten ("zofi" :: lineOf someItems (some ["-v","9"])))
      (initial asWritten) = (.ok (),store) ∧
    store .diffCmd = ⟨.string "-args",true⟩ ∧ store .testRuns = ⟨.unsigned 2,true⟩ ∧ store .verboseLevel = ⟨.int 1,false⟩ ∧
    runnerArgv store = [some "a.out",some "-v",some "9",none] := by
  have numeric : ∀ item ∈ someItems, ∃ val, item.given asWritten = .ok val := by
    unfold someItems
    simp only [List.forall_mem_cons,List.not_mem_nil,false_implies,implies_true,and_true]
    exact ⟨⟨_,rfl⟩,⟨_,rfl⟩,⟨_,rfl⟩,⟨_,rfl⟩,⟨_,rfl⟩⟩
  obtain ⟨store,ran,settled,argv⟩ := (parse_words asWritten "zofi" someItems).1 (some ["-v","9"]) numeric
  obtain ⟨_,diffCmd,kept⟩ := settled.mentioned .diffCmd (.value .diffCmd "-args" rfl (by decide))
    ⟨[],someItems.tail,rfl,rfl,by decide⟩
  obtain ⟨_,testRuns,last⟩ := settled.mentioned .testRuns (.value .testRuns "2" rfl (by decide))
    ⟨someItems.take 4,[],rfl,rfl,by decide⟩
  cases diffCmd
  cases testRuns
  have verbose := settled.unmentioned .verboseLevel (by decide) (by decide)
  have handed := argv (.value .binary "a.out" rfl (by decide)) ⟨someItems.take 2,someItems.drop 3,rfl,rfl,by decide⟩
  refine ⟨store,?_,kept,last,verbose,handed⟩
  have unset := settled.unmentioned
  have line : commandLine store = {} := by
    unfold commandLine givenString
    rw [unset .injectTo (by decide) (by decide),unset .forceInjectToReg (by decide) (by decide),
      unset .forceInjectToBit (by decide) (by decide),unset .dontInjectToLibs (by decide) (by decide)]
    rfl
  rw [ran,line]
  rfl

end Zofi.CommandWords
