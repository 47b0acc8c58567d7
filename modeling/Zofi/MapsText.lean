import Zofi.Semantics.Maps
import Zofi.WrittenNumbers

/-! What AddressSpace::parse reads off the text the kernel prints: the ranges as they are, and
from the last column what `%s` makes of it. -/
namespace Zofi.MapsText
open Numerals Model.Utils Model.AddrSpace Semantics.Maps WrittenNumbers

def nonblank (c : Char) : Bool := !isSpace c

def Ends (p : Char → Bool) (text : List Char) : Prop := ∀ c ∈ text.head?, p c = false

theorem skipSpace_blank (text : List Char) : skipSpace (' ' :: text) = skipSpace text := rfl

theorem skipSpace_blanks (count : Nat) (text : List Char) :
    skipSpace (List.replicate count ' ' ++ text) = skipSpace text := by
  induction count with
  | zero => rfl
  | succ count ih => rw [List.replicate_succ,List.cons_append,skipSpace_blank,ih]

theorem skipSpace_visible (text : List Char) (visible : Ends isSpace text) : skipSpace text = text := by
  cases text with
  | nil => rfl
  | cons c text => simp [skipSpace,visible c rfl]

theorem scanWord_blank (width : Nat) (text : List Char) : scanWord width (' ' :: text) = scanWord width text := rfl

theorem hexDigit_reads : Reads 16 hexDigit := by unfold Reads; decide

theorem isSpace_hexDigit (c : Char) (space : isSpace c = true) : hexDigit c = none := by
  have spaces : [' ','\t','\n','\x0b','\x0c','\r'].all (hexDigit · == none) = true := by decide
  simpa using List.all_eq_true.mp spaces c (by simpa [isSpace] using space)

theorem padded_nonblank (width n : Nat) : ∀ c ∈ padded width 16 n, nonblank c = true := by
  intro c member
  have digit := digits_padded hexDigit_reads (by omega) width n c member
  unfold nonblank
  cases space : isSpace c with
  | false => rfl
  | true => rw [isSpace_hexDigit c space] at digit; simp at digit

theorem head_append {p : Char → Bool} (run rest : List Char) (occupied : run ≠ []) (all : ∀ c ∈ run, p c = false) :
    Ends p (run ++ rest) := by
  cases run with
  | nil => exact absurd rfl occupied
  | cons c run => intro d head; cases head; exact all c (by simp)

theorem scanHex_padded (width n : Nat) (rest : List Char)
    (ends : Ends (fun c => (hexDigit c).isSome) rest) :
    scanHex (padded width 16 n ++ rest) = some (min (2^64 - 1) n,rest) := by
  have digits := digits_padded hexDigit_reads (by omega) width n
  have visible : Ends isSpace (padded width 16 n ++ rest) :=
    head_append _ _ (padded_ne_nil _ _ _) fun c member => by simpa [nonblank] using padded_nonblank width n c member
  have occupied : (padded width 16 n).isEmpty = false := by simpa using padded_ne_nil width 16 n
  have read := value_padded hexDigit_reads (by omega) width n
  unfold value at read
  unfold scanHex
  rw [skipSpace_visible _ visible]
  dsimp only
  rw [takeWhile_run _ _ _ digits ends,List.drop_left,occupied,read]
  rfl

theorem scanWord_run (width : Nat) (word rest : List Char) (positive : 0 < width) (occupied : word ≠ [])
    (all : ∀ c ∈ word, nonblank c = true) (ends : Ends nonblank rest) :
    scanWord width (word ++ rest) = some (word.take width,word.drop width ++ rest) := by
  have visible : Ends isSpace (word ++ rest) :=
    head_append _ _ occupied fun c member => by simpa [nonblank] using all c member
  have run : (word ++ rest).takeWhile (fun c => !isSpace c) = word := takeWhile_run nonblank word rest all ends
  have taken : (word.take width).isEmpty = false := by
    simp only [List.isEmpty_eq_false_iff,ne_eq,List.take_eq_nil_iff]
    rintro (zero | none)
    · omega
    · exact occupied none
  have dropped : (word ++ rest).drop (word.take width).length = word.drop width ++ rest := by
    rw [List.drop_append_of_le_length (by simp),List.length_take]
    congr 1
    rcases Nat.le_total width word.length with short | long
    · rw [Nat.min_eq_left short]
    · rw [Nat.min_eq_right long,List.drop_eq_nil_of_le long,List.drop_length]
  unfold scanWord
  rw [skipSpace_visible _ visible]
  dsimp only
  rw [run,taken,dropped]
  rfl

theorem scanWord_whole (width : Nat) (word rest : List Char) (occupied : word ≠ [])
    (all : ∀ c ∈ word, nonblank c = true) (ends : Ends nonblank rest) (wide : word.length ≤ width) :
    (scanWord width (word ++ rest)).map Prod.fst = some word := by
  have positive := List.length_pos_of_ne_nil occupied
  rw [scanWord_run width word rest (by omega) occupied all ends,List.take_of_length_le wide]
  rfl

theorem strtol_unsigned (text body : List Char) (skipped : skipSpace text = body)
    (unsigned : ∀ c ∈ body.head?, c ≠ '-' ∧ c ≠ '+') :
    strtol text = if (body.takeWhile Char.isDigit).isEmpty then (0,text)
      else (max longMin (min longMax (value 10 decDigit (body.takeWhile Char.isDigit))),body.dropWhile Char.isDigit) :=
  strtol_signed text .without body skipped fun _ => unsigned

theorem strtol_run (blanks : Nat) (run rest : List Char) (occupied : run ≠ [])
    (all : ∀ c ∈ run, c.isDigit = true) (ends : Ends Char.isDigit rest) :
    strtol (List.replicate blanks ' ' ++ (run ++ rest)) = (max longMin (min longMax (value 10 decDigit run)),rest) := by
  have visible : Ends isSpace (run ++ rest) := head_append _ _ occupied fun c member => (isDigit_plain c (all c member)).1
  have unsigned : ∀ c ∈ (run ++ rest).head?, c ≠ '-' ∧ c ≠ '+' := by
    cases run with
    | nil => exact absurd rfl occupied
    | cons c run => intro d head; cases head; exact (isDigit_plain c (all c (by simp))).2
  rw [strtol_unsigned _ (run ++ rest) (by rw [skipSpace_blanks,skipSpace_visible _ visible]) unsigned,
    takeWhile_run _ _ _ all ends,dropWhile_run _ _ _ all ends,if_neg (by simpa using occupied)]

theorem scanLong_run (blanks : Nat) (run rest : List Char) (occupied : run ≠ [])
    (all : ∀ c ∈ run, c.isDigit = true) (ends : Ends Char.isDigit rest) :
    scanLong (List.replicate blanks ' ' ++ (run ++ rest)) =
      some (max longMin (min longMax (value 10 decDigit run)),rest) := by
  have shorter : ¬ rest.length = (List.replicate blanks ' ' ++ (run ++ rest)).length := by
    have positive := List.length_pos_of_ne_nil occupied
    simp only [List.length_append]
    omega
  unfold scanLong
  rw [strtol_run blanks run rest occupied all ends]
  exact if_neg shorter

theorem scanLong_toDigits (n : Nat) (small : (n : Int) ≤ longMax) : scanLong (Nat.toDigits 10 n) = some ((n : Int),[]) := by
  have read := scanLong_run 0 (Nat.toDigits 10 n) [] Nat.toDigits_ne_nil (digits_decimal n) fun c head => by cases head
  have above : longMin ≤ (n : Int) := by
    unfold longMin
    omega
  rw [List.replicate_zero,List.nil_append,List.append_nil,value_toDigits decDigit_reads (by omega),
    min_eq_right small,max_eq_right above] at read
  exact read

theorem scanLong_refused (c : Char) (text : List Char) (visible : isSpace c = false) (digit : c.isDigit = false)
    (unsigned : c ≠ '-' ∧ c ≠ '+') : scanLong (c :: text) = none := by
  have refused := strtol_unsigned (c :: text) (c :: text)
    (skipSpace_visible _ fun d head => by cases head; exact visible) fun d head => by cases head; exact unsigned
  rw [List.takeWhile_cons_of_neg (by simp [digit])] at refused
  unfold scanLong
  rw [refused]
  exact if_pos rfl

/-- What the last conversion assigns. A device number of more than five characters does not
fit `%5s`: its rest is taken for the inode, and what follows for the path. -/
def readColumn (v : Vma) : Option (List Char) :=
  match v.device.drop 5 with
  | [] => v.backing.column.map (List.takeWhile nonblank)
  | c :: behind =>
    if c.isDigit then
      let behind := behind.dropWhile Char.isDigit
      some (if behind = [] then Nat.toDigits 10 v.inode else behind)
    else none

theorem newline_escaped (path : List Char) : '\n' ∉ escape path := by
  unfold escape
  rw [List.mem_flatMap]
  rintro ⟨c,_,member⟩
  split at member
  · simp at member
  · next other => exact other (List.mem_singleton.mp member).symm

theorem escape_clean (path : List Char) (clean : ∀ c ∈ path, nonblank c = true) : escape path = path := by
  unfold escape
  induction path with
  | nil => rfl
  | cons c path ih =>
    have other : c ≠ '\n' := by rintro rfl; exact absurd (clean '\n' (by simp)) (by decide)
    rw [List.flatMap_cons,if_neg other,ih fun d member => clean d (by simp [member])]
    rfl

theorem column_visible (b : Backing) (printable : b.Printable) :
    ∀ text ∈ b.column, Visible text ∧ '\n' ∉ text := by
  intro text shown
  cases b with
  | anonymous => simp [Backing.column] at shown
  | label name =>
    obtain rfl : name = text := Option.some.inj shown
    exact printable
  | file path deleted =>
    obtain rfl := Option.some.inj shown
    obtain ⟨c,head,visible⟩ := printable
    refine ⟨⟨c,?_,visible⟩,?_⟩
    · obtain ⟨rest,rfl⟩ : ∃ rest, path = c :: rest := ⟨path.tail,List.eq_cons_of_mem_head? head⟩
      have other : c ≠ '\n' := by rintro rfl; simp [isSpace] at visible
      rw [escape,List.flatMap_cons,if_neg other]
      rfl
    · rw [List.mem_append,not_or]
      exact ⟨newline_escaped path,by cases deleted <;> decide⟩

theorem device_plain (v : Vma) : ∀ c ∈ v.device, nonblank c = true ∧ c ≠ '-' ∧ c ≠ '+' := by
  have part (n : Nat) : ∀ c ∈ padded 2 16 n, nonblank c = true ∧ c ≠ '-' ∧ c ≠ '+' := by
    intro c member
    have digit := digits_padded hexDigit_reads (by omega) 2 n c member
    refine ⟨padded_nonblank 2 n c member,?_,?_⟩ <;> (rintro rfl; simp [hexDigit] at digit)
  intro c member
  rcases List.mem_append.mp member with major | rest
  · exact part v.major c major
  · rcases List.mem_cons.mp rest with rfl | minor
    · decide
    · exact part v.minor c minor

theorem takeWhile_visible (text : List Char) (visible : Visible text) : text.takeWhile nonblank ≠ [] := by
  obtain ⟨c,head,visible⟩ := visible
  rw [List.eq_cons_of_mem_head? head]
  simp [nonblank,visible]

theorem scanWord_column (width behind : Nat) (b : Backing) (printable : b.Printable)
    (wide : (pathField behind b.column).length ≤ width) :
    (scanWord width (pathField behind b.column)).map Prod.fst = b.column.map (List.takeWhile nonblank) := by
  have visible := column_visible b printable
  cases shown : b.column with
  | none => simp [pathField,scanWord,skipSpace]
  | some text =>
    obtain ⟨visible,_⟩ := visible text shown
    have skipped : skipSpace (pathField behind (some text)) = text := by
      obtain ⟨c,head,plain⟩ := visible
      rw [pathField,skipSpace_blanks,skipSpace_blank,skipSpace_visible]
      intro d first
      cases head.symm.trans first
      exact plain
    have short : (text.takeWhile nonblank).length ≤ width := by
      have part := (List.takeWhile_sublist (l := text) nonblank).length_le
      rw [shown,pathField] at wide
      simp only [List.length_append,List.length_cons] at wide
      omega
    have occupied : (text.takeWhile nonblank).isEmpty = false := by simpa using takeWhile_visible text visible
    unfold nonblank at short occupied
    unfold scanWord
    rw [skipped]
    dsimp only
    rw [List.take_of_length_le short,occupied]
    rfl

theorem blank_ends {p : Char → Bool} (blank : p ' ' = false) (text : List Char) : Ends p (' ' :: text) := by
  intro c head
  cases head
  exact blank

/-- The device number has been read whole: the inode is what is printed, and the path behind it. -/
theorem scan_whole (v : Vma) (printable : v.backing.Printable) (width behind : Nat)
    (wide : (pathField behind v.backing.column).length ≤ width) :
    ((scanLong (' ' :: (Nat.toDigits 10 v.inode ++ ' ' :: pathField behind v.backing.column))).bind
      fun inode => scanWord width inode.2).map Prod.fst = v.backing.column.map (List.takeWhile nonblank) := by
  have read := scanLong_run 1 (Nat.toDigits 10 v.inode) (' ' :: pathField behind v.backing.column)
    Nat.toDigits_ne_nil (digits_decimal v.inode) (blank_ends rfl _)
  rw [List.replicate_one,List.singleton_append] at read
  rw [read,Option.bind_some,scanWord_blank]
  exact scanWord_column width behind v.backing printable wide

/-- A digit of the device number is left over: the digits there are the inode, and the next word is
taken for the path. -/
theorem scan_cut (v : Vma) (c : Char) (left column : List Char) (rest : v.device.drop 5 = c :: left)
    (digit : c.isDigit = true) (width : Nat)
    (wide : v.device.length + (Nat.toDigits 10 v.inode).length + column.length ≤ width) :
    ((scanLong (c :: left ++ ' ' :: (Nat.toDigits 10 v.inode ++ ' ' :: column))).bind
      fun inode => scanWord width inode.2).map Prod.fst =
      some (if left.dropWhile Char.isDigit = [] then Nat.toDigits 10 v.inode else left.dropWhile Char.isDigit) := by
  have plain (d : Char) (member : d ∈ c :: left) := device_plain v d (List.mem_of_mem_drop (rest ▸ member))
  have run : ∀ d ∈ c :: left.takeWhile Char.isDigit, d.isDigit = true := by
    rintro d (_ | ⟨_,member⟩)
    · exact digit
    · exact List.mem_takeWhile_imp member
  have ends : Ends Char.isDigit (left.dropWhile Char.isDigit ++ ' ' :: (Nat.toDigits 10 v.inode ++ ' ' :: column)) := by
    have stopped := List.head?_dropWhile_not Char.isDigit left
    intro d head
    cases remains : left.dropWhile Char.isDigit with
    | nil => rw [remains] at head; cases head; decide
    | cons e _ => rw [remains] at head stopped; cases head; simpa using stopped
  have read := scanLong_run 0 _ _ (by simp) run ends
  rw [List.replicate_zero,List.nil_append,List.cons_append,← List.append_assoc,
    List.takeWhile_append_dropWhile] at read
  rw [List.cons_append,read]
  dsimp only [Option.bind_some]
  by_cases gone : left.dropWhile Char.isDigit = []
  · rw [gone,if_pos rfl,List.nil_append,scanWord_blank]
    exact scanWord_whole _ _ _ Nat.toDigits_ne_nil (fun d member => by
      simpa [nonblank] using (isDigit_plain d (digits_decimal v.inode d member)).1) (blank_ends rfl _) (by omega)
  · have short : (left.dropWhile Char.isDigit).length ≤ v.device.length := by
      have dropped := congrArg List.length rest
      have part := (List.dropWhile_sublist (l := left) Char.isDigit).length_le
      simp only [List.length_drop,List.length_cons] at dropped
      omega
    rw [if_neg gone]
    refine scanWord_whole _ _ _ gone (fun d member => ?_) (blank_ends rfl _) (by omega)
    exact (plain d (List.mem_cons_of_mem _ ((List.dropWhile_sublist _).subset member))).1

theorem scan_readColumn (v : Vma) (printable : v.backing.Printable) (width behind : Nat)
    (wide : v.device.length + (Nat.toDigits 10 v.inode).length + (pathField behind v.backing.column).length ≤ width) :
    ((scanLong (v.device.drop 5 ++ ' ' :: (Nat.toDigits 10 v.inode ++ ' ' :: pathField behind v.backing.column))).bind
      fun inode => scanWord width inode.2).map Prod.fst = readColumn v := by
  unfold readColumn
  cases rest : v.device.drop 5 with
  | nil => exact scan_whole v printable width behind (by omega)
  | cons c left =>
    have plain (d : Char) (member : d ∈ c :: left) := device_plain v d (List.mem_of_mem_drop (rest ▸ member))
    dsimp only
    split
    · next digit => exact scan_cut v c left _ rest digit width wide
    · next other =>
      have visible : isSpace c = false := by simpa [nonblank] using (plain c (by simp)).1
      rw [List.cons_append,scanLong_refused c _ visible (by simpa using other) (plain c (by simp)).2]
      rfl

theorem perms_nonblank (v : Vma) : ∀ c ∈ v.perms, nonblank c = true := by
  intro c member
  simp only [Vma.perms,List.mem_cons,List.not_mem_nil,or_false] at member
  rcases member with rfl | rfl | rfl | rfl <;> split <;> decide

theorem scanLine_line (v : Vma) (printable : v.backing.Printable) (starts : v.start < 2^64) (stops : v.stop < 2^64)
    (old : Scanned) : scanLine old v.line = ⟨v.start,v.stop,(readColumn v).getD old.path⟩ := by
  have blankHex (text : List Char) : Ends (fun c => (hexDigit c).isSome) (' ' :: text) := blank_ends rfl text
  have blank (text : List Char) : Ends nonblank (' ' :: text) := blank_ends rfl text
  have column := scan_readColumn v printable v.line.length (v.fields []).length (by
    simp only [Vma.line,Vma.fields,List.length_append,List.length_cons]
    omega)
  have one (rest : List Char) : scanHex (padded 8 16 v.start ++ '-' :: rest) = some (v.start,'-' :: rest) := by
    rw [scanHex_padded _ _ _ (by intro c head; cases head; decide),Nat.min_eq_right (by omega)]
  have two (rest : List Char) : scanHex (padded 8 16 v.stop ++ ' ' :: rest) = some (v.stop,' ' :: rest) := by
    rw [scanHex_padded _ _ _ (blankHex _),Nat.min_eq_right (by omega)]
  have three (rest : List Char) : scanWord 4 (' ' :: (v.perms ++ ' ' :: rest)) = some (v.perms,' ' :: rest) :=
    scanWord_run 4 v.perms _ (by omega) (List.cons_ne_nil _ _) (perms_nonblank v) (blank _)
  have four (rest : List Char) : scanHex (' ' :: (padded 8 16 v.offset ++ ' ' :: rest)) = some (_,' ' :: rest) :=
    scanHex_padded _ _ _ (blankHex _)
  have five (rest : List Char) : scanWord 5 (' ' :: (v.device ++ ' ' :: rest)) =
      some (v.device.take 5,v.device.drop 5 ++ ' ' :: rest) :=
    scanWord_run 5 v.device _ (by omega) (by simp [Vma.device]) (fun c member => (device_plain v c member).1) (blank _)
  unfold scanLine
  rw [show scanHex v.line = _ from one _]
  simp only [scanChar,if_true,Option.bind_some,two,three,four,five]
  cases scanned : (scanLong _).bind fun inode => scanWord v.line.length inode.2 with
  | none => rw [scanned] at column; simp [← column]
  | some result => rw [scanned] at column; simp [← column]

theorem newline_blank (text : List Char) (all : ∀ c ∈ text, nonblank c = true) : '\n' ∉ text := by
  intro member
  have plain := all _ member
  revert plain
  decide

theorem newline_line (v : Vma) (printable : v.backing.Printable) : '\n' ∉ v.line := by
  have number (width n : Nat) := newline_blank _ (padded_nonblank width n)
  have perms := newline_blank _ (perms_nonblank v)
  have device := newline_blank _ fun c member => (device_plain v c member).1
  have inode : '\n' ∉ Nat.toDigits 10 v.inode := newline_blank _ fun c member => by
    simpa [nonblank] using (isDigit_plain c (digits_decimal _ c member)).1
  have column : '\n' ∉ pathField (v.fields []).length v.backing.column := by
    cases shown : v.backing.column with
    | none => simp [pathField]
    | some text =>
      have clean := (column_visible v.backing printable text shown).2
      simp [pathField,List.mem_replicate,clean]
  rw [Vma.line]
  generalize pathField _ _ = tail at column ⊢
  simp [Vma.fields,number,perms,device,inode,column]

theorem linesOf_lines (lines : List (List Char)) (clean : ∀ line ∈ lines, '\n' ∉ line) :
    linesOf (lines.flatMap fun line => line ++ ['\n']) = lines := by
  have split : (lines.flatMap fun line => line ++ ['\n']).splitOn '\n' = lines ++ [[]] := by
    induction lines with
    | nil => rfl
    | cons line lines ih =>
      rw [List.flatMap_cons,List.append_assoc,List.singleton_append,
        List.splitOn_append_cons_self_of_not_mem (clean line (by simp)),
        ih fun other member => clean other (by simp [member]),List.cons_append]
  rw [linesOf,split,List.dropLast_concat]

def mappingsFrom (path : List Char) : List Vma → List Mapping
  | [] => []
  | v :: rest =>
    let path := (readColumn v).getD path
    ⟨v.start,v.stop,path⟩ :: mappingsFrom path rest

theorem insert_last (m : Mapping) (set : MappingsSet)
    (ascending : ∀ old ∈ set, old.less m = true ∧ m.less old = false) : MappingsSet.insert m set = set ++ [m] := by
  induction set with
  | nil => rfl
  | cons old set ih =>
    obtain ⟨below,above⟩ := ascending old (by simp)
    simp only [MappingsSet.insert,above,below,if_true,Bool.false_eq_true,if_false,List.cons_append]
    rw [ih fun other member => ascending other (by simp [member])]

def parseLine (state : Scanned × MappingsSet) (line : List Char) : Except Halt (Scanned × MappingsSet) := do
  let scanned := scanLine state.1 line
  assert (scanned.fromAddr ≤ scanned.toAddr) "Expected range."
  return (scanned,MappingsSet.insert ⟨scanned.fromAddr,scanned.toAddr,scanned.path⟩ state.2)

theorem parseLine_line (v : Vma) (printable : v.backing.Printable) (range : v.start < v.stop ∧ v.stop < 2^64)
    (old : Scanned) (set : MappingsSet) (before : ∀ m ∈ set, m.fromAddr < v.start ∧ m.toAddr ≤ v.start) :
    parseLine (old,set) v.line =
      .ok (⟨v.start,v.stop,(readColumn v).getD old.path⟩,set ++ [⟨v.start,v.stop,(readColumn v).getD old.path⟩]) := by
  unfold parseLine
  simp only [scanLine_line v printable (by omega) range.2 old]
  rw [insert_last]
  · simp [assert,Nat.le_of_lt range.1,bind,Except.bind,pure,Except.pure]
  · intro m member
    obtain ⟨starts,stops⟩ := before m member
    simp only [Mapping.less,Bool.and_eq_true,Bool.and_eq_false_iff,decide_eq_true_eq,decide_eq_false_iff_not]
    omega

theorem parseLine_fold (vmas : List Vma) (ranges : ∀ v ∈ vmas, v.start < v.stop ∧ v.stop < 2^64)
    (ascending : vmas.Pairwise fun a b => a.stop ≤ b.start) (printable : ∀ v ∈ vmas, v.backing.Printable)
    (old : Scanned) (set : MappingsSet)
    (before : ∀ v ∈ vmas, ∀ m ∈ set, m.fromAddr < v.start ∧ m.toAddr ≤ v.start) :
    ∃ last, (vmas.map Vma.line).foldlM parseLine (old,set) = .ok (last,set ++ mappingsFrom old.path vmas) := by
  induction vmas generalizing old set with
  | nil => exact ⟨old,by simp [mappingsFrom,pure,Except.pure]⟩
  | cons v vmas ih =>
    obtain ⟨first,later⟩ := List.pairwise_cons.mp ascending
    have range := ranges v (by simp)
    have step := parseLine_line v (printable v (by simp)) range old set (before v (by simp))
    obtain ⟨last,rest⟩ := ih (fun w member => ranges w (by simp [member])) later
      (fun w member => printable w (by simp [member])) ⟨v.start,v.stop,(readColumn v).getD old.path⟩
      (set ++ [⟨v.start,v.stop,(readColumn v).getD old.path⟩]) (by
        intro w member m old
        have above := first w member
        rcases List.mem_append.mp old with early | new
        · exact before w (by simp [member]) m early
        · rw [List.mem_singleton.mp new]
          dsimp only
          omega)
    refine ⟨last,?_⟩
    rw [List.map_cons,List.foldlM_cons,step]
    simpa [mappingsFrom,bind,Except.bind] using rest

theorem parse_text (layout : Layout) (garbage : Scanned) :
    parse garbage layout.text = .ok (mappingsFrom garbage.path layout.vmas) := by
  have lines : linesOf layout.text = layout.vmas.map Vma.line := by
    have rendered : layout.text = (layout.vmas.map Vma.line).flatMap fun line => line ++ ['\n'] := by
      rw [List.flatMap_map]
      rfl
    rw [rendered,linesOf_lines]
    rintro line member
    obtain ⟨v,inside,rfl⟩ := List.mem_map.mp member
    exact newline_line v (layout.printable v inside)
  obtain ⟨last,ran⟩ := parseLine_fold layout.vmas layout.ranges layout.ascending layout.printable garbage []
    (by simp)
  unfold parse
  rw [lines]
  change ((layout.vmas.map Vma.line).foldlM parseLine (garbage,[])) >>= _ = _
  rw [ran]
  rfl

/-- What the tool holds for the path of an address: that of the first line whose range does
not end below it. -/
def readAs (path : List Char) (vmas : List Vma) (addr : Nat) : List Char :=
  match vmas with
  | [] => path
  | v :: rest =>
    let path := (readColumn v).getD path
    if addr ≤ v.stop then path else readAs path rest addr

theorem less_query (m : Mapping) (addr : Nat) :
    m.less (.query addr) = (decide (m.fromAddr < addr) && decide (m.toAddr < addr)) := rfl

theorem query_less (m : Mapping) (addr : Nat) :
    (Mapping.query addr).less m = (decide (addr < m.fromAddr) && decide (addr < m.toAddr)) := rfl

theorem find_mapping (vmas : List Vma) (ranges : ∀ v ∈ vmas, v.start < v.stop ∧ v.stop < 2^64)
    (ascending : vmas.Pairwise fun a b => a.stop ≤ b.start) (path : List Char) (addr : Nat) (v : Vma)
    (member : v ∈ vmas) (inside : v.start ≤ addr ∧ addr < v.stop) :
    ∃ m, MappingsSet.find (mappingsFrom path vmas) (.query addr) = some m ∧ m.path = readAs path vmas addr := by
  induction vmas generalizing path with
  | nil => simp at member
  | cons w rest ih =>
    obtain ⟨first,later⟩ := List.pairwise_cons.mp ascending
    have range := ranges w (by simp)
    unfold mappingsFrom readAs
    -- the ranges ascend: find() returns the first one that does not end below the address
    by_cases reaches : addr ≤ w.stop
    · have starts : w.start ≤ addr := by
        rcases List.mem_cons.mp member with rfl | behind
        · exact inside.1
        · have above := first v behind
          omega
      dsimp only
      rw [if_pos reaches]
      refine ⟨⟨w.start,w.stop,(readColumn w).getD path⟩,?_,rfl⟩
      rw [MappingsSet.find,List.dropWhile_cons_of_neg]
      · have found : ¬ addr < w.start := by omega
        simp [Option.filter,query_less,found]
      · have ends : ¬ w.stop < addr := by omega
        simp [less_query,ends]
    · have behind : v ∈ rest := by
        rcases List.mem_cons.mp member with rfl | behind
        · omega
        · exact behind
      obtain ⟨m,found,same⟩ := ih (fun u inRest => ranges u (by simp [inRest])) later ((readColumn w).getD path) behind
      refine ⟨m,?_,by rw [same,if_neg reaches]⟩
      rw [← found,MappingsSet.find,List.dropWhile_cons_of_pos]
      · rfl
      · have below : w.start < addr ∧ w.stop < addr := by omega
        simp [less_query,below]

theorem isInLibrary_text (layout : Layout) (garbage : Scanned) (addr : Nat) (v : Vma) (member : v ∈ layout.vmas)
    (inside : v.start ≤ addr ∧ addr < v.stop) :
    isInLibrary (mappingsFrom garbage.path layout.vmas) addr =
      .ok (endsInSo (readAs garbage.path layout.vmas addr)) := by
  obtain ⟨m,found,path⟩ :=
    find_mapping layout.vmas layout.ranges layout.ascending garbage.path addr v member inside
  rw [isInLibrary,found,← path]

/-- With a short device number, away from the end of the mapping before it, the path is read
up to its first blank. -/
theorem readAs_own (vmas : List Vma) (ascending : vmas.Pairwise fun a b => a.stop ≤ b.start)
    (path : List Char) (addr : Nat) (v : Vma) (member : v ∈ vmas) (inside : v.start ≤ addr ∧ addr < v.stop)
    (untouched : ∀ w ∈ vmas, w.stop ≠ addr) (short : v.device.length ≤ 5) (text : List Char)
    (shown : v.backing.column = some text) : readAs path vmas addr = text.takeWhile nonblank := by
  induction vmas generalizing path with
  | nil => simp at member
  | cons w rest ih =>
    obtain ⟨first,later⟩ := List.pairwise_cons.mp ascending
    unfold readAs
    rcases List.mem_cons.mp member with rfl | behind
    · have own : readColumn v = some (text.takeWhile nonblank) := by
        rw [readColumn,List.drop_eq_nil_of_le short,shown]
        rfl
      rw [if_pos (by omega),own]
      rfl
    · have above := first v behind
      have apart := untouched w (by simp)
      rw [if_neg (by omega)]
      exact ih later _ behind fun u inRest => untouched u (by simp [inRest])

end Zofi.MapsText
