import Zofi.MapsText
import Zofi.Mappings

/-! The lines of /proc/<pid>/maps, in any order and number: what parse() inserts for each of them,
and when that is what the line says. -/
namespace Zofi.MapsLines
open Model.Utils Model.AddrSpace Semantics.Maps MapsText Mappings

def pathOf (v : Vma) : List Char := v.backing.column.getD []

def mapping (v : Vma) : Mapping := ⟨v.start,v.stop,pathOf v⟩

def textOf (vmas : List Vma) : List Char := vmas.flatMap fun v => v.line ++ ['\n']

structure WellFormed (vmas : List Vma) : Prop where
  ranges : ∀ v ∈ vmas, v.start ≤ v.stop ∧ v.stop < 2^64
  printable : ∀ v ∈ vmas, v.backing.Printable

def recorded (old : Scanned) : List (List Char) → List Mapping
  | [] => []
  | line :: lines =>
    let scanned := scanLine old line
    ⟨scanned.fromAddr,scanned.toAddr,scanned.path⟩ :: recorded scanned lines

theorem fold_recorded (lines : List (List Char)) (old : Scanned) (set : MappingsSet)
    (ranges : ∀ m ∈ recorded old lines, m.fromAddr ≤ m.toAddr) :
    ∃ last, lines.foldlM parseLine (old,set) =
      .ok (last,(recorded old lines).foldl (fun set m => MappingsSet.insert m set) set) := by
  induction lines generalizing old set with
  | nil => exact ⟨old,rfl⟩
  | cons line lines ih =>
    obtain ⟨first,later⟩ := List.forall_mem_cons.mp ranges
    obtain ⟨last,ran⟩ := ih (scanLine old line)
      (MappingsSet.insert ⟨(scanLine old line).fromAddr,(scanLine old line).toAddr,(scanLine old line).path⟩ set) later
    refine ⟨last,?_⟩
    have step : parseLine (old,set) line = .ok (scanLine old line,MappingsSet.insert
        ⟨(scanLine old line).fromAddr,(scanLine old line).toAddr,(scanLine old line).path⟩ set) := by
      unfold parseLine
      dsimp only
      rw [assert,if_pos (decide_eq_true first)]
      rfl
    rw [List.foldlM_cons,step]
    exact ran

theorem parse_recorded (garbage : Scanned) (text : List Char)
    (ranges : ∀ m ∈ recorded garbage (linesOf text), m.fromAddr ≤ m.toAddr) :
    parse garbage text = .ok (stored (recorded garbage (linesOf text))) := by
  obtain ⟨last,ran⟩ := fold_recorded (linesOf text) garbage [] ranges
  unfold parse
  change ((linesOf text).foldlM parseLine (garbage,[])) >>= _ = _
  rw [ran]
  rfl

theorem linesOf_textOf (vmas : List Vma) (printable : ∀ v ∈ vmas, v.backing.Printable) :
    linesOf (textOf vmas) = vmas.map Vma.line := by
  have rendered : textOf vmas = (vmas.map Vma.line).flatMap fun line => line ++ ['\n'] := by
    rw [List.flatMap_map]
    rfl
  rw [rendered,linesOf_lines]
  intro line member
  obtain ⟨v,inside,rfl⟩ := List.mem_map.mp member
  exact newline_line v (printable v inside)

theorem recorded_mappings (vmas : List Vma) (formed : WellFormed vmas) (old : Scanned) :
    recorded old (vmas.map Vma.line) = mappingsFrom old.path vmas := by
  induction vmas generalizing old with
  | nil => rfl
  | cons v rest ih =>
    have range := formed.ranges v List.mem_cons_self
    have scanned := scanLine_line v (formed.printable v List.mem_cons_self) (range.1.trans_lt range.2) range.2 old
    have later : WellFormed rest :=
      ⟨fun w member => formed.ranges w (List.mem_cons_of_mem _ member),
        fun w member => formed.printable w (List.mem_cons_of_mem _ member)⟩
    rw [List.map_cons,recorded,scanned,ih later]
    rfl

theorem mappingsFrom_ranges (vmas : List Vma) (ranges : ∀ v ∈ vmas, v.start ≤ v.stop) (path : List Char) :
    ∀ m ∈ mappingsFrom path vmas, m.fromAddr ≤ m.toAddr := by
  induction vmas generalizing path with
  | nil => simp [mappingsFrom]
  | cons v rest ih =>
    obtain ⟨first,later⟩ := List.forall_mem_cons.mp ranges
    rw [mappingsFrom]
    exact List.forall_mem_cons.mpr ⟨first,ih later _⟩

def pathMax : Nat := 4096

/-- Each line is recorded as what it says, and no path is longer than the buffer it is written to. -/
structure Records (garbage : Scanned) (vmas : List Vma) : Prop where
  own : recorded garbage (vmas.map Vma.line) = vmas.map mapping
  fits : ∀ v ∈ vmas, (pathOf v).length < pathMax

/-- Where the sixth character of the device number is a digit, the number read behind it is the
inode, and this is the path. -/
def leftOver (v : Vma) (behind : List Char) : List Char :=
  if behind.dropWhile Char.isDigit = [] then Nat.toDigits 10 v.inode else behind.dropWhile Char.isDigit

/-- The line has a path, and a device number and a path that are read whole; a device number that
is cut off before a letter or the colon leaves the path of the line before in its place. -/
def OwnPath (before : Option (List Char)) (v : Vma) : Prop :=
  ∃ path, v.backing.column = some path ∧ path.length < pathMax ∧
    match v.device.drop 5 with
    | [] => ∀ c ∈ path, nonblank c = true
    | c :: behind => if c.isDigit then path = leftOver v behind else before = some path

def OwnPaths (before : Option (List Char)) : List Vma → Prop
  | [] => True
  | v :: rest => OwnPath before v ∧ OwnPaths v.backing.column rest

theorem leftOver_occupied (v : Vma) (behind : List Char) : leftOver v behind ≠ [] := by
  unfold leftOver
  split
  · exact Nat.toDigits_ne_nil
  · assumption

theorem readColumn_cut (v : Vma) (c : Char) (behind : List Char) (cut : v.device.drop 5 = c :: behind) :
    readColumn v = if c.isDigit then some (leftOver v behind) else none := by
  rw [readColumn,cut]
  rfl

theorem readColumn_whole (v : Vma) (whole : v.device.drop 5 = []) :
    readColumn v = v.backing.column.map (List.takeWhile nonblank) := by
  rw [readColumn,whole]

theorem ownPath_iff (buffer : List Char) (occupied : buffer ≠ []) (v : Vma) :
    OwnPath (some buffer) v ↔ (readColumn v).getD buffer = pathOf v ∧ (pathOf v).length < pathMax := by
  unfold OwnPath pathOf
  cases shown : v.backing.column with
  | none =>
    refine iff_of_false (by simp) ?_
    rintro ⟨read,_⟩
    cases cut : v.device.drop 5 with
    | nil =>
      rw [readColumn_whole v cut,shown] at read
      exact occupied read
    | cons c behind =>
      rw [readColumn_cut v c behind cut] at read
      split at read
      · exact leftOver_occupied v behind read
      · exact occupied read
  | some path =>
    simp only [Option.some.injEq,exists_eq_left',Option.getD_some]
    rw [and_comm]
    apply and_congr_left
    intro _
    cases cut : v.device.drop 5 with
    | nil =>
      rw [readColumn_whole v cut,shown]
      exact List.takeWhile_eq_self_iff.symm
    | cons c behind =>
      rw [readColumn_cut v c behind cut]
      dsimp only
      split
      · exact eq_comm
      · rfl

theorem OwnPath.change {before after : Option (List Char)} {v : Vma} (own : OwnPath before v)
    (kept : before = some (pathOf v) → after = some (pathOf v)) : OwnPath after v := by
  obtain ⟨path,shown,short,read⟩ := own
  have same : pathOf v = path := by rw [pathOf,shown]; rfl
  refine ⟨path,shown,short,?_⟩
  cases cut : v.device.drop 5 with
  | nil =>
    rw [cut] at read
    exact read
  | cons c behind =>
    rw [cut] at read
    dsimp only at read ⊢
    split
    · next digit => rwa [if_pos digit] at read
    · next other =>
      rw [if_neg other,← same] at read
      rw [← same]
      exact kept read

theorem OwnPath.read {v : Vma} (own : OwnPath none v) : readColumn v = some (pathOf v) := by
  obtain ⟨path,shown,_,read⟩ := own
  have same : pathOf v = path := by rw [pathOf,shown]; rfl
  rw [same]
  cases cut : v.device.drop 5 with
  | nil =>
    rw [cut] at read
    rw [readColumn_whole v cut,shown]
    exact congrArg some (List.takeWhile_eq_self_iff.mpr read)
  | cons c behind =>
    rw [cut] at read
    dsimp only at read
    rw [readColumn_cut v c behind cut]
    split
    · next digit =>
      rw [if_pos digit] at read
      rw [read]
    · next other =>
      rw [if_neg other] at read
      cases read

theorem own_iff (vmas : List Vma) (printable : ∀ v ∈ vmas, v.backing.Printable) (buffer : List Char)
    (occupied : buffer ≠ []) :
    (mappingsFrom buffer vmas = vmas.map mapping ∧ ∀ v ∈ vmas, (pathOf v).length < pathMax) ↔
      OwnPaths (some buffer) vmas := by
  induction vmas generalizing buffer with
  | nil => simp [mappingsFrom,OwnPaths]
  | cons v rest ih =>
    obtain ⟨first,later⟩ := List.forall_mem_cons.mp printable
    have next (own : OwnPath (some buffer) v) : (mappingsFrom (pathOf v) rest = rest.map mapping ∧
        ∀ w ∈ rest, (pathOf w).length < pathMax) ↔ OwnPaths v.backing.column rest := by
      obtain ⟨path,shown,_⟩ := own
      obtain ⟨⟨c,head,_⟩,_⟩ := column_visible v.backing first path shown
      have visible : path ≠ [] := by
        rintro rfl
        cases head
      have same : pathOf v = path := by rw [pathOf,shown]; rfl
      rw [same,shown]
      exact ih later path visible
    rw [mappingsFrom,List.map_cons,List.forall_mem_cons]
    simp only [List.cons.injEq,mapping,Mapping.mk.injEq,true_and,OwnPaths]
    constructor
    · rintro ⟨⟨read,others⟩,short,shorts⟩
      have own := (ownPath_iff buffer occupied v).mpr ⟨read,short⟩
      rw [read] at others
      exact ⟨own,(next own).mp ⟨others,shorts⟩⟩
    · rintro ⟨own,owns⟩
      obtain ⟨read,short⟩ := (ownPath_iff buffer occupied v).mp own
      obtain ⟨others,shorts⟩ := (next own).mpr owns
      rw [read]
      exact ⟨⟨rfl,others⟩,short,shorts⟩

/-- What the uninitialised buffer holds must not matter: the lines are recorded whatever it is
exactly if each has its own path. -/
theorem records_iff (vmas : List Vma) (formed : WellFormed vmas) :
    (∀ garbage, Records garbage vmas) ↔ OwnPaths none vmas := by
  have each (garbage : Scanned) : Records garbage vmas ↔
      mappingsFrom garbage.path vmas = vmas.map mapping ∧ ∀ v ∈ vmas, (pathOf v).length < pathMax := by
    rw [← recorded_mappings vmas formed garbage]
    exact ⟨fun records => ⟨records.own,records.fits⟩,fun both => ⟨both.1,both.2⟩⟩
  simp only [each]
  cases vmas with
  | nil => simp [mappingsFrom,OwnPaths]
  | cons v rest =>
    constructor
    · intro all
      have owns := (own_iff (v :: rest) formed.printable _ (List.cons_ne_nil '/' (pathOf v))).mp
        (all ⟨0,0,'/' :: pathOf v⟩)
      refine ⟨owns.1.change fun same => ?_,owns.2⟩
      have longer := congrArg List.length (Option.some.inj same)
      simp at longer
    · rintro ⟨own,owns⟩ garbage
      have anew (buffer : List Char) : mappingsFrom buffer (v :: rest) = mappingsFrom ['/'] (v :: rest) := by
        rw [mappingsFrom,mappingsFrom,own.read]
        rfl
      have begun : OwnPath (some ['/']) v := own.change fun impossible => by cases impossible
      rw [anew]
      exact (own_iff (v :: rest) formed.printable ['/'] (List.cons_ne_nil _ _)).mpr ⟨begun,owns⟩

def spaced : Vma := ⟨0x1000,0x2000,true,false,true,false,0,8,2,131,.file "/tmp/a b".toList false⟩

theorem spaced_formed : WellFormed [spaced] where
  ranges := by simp [spaced]
  printable := by
    simp only [List.mem_singleton,forall_eq]
    exact ⟨'/',rfl,rfl⟩

def plain : Vma := ⟨0x1000,0x2000,true,false,true,false,0,8,2,131,.file "/bin/seq".toList false⟩

end Zofi.MapsLines
