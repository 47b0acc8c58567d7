import Zofi.MapsText
import Zofi.BitFlipRun

/-! The refusal to inject into libraries: for a program counter in the mapping of a file,
doBitFlip gives up before it selects anything exactly when the text it holds for the mapping
ends in `.so`, or has two characters. -/
namespace Zofi.Libraries
open Sys Model.Utils Model.RegManip Model.AddrSpace Model.BitFlip Semantics.Maps Semantics.StoppedThread
open BitFlipRun VectorFlip MapsText

def so : List Char := ['.','s','o']

/-- The name ends in .so, with or without version components behind it. -/
def IsSharedLibrary (path : List Char) : Prop :=
  ∃ (stem : List Char) (versions : List (List Char)), path = stem ++ so ++ versions.flatMap (fun version => '.' :: version) ∧
    ∀ version ∈ versions, version ≠ [] ∧ ∀ c ∈ version, c.isDigit = true

theorem prefix_short (path : List Char) (i : Nat) (short : path.length < i + 3) : so.isPrefixOf (path.drop i) = false := by
  rw [Bool.eq_false_iff,ne_eq,List.isPrefixOf_iff_prefix]
  intro found
  have inside := found.length_le
  simp only [so,List.length_cons,List.length_nil,List.length_drop] at inside
  omega

theorem prefix_last (path : List Char) (k : Nat) (size : path.length = k + 3) :
    so.isPrefixOf (path.drop k) = true ↔ so <:+ path := by
  rw [List.isPrefixOf_iff_prefix,List.suffix_iff_eq_drop,size]
  constructor
  · intro found
    exact found.eq_of_length (by simp [so,size])
  · intro same
    exact (congrArg (so <+: ·) same.symm).mpr (List.prefix_refl so)

theorem rfind_so (path : List Char) (k : Nat) (size : path.length = k + 3) (ends : so <:+ path) :
    rfind path so = k := by
  have order : (List.range (path.length + 1)).reverse = [k + 3,k + 2,k + 1] ++ k :: (List.range k).reverse := by
    rw [size]
    simp [List.range_succ]
  rw [rfind,order,List.find?_append]
  have late (i : Nat) (above : k < i) := prefix_short path i (by omega)
  simp [late,(prefix_last path k size).mpr ends]

theorem rfind_found (path : List Char) :
    rfind path so = npos ∨ rfind path so + 3 ≤ path.length ∧ so.isPrefixOf (path.drop (rfind path so)) = true := by
  unfold rfind
  cases found : (List.range (path.length + 1)).reverse.find? fun i => so.isPrefixOf (path.drop i) with
  | none => exact .inl rfl
  | some i =>
    have first := List.find?_some found
    refine .inr ⟨?_,first⟩
    by_contra short
    rw [prefix_short path i (by simpa using short)] at first
    simp at first

theorem endsInSo_iff (path : List Char) (short : path.length < 2^64) :
    endsInSo path = true ↔ so <:+ path ∨ path.length = 2 := by
  have target : (path.length + 2^64 - 3) % 2^64 =
      if 3 ≤ path.length then path.length - 3 else path.length + 2^64 - 3 := by
    split
    · rw [show path.length + 2^64 - 3 = (path.length - 3) + 2^64 from by omega,Nat.add_mod_right]
      exact Nat.mod_eq_of_lt (by omega)
    · exact Nat.mod_eq_of_lt (by omega)
  change (rfind path so == _) = true ↔ _
  rw [beq_iff_eq,target]
  constructor
  · intro same
    rcases rfind_found path with none | ⟨inside,found⟩
    · rw [none,npos] at same
      right
      split at same <;> omega
    · rw [if_pos (by omega)] at same
      exact .inl ((prefix_last path _ (by omega)).mp found)
  · rintro (ends | two)
    · have long := ends.length_le
      have three : so.length = 3 := rfl
      obtain ⟨k,size⟩ : ∃ k, path.length = k + 3 := ⟨path.length - 3,by omega⟩
      rw [rfind_so path k size ends,if_pos (by omega)]
      omega
    · rcases rfind_found path with none | ⟨inside,_⟩
      · rw [none,npos,if_neg (by omega)]
        omega
      · omega

/-- A path is taken for a library only if .so occurs in it, and always if it ends there. -/
structure TestsSuffix (path : List Char) : Prop where
  sound : ¬ so <:+: path → endsInSo path = false
  complete : so <:+ path → endsInSo path = true

theorem testsSuffix_iff (path : List Char) (size : path.length < 2^64) : TestsSuffix path ↔ path.length ≠ 2 := by
  have judged := endsInSo_iff path size
  constructor
  · intro tests two
    have absent : ¬ so <:+: path := by
      intro inside
      have fits := inside.length_le
      simp [so,two] at fits
    have refused := tests.sound absent
    rw [judged.mpr (.inr two)] at refused
    cases refused
  · intro other
    constructor
    · intro absent
      rw [Bool.eq_false_iff,ne_eq,judged]
      rintro (ends | two)
      · exact absent ends.isInfix
      · exact other two
    · exact fun ends => judged.mpr (.inl ends)

theorem twoLetters_taken : ¬ so <:+: "/a".toList ∧ endsInSo "/a".toList = true ∧ ¬ TestsSuffix "/a".toList := by
  have absent : ¬ so <:+: "/a".toList := by decide
  have taken : endsInSo "/a".toList = true := by decide
  refine ⟨absent,taken,fun tests => ?_⟩
  rw [tests.sound absent] at taken
  cases taken

theorem repeatedSo_taken : so <:+ "/a.so/b.so".toList ∧ TestsSuffix "/a.so/b.so".toList :=
  ⟨by decide,(testsSuffix_iff _ (by decide)).mpr (by decide)⟩

def inject {σ : Type} (T : Tracee σ) (cs : Capstone) (opts : Options) (ip : BitVec 64)
    (rm : RegisterManipulator) : Prog Halt σ Bool := do
  let (reg,bit,success) ← getSelectedRegAndBit T cs opts ip
  if !success then return false
  flipSelected T rm reg bit

structure SameReads {σ : Type} (T T' : Tracee σ) : Prop where
  getRegs : T'.getRegs = T.getRegs
  getRegSet : T'.getRegSet = T.getRegSet
  maps : T'.maps = T.maps

/-- At a program counter in a library doBitFlip returns false whatever every other request
would do; elsewhere it goes on to select a register. -/
structure Judges {σ : Type} (T : Tracee σ) (cs : Capstone) (opts : Options) (garbage : Scanned) (pid : Nat)
    (ip : BitVec 64) (rm : RegisterManipulator) (s s' : σ) (library : Prop) : Prop where
  refused : library → ∀ T', SameReads T T' → exec (doBitFlip T' cs opts garbage pid) s = (.ok false,s')
  continued : ¬ library → ∀ T', SameReads T T' →
    exec (doBitFlip T' cs opts garbage pid) s = exec (inject T' cs opts ip rm) s'

def FileAt (layout : Layout) (addr : Nat) (path : List Char) : Prop :=
  ∃ v ∈ layout.vmas, (∃ deleted, v.backing = .file path deleted) ∧ v.start ≤ addr ∧ addr < v.stop

section
variable {σ : Type} (T : Tracee σ) (cs : Capstone) (opts : Options) (garbage : Scanned) (pid : Nat)
  (ip : BitVec 64) (rm : RegisterManipulator) (s s₁ s₂ : σ) (layout : Layout) (path : List Char)

theorem exec_doBitFlip (enabled : opts.dontInjectToLibs = true) (live : 0 < pid)
    (stopped : exec (getProgramCounter T .init) s = (.ok (ip,rm),s₁))
    (shown : exec T.maps s₁ = (.ok (some layout.text),s₂))
    (mapped : FileAt layout ip.toNat path) :
    exec (doBitFlip T cs opts garbage pid) s =
      if endsInSo (readAs garbage.path layout.vmas ip.toNat) then (.ok false,s₂)
      else exec (inject T cs opts ip rm) s₂ := by
  obtain ⟨v,member,_,inside⟩ := mapped
  have parsed : exec (addressSpace T garbage) s₁ = (.ok (mappingsFrom garbage.path layout.vmas),s₂) := by
    rw [addressSpace,exec_bind_of _ _ _ _ _ shown]
    dsimp only
    rw [exec_lift,parse_text]
  have checked : exec (liftM (skipsLibrary opts (mappingsFrom garbage.path layout.vmas) ip) : Prog Halt σ Bool) s₂ =
      (.ok (endsInSo (readAs garbage.path layout.vmas ip.toNat)),s₂) := by
    rw [exec_lift,skipsLibrary,if_pos enabled,isInLibrary_text layout garbage ip.toNat v member inside]
  have asserted : exec (liftM (assert (decide (pid > 0)) "Uninitialized?") : Prog Halt σ Unit) s = (.ok (),s) := by
    rw [exec_lift,assert,if_pos (by simpa using live)]
  unfold doBitFlip
  rw [exec_bind_of _ _ _ _ _ asserted,exec_bind_of _ _ _ _ _ stopped]
  dsimp only
  rw [exec_bind_of _ _ _ _ _ parsed,exec_bind_of _ _ _ _ _ checked]
  cases endsInSo (readAs garbage.path layout.vmas ip.toNat) <;> rfl

/-- The tracee whose memory cannot be read: it shows whether doBitFlip gets to a selection. -/
def unreadable (T : Tracee σ) : Tracee σ := {T with peekText := fun _ => fail .waiting}

theorem inject_unreadable : exec (inject (unreadable T) cs opts ip rm) s = (.error .waiting,s) := by
  have copied : exec (copyInstr (unreadable T) ip) s = (.error .waiting,s) := by
    rw [copyInstr,show List.range maxInstrBytes = 0 :: (List.range 15).map (· + 1) from rfl,List.foldlM_cons,
      exec_bind,exec_bind]
    rfl
  simp only [inject,getSelectedRegAndBit,getInstrRegisters,exec_bind,copied]

theorem exec_same (T' : Tracee σ) (same : SameReads T T') (enabled : opts.dontInjectToLibs = true)
    (live : 0 < pid) (stopped : exec (getProgramCounter T .init) s = (.ok (ip,rm),s₁))
    (shown : exec T.maps s₁ = (.ok (some layout.text),s₂)) (mapped : FileAt layout ip.toNat path) :
    exec (doBitFlip T' cs opts garbage pid) s =
      if endsInSo (readAs garbage.path layout.vmas ip.toNat) then (.ok false,s₂)
      else exec (inject T' cs opts ip rm) s₂ := by
  have counted : getProgramCounter T' .init = getProgramCounter T .init := by
    unfold getProgramCounter importRegistersTo
    rw [same.getRegs,same.getRegSet]
  exact exec_doBitFlip T' cs opts garbage pid ip rm s s₁ s₂ layout path enabled live (counted ▸ stopped)
    (same.maps ▸ shown) mapped

theorem judges_of_run (library : Prop) (skips : Bool)
    (run : ∀ T', SameReads T T' → exec (doBitFlip T' cs opts garbage pid) s =
      if skips then (.ok false,s₂) else exec (inject T' cs opts ip rm) s₂) :
    Judges T cs opts garbage pid ip rm s s₂ library ↔ (library ↔ skips = true) := by
  -- the tracee that cannot be read tells the two outcomes apart
  have blind := run (unreadable T) ⟨rfl,rfl,rfl⟩
  rw [inject_unreadable] at blind
  constructor
  · intro judges
    by_cases inside : library
    · have refused := judges.refused inside (unreadable T) ⟨rfl,rfl,rfl⟩
      rw [blind] at refused
      split at refused
      · next skipped => exact iff_of_true inside skipped
      · simp at refused
    · have continued := judges.continued inside (unreadable T) ⟨rfl,rfl,rfl⟩
      rw [blind,inject_unreadable] at continued
      split at continued
      · simp at continued
      · next went => exact iff_of_false inside went
  · intro agree
    refine ⟨fun inside T' same => ?_,fun outside T' same => ?_⟩
    · rw [run T' same,if_pos (agree.mp inside)]
    · rw [run T' same,if_neg fun skipped => outside (agree.mpr skipped)]

theorem judges_iff (enabled : opts.dontInjectToLibs = true) (live : 0 < pid)
    (stopped : exec (getProgramCounter T .init) s = (.ok (ip,rm),s₁))
    (shown : exec T.maps s₁ = (.ok (some layout.text),s₂)) (mapped : FileAt layout ip.toNat path) :
    Judges T cs opts garbage pid ip rm s s₂ (IsSharedLibrary path) ↔
      (IsSharedLibrary path ↔ endsInSo (readAs garbage.path layout.vmas ip.toNat) = true) :=
  judges_of_run _ _ _ _ _ _ _ _ _ _ _ fun T' same =>
    exec_same T cs opts garbage pid ip rm s s₁ s₂ layout path T' same enabled live stopped shown mapped

/-- With a short device number and no blank in the path, behind a gap in the address space:
what remains of the condition is about the name alone. -/
theorem plain_judges_iff (enabled : opts.dontInjectToLibs = true) (live : 0 < pid)
    (stopped : exec (getProgramCounter T .init) s = (.ok (ip,rm),s₁))
    (shown : exec T.maps s₁ = (.ok (some layout.text),s₂)) (v : Vma) (member : v ∈ layout.vmas) (deleted : Bool)
    (file : v.backing = .file path deleted) (inside : v.start ≤ ip.toNat ∧ ip.toNat < v.stop)
    (apart : ∀ w ∈ layout.vmas, w.stop ≠ ip.toNat) (short : v.device.length ≤ 5)
    (clean : ∀ c ∈ path, nonblank c = true) (size : path.length < 2^64) :
    Judges T cs opts garbage pid ip rm s s₂ (IsSharedLibrary path) ↔
      (IsSharedLibrary path ↔ so <:+ path ∨ path.length = 2) := by
  have shownPath : readAs garbage.path layout.vmas ip.toNat = path := by
    rw [readAs_own layout.vmas layout.ascending garbage.path ip.toNat v member inside apart short _
      (by rw [file]; rfl),escape_clean path clean]
    refine Numerals.takeWhile_run _ _ _ clean ?_
    cases deleted <;> (intro c head; cases head)
    rfl
  rw [judges_of_run _ _ _ _ _ _ _ _ _ _ _ fun T' same => exec_same T cs opts garbage pid ip rm s s₁ s₂ layout path
    T' same enabled live stopped shown ⟨v,member,⟨deleted,file⟩,inside⟩,shownPath,endsInSo_iff path size]

end

def rootFile (name : List Char) : Vma := ⟨0x1000,0x2000,true,false,true,false,0,8,2,131,.file ('/' :: name) false⟩

def oneFile (name : List Char) : Layout where
  vmas := [rootFile name]
  ranges := by simp [rootFile]
  ascending := List.pairwise_singleton _ _
  printable := by
    simp only [List.mem_singleton,forall_eq]
    exact ⟨'/',rfl,rfl⟩

theorem oneFile_at (name : List Char) : FileAt (oneFile name) 0x1000 ('/' :: name) :=
  ⟨rootFile name,List.mem_singleton_self _,⟨false,rfl⟩,by simp [rootFile]⟩

def showing (layout : Layout) : Env := {acceptingEnv with maps := fun _ => some layout.text}

def atFile : Machine := {child := ⟨fun i => if i.val = 129 then 0x10 else 0,fun _ => 0,fun _ => some 0⟩}

theorem atFile_counted (layout : Layout) :
    ∃ rm, exec (getProgramCounter (tracee (showing layout)) .init) atFile = (.ok (0x1000#64,rm),atFile) := by
  have same : getProgramCounter (tracee (showing layout)) .init = getProgramCounter (tracee acceptingEnv) .init := rfl
  apply getProgramCounter_of_value
  rw [same]
  decide +kernel

def noLibs : Options := {dontInjectToLibs := true}

theorem seq_judged : ∃ rm, Judges (tracee (showing (oneFile "seq".toList))) noCode noLibs ⟨0,0,[]⟩ 7 0x1000 rm
    atFile atFile (IsSharedLibrary "/seq".toList) := by
  obtain ⟨rm,stopped⟩ := atFile_counted (oneFile "seq".toList)
  refine ⟨rm,(judges_iff _ noCode noLibs ⟨0,0,[]⟩ 7 0x1000 rm atFile atFile atFile (oneFile "seq".toList) _ rfl
    (by decide) stopped rfl (oneFile_at _)).mpr (iff_of_false ?_ ?_)⟩
  · rintro ⟨stem,versions,same,_⟩
    have dot : '.' ∈ '/' :: "seq".toList := by rw [same]; simp [so]
    revert dot
    decide
  · decide

theorem libc_injected : IsSharedLibrary "/libc.so.6".toList ∧ FileAt (oneFile "libc.so.6".toList) 0x1000 "/libc.so.6".toList ∧
    ∃ rm, exec (getProgramCounter (tracee (showing (oneFile "libc.so.6".toList))) .init) atFile =
      (.ok (0x1000#64,rm),atFile) ∧
    ¬ Judges (tracee (showing (oneFile "libc.so.6".toList))) noCode noLibs ⟨0,0,[]⟩ 7 0x1000 rm atFile atFile
      (IsSharedLibrary "/libc.so.6".toList) := by
  obtain ⟨rm,stopped⟩ := atFile_counted (oneFile "libc.so.6".toList)
  have library : IsSharedLibrary "/libc.so.6".toList := ⟨"/libc".toList,[['6']],rfl,by simp⟩
  refine ⟨library,oneFile_at _,rm,stopped,fun judges => ?_⟩
  have ends := (judges_of_run _ _ _ _ _ _ _ _ _ _ _ fun T' same => exec_same _ noCode noLibs ⟨0,0,[]⟩ 7 0x1000 rm
    atFile atFile atFile (oneFile "libc.so.6".toList) _ T' same rfl (by decide) stopped rfl (oneFile_at _)).mp judges
  have skipped := ends.mp library
  revert skipped
  decide

end Zofi.Libraries
