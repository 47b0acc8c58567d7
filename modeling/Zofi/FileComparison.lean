import Zofi.Model.DefaultDiff
import Zofi.Outputs

/-! defaultDiff() compares what two descriptors deliver from their start; it does not come to an
end where a stream fails before a difference is found. -/
namespace Zofi.FileComparison
open Model.Utils Streams Model.DefaultDiff

theorem round_left (fp1 fp2 : Reader Byte) (differ : fp1.rest.take N ≠ fp2.rest.take N) :
    diffRound (fp1,fp2) = .inl true := if_pos (.inr differ)

theorem round_same (fp1 fp2 : Reader Byte) (same : fp1.rest.take N = fp2.rest.take N) :
    diffRound (fp1,fp2) =
      if !(fp1.fread N).2.eof || !(fp2.fread N).2.eof then .inr ((fp1.fread N).2,(fp2.fread N).2) else .inl false := by
  apply if_neg
  rintro (length | bytes)
  · exact length (congrArg List.length same)
  · exact bytes same

def Differing (fps : Reader Byte × Reader Byte) : Prop := fps.1.rest ≠ fps.2.rest ∧ fps.1.eof = false

theorem differing_round (fps : Reader Byte × Reader Byte) (differing : Differing fps) :
    diffRound fps = .inl true ∨
      ∃ next, diffRound fps = .inr next ∧ Differing next ∧ next.1.rest.length < fps.1.rest.length := by
  obtain ⟨fp1,fp2⟩ := fps
  obtain ⟨differ,reading⟩ := differing
  by_cases same : fp1.rest.take N = fp2.rest.take N
  · have full := full_block N _ _ same differ
    have reads : (fp1.fread N).2.eof = false := (fp1.eof_fread_full N full).trans reading
    have later : fp1.rest.drop N ≠ fp2.rest.drop N := fun equal => differ ((eq_iff_blocks N _ _).mpr ⟨same,equal⟩)
    refine .inr ⟨((fp1.fread N).2,(fp2.fread N).2),?_,⟨by simpa using later,reads⟩,?_⟩
    · rw [round_same fp1 fp2 same,reads]
      rfl
    · have positive : 0 < N := by decide
      simp only [Reader.rest_fread,List.length_drop]
      omega
  · exact .inl (round_left fp1 fp2 same)

structure Ending (fps : Reader Byte × Reader Byte) : Prop where
  same : fps.1.rest = fps.2.rest
  reading : fps.1.eof = false
  sound : fps.1.fails = false ∧ fps.2.fails = false

theorem ending_round (fps : Reader Byte × Reader Byte) (ending : Ending fps) :
    diffRound fps = .inl false ∨
      ∃ next, diffRound fps = .inr next ∧ Ending next ∧ next.1.rest.length < fps.1.rest.length := by
  obtain ⟨fp1,fp2⟩ := fps
  obtain ⟨same,reading,sound1,sound2⟩ := ending
  dsimp only at same reading sound1 sound2
  have block : fp1.rest.take N = fp2.rest.take N := by rw [same]
  rw [round_same fp1 fp2 block]
  by_cases short : fp1.rest.length < N
  · have end1 := fp1.eof_fread_short N short
    have end2 := fp2.eof_fread_short N (same ▸ short)
    rw [sound1] at end1
    rw [sound2] at end2
    exact .inl (by simp [end1,end2])
  · have full := Nat.le_of_not_lt short
    have reads : (fp1.fread N).2.eof = false := (fp1.eof_fread_full N full).trans reading
    refine .inr ⟨((fp1.fread N).2,(fp2.fread N).2),by rw [reads]; rfl,⟨by simp [same],reads,sound1,sound2⟩,?_⟩
    have positive : 0 < N := by decide
    simp only [Reader.rest_fread,List.length_drop]
    omega

/-- The streams deliver the same, and one of them will never be at its end. -/
structure Hanging (fps : Reader Byte × Reader Byte) : Prop where
  same : fps.1.rest = fps.2.rest
  fails : (fps.1.fails = true ∧ fps.1.eof = false) ∨ (fps.2.fails = true ∧ fps.2.eof = false)

theorem hanging_round (fps : Reader Byte × Reader Byte) (hanging : Hanging fps) :
    ∃ next, diffRound fps = .inr next ∧ Hanging next := by
  obtain ⟨fp1,fp2⟩ := fps
  obtain ⟨same,fails⟩ := hanging
  dsimp only at same fails
  have block : fp1.rest.take N = fp2.rest.take N := by rw [same]
  have later : (fp1.fread N).2.rest = (fp2.fread N).2.rest := by simp [same]
  rw [round_same fp1 fp2 block]
  rcases fails with ⟨fails,reading⟩ | ⟨fails,reading⟩
  · have reads := (fp1.eof_fread_fails N fails).trans reading
    exact ⟨((fp1.fread N).2,(fp2.fread N).2),by rw [reads]; rfl,later,.inl ⟨fails,reads⟩⟩
  · have reads := (fp2.eof_fread_fails N fails).trans reading
    exact ⟨((fp1.fread N).2,(fp2.fread N).2),by rw [reads]; simp,later,.inr ⟨fails,reads⟩⟩

theorem differing_found (fp1 fp2 : Reader Byte) (differ : fp1.content ≠ fp2.content) (fuel : Nat)
    (enough : fp1.content.length < fuel) : iterate diffRound fuel (fp1.rewind,fp2.rewind) = some true := by
  apply iterate_returns diffRound Differing (fun fps => fps.1.rest.length) true differing_round
  · exact ⟨differ,fp1.eof_rewind⟩
  · exact enough

theorem ending_found (fp1 fp2 : Reader Byte) (same : fp1.content = fp2.content)
    (sound : fp1.fails = false ∧ fp2.fails = false) (fuel : Nat) (enough : fp1.content.length < fuel) :
    iterate diffRound fuel (fp1.rewind,fp2.rewind) = some false := by
  apply iterate_returns diffRound Ending (fun fps => fps.1.rest.length) false ending_round
  · exact ⟨same,fp1.eof_rewind,sound⟩
  · exact enough

theorem hanging_never (fp1 fp2 : Reader Byte) (same : fp1.content = fp2.content)
    (fails : fp1.fails = true ∨ fp2.fails = true) (fuel : Nat) :
    iterate diffRound fuel (fp1.rewind,fp2.rewind) = none := by
  apply iterate_endless diffRound Hanging hanging_round
  refine ⟨same,?_⟩
  exact fails.imp (fun fails => ⟨fails,fp1.eof_rewind⟩) fun fails => ⟨fails,fp2.eof_rewind⟩

theorem readable_left (fp1 fp2 : Reader Byte) (sound : fp1.fails = false ∧ fp2.fails = false) (fuel : Nat)
    (enough : fp1.content.length < fuel) :
    iterate diffRound fuel (fp1.rewind,fp2.rewind) = some (!decide (fp1.content = fp2.content)) := by
  by_cases same : fp1.content = fp2.content
  · rw [ending_found fp1 fp2 same sound fuel enough,decide_eq_true same]
    rfl
  · rw [differing_found fp1 fp2 same fuel enough,decide_eq_false same]
    rfl

theorem defaultDiff_opened (files : Descriptors) (fuel : Nat) (fd1 fd2 : Int) (one two : Descriptor)
    (first : files fd1 = some one) (second : files fd2 = some two) :
    defaultDiff files fuel fd1 fd2 =
      .ok ((iterate diffRound fuel (one.stream.rewind,two.stream.rewind)).map fun diff => !diff) := by
  unfold defaultDiff openStream fdopen
  rw [first,second]
  rfl

/-- Whatever the offsets on entry are, the whole files are compared. -/
theorem defaultDiff_decides (files : Descriptors) (fd1 fd2 : Int) (one two : Descriptor) (first : files fd1 = some one)
    (second : files fd2 = some two) (sound : one.fails = false ∧ two.fails = false) (fuel : Nat)
    (enough : one.content.length < fuel) :
    defaultDiff files fuel fd1 fd2 = .ok (some (decide (one.content = two.content))) := by
  rw [defaultDiff_opened files fuel fd1 fd2 one two first second,
    readable_left one.stream two.stream sound fuel enough,Option.map_some,Bool.not_not]
  rfl

def opened (one two : Descriptor) : Descriptors := fun fd => if fd = 3 then some one else if fd = 4 then some two else none

theorem prefix_differs : defaultDiff (opened ⟨[0x78],1,false⟩ ⟨[0x78,0x79],0,false⟩) 2 3 4 = .ok (some false) :=
  defaultDiff_decides (opened ⟨[0x78],1,false⟩ ⟨[0x78,0x79],0,false⟩) 3 4 _ _ rfl rfl ⟨rfl,rfl⟩ 2 (by decide)

theorem defaultDiff_contents (files : Descriptors) (fd1 fd2 : Int) (one two : Descriptor) (first : files fd1 = some one)
    (second : files fd2 = some two) (sound : one.fails = false ∧ two.fails = false) (fuel : Nat)
    (enough : one.content.length < fuel) :
    defaultDiff files fuel fd1 fd2 = .ok (some (Model.RunAndWait.defaultDiff one.content two.content)) := by
  have same : Model.RunAndWait.defaultDiff one.content two.content = decide (one.content = two.content) := by
    rw [Bool.eq_iff_iff,Outputs.defaultDiff_iff,decide_eq_true_eq]
  rw [defaultDiff_opened files fuel fd1 fd2 one two first second,
    readable_left one.stream two.stream sound fuel enough,Option.map_some,Bool.not_not,same]
  rfl

def Terminates (files : Descriptors) (fd1 fd2 : Int) : Prop :=
  ∃ fuel same, defaultDiff files fuel fd1 fd2 = .ok (some same)

/-- The loop is left exactly where it finds a difference, or both streams report their end. -/
theorem terminates_iff (files : Descriptors) (fd1 fd2 : Int) (one two : Descriptor) (first : files fd1 = some one)
    (second : files fd2 = some two) :
    Terminates files fd1 fd2 ↔ one.content ≠ two.content ∨ (one.fails = false ∧ two.fails = false) := by
  have loop (fuel : Nat) := defaultDiff_opened files fuel fd1 fd2 one two first second
  constructor
  · rintro ⟨fuel,same,ran⟩
    by_contra hangs
    rw [not_or,Classical.not_not,not_and_or,Bool.not_eq_false,Bool.not_eq_false] at hangs
    rw [loop,hanging_never one.stream two.stream hangs.1 hangs.2 fuel] at ran
    cases ran
  · have enough : one.stream.content.length < one.content.length + 1 := Nat.lt_succ_self _
    rintro (differ | sound)
    · refine ⟨one.content.length + 1,false,?_⟩
      rw [loop,differing_found one.stream two.stream differ _ enough]
      rfl
    · refine ⟨one.content.length + 1,!!decide (one.content = two.content),?_⟩
      rw [loop,readable_left one.stream two.stream sound _ enough]
      rfl

/-- A file and a directory, which cannot be read: the first block differs. -/
theorem difference_terminates : Terminates (opened ⟨[0x78],0,false⟩ ⟨[],0,true⟩) 3 4 :=
  (terminates_iff (opened ⟨[0x78],0,false⟩ ⟨[],0,true⟩) 3 4 _ _ rfl rfl).mpr (.inl (by decide))

def emptyAndDirectory : Descriptors := opened ⟨[],0,false⟩ ⟨[],0,true⟩

theorem directory_hangs : ¬ Terminates emptyAndDirectory 3 4 := by
  rintro ⟨fuel,same,ran⟩
  have hangs := hanging_never (Descriptor.stream ⟨[],0,false⟩) (Descriptor.stream ⟨[],0,true⟩) rfl (.inr rfl) fuel
  rw [defaultDiff_opened emptyAndDirectory fuel 3 4 ⟨[],0,false⟩ ⟨[],0,true⟩ rfl rfl,hangs] at ran
  cases ran

end Zofi.FileComparison
