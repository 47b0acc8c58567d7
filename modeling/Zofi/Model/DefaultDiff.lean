import Zofi.Lib.Streams
import Zofi.Model.Utils

/-! defaultDiff() on the streams of two descriptors. -/
namespace Zofi.Model.DefaultDiff
open Utils Streams

structure Descriptor where
  content : List Byte
  offset : Nat := 0
  fails : Bool := false
  deriving DecidableEq, Repr

abbrev Descriptors := Int → Option Descriptor

def Descriptor.stream (file : Descriptor) : Reader Byte :=
  {content := file.content,fails := file.fails,offset := file.offset}

def fdopen (files : Descriptors) (fd : Int) : Option (Reader Byte) := (files fd).map Descriptor.stream

def openStream (files : Descriptors) (name : String) (fd : Int) : Except Halt (Reader Byte) :=
  match fdopen files fd with
  | some fp => .ok fp
  | none => .error (.die ("Failed to open " ++ name ++ " " ++ toString fd))

def N : Nat := 256

/-- One round of the loop: `.inl` is what `Diff` is when the loop is left. -/
def diffRound : Reader Byte × Reader Byte → Bool ⊕ (Reader Byte × Reader Byte)
  | (fp1,fp2) =>
    let (buf1,fp1) := fp1.fread N
    let (buf2,fp2) := fp2.fread N
    if buf1.length ≠ buf2.length ∨ buf1 ≠ buf2 then .inl true
    else if !fp1.eof || !fp2.eof then .inr (fp1,fp2)
    else .inl false

/-- `none`: the loop has not been left after `fuel` rounds. -/
def defaultDiff (files : Descriptors) (fuel : Nat) (fd1 fd2 : Int) : Except Halt (Option Bool) := do
  let fp1 ← openStream files "Fd1" fd1
  let fp2 ← openStream files "Fd2" fd2
  return (iterate diffRound fuel (fp1.rewind,fp2.rewind)).map fun diff => !diff

end Zofi.Model.DefaultDiff
