import Zofi.Lib.Numerals
import Zofi.Model.AddrSpace

/-! The text of /proc/<pid>/maps: the kernel prints one line for each mapping of the process,
in ascending order. -/
namespace Zofi.Semantics.Maps
open Numerals Model.Utils Model.AddrSpace

/-- `label` is a name the kernel makes up, such as [heap]. -/
inductive Backing
  | anonymous
  | label (name : List Char)
  | file (path : List Char) (deleted : Bool)
  deriving DecidableEq, Repr

structure Vma where
  start : Nat
  stop : Nat
  readable : Bool := true
  writable : Bool := false
  executable : Bool := true
  shared : Bool := false
  offset : Nat := 0
  major : Nat
  minor : Nat
  inode : Nat
  backing : Backing
  deriving DecidableEq, Repr

/-- A newline in a path is printed as an octal escape; other blanks are printed as they are. -/
def escape (path : List Char) : List Char :=
  path.flatMap fun c => if c = '\n' then ['\\','0','1','2'] else [c]

def Backing.column : Backing → Option (List Char)
  | .anonymous => none
  | .label name => some name
  | .file path deleted => some (escape path ++ if deleted then " (deleted)".toList else [])

def Vma.perms (v : Vma) : List Char :=
  [if v.readable then 'r' else '-',if v.writable then 'w' else '-',if v.executable then 'x' else '-',
    if v.shared then 's' else 'p']

def Vma.device (v : Vma) : List Char := padded 2 16 v.major ++ ':' :: padded 2 16 v.minor

def columnWidth : Nat := 72

def pathField (behind : Nat) : Option (List Char) → List Char
  | none => []
  | some text => List.replicate (columnWidth - behind) ' ' ++ ' ' :: text

def Vma.fields (v : Vma) (tail : List Char) : List Char :=
  padded 8 16 v.start ++ '-' :: (padded 8 16 v.stop ++ ' ' :: (v.perms ++ ' ' :: (padded 8 16 v.offset ++
    ' ' :: (v.device ++ ' ' :: (Nat.toDigits 10 v.inode ++ ' ' :: tail)))))

def Vma.line (v : Vma) : List Char := v.fields (pathField (v.fields []).length v.backing.column)

def Visible (text : List Char) : Prop := ∃ c ∈ text.head?, isSpace c = false

def Backing.Printable : Backing → Prop
  | .anonymous => True
  | .label name => Visible name ∧ '\n' ∉ name
  | .file path _ => Visible path

structure Layout where
  vmas : List Vma
  ranges : ∀ v ∈ vmas, v.start < v.stop ∧ v.stop < 2^64
  ascending : vmas.Pairwise fun a b => a.stop ≤ b.start
  printable : ∀ v ∈ vmas, v.backing.Printable

def Layout.text (layout : Layout) : List Char := layout.vmas.flatMap fun v => v.line ++ ['\n']

example : Vma.line ⟨0x400000,0x452000,true,false,true,false,0,8,2,173521,.file "/bin/seq".toList false⟩ =
    "00400000-00452000 r-xp 00000000 08:02 173521                             /bin/seq".toList := by
  decide

end Zofi.Semantics.Maps
