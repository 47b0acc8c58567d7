import Zofi.Model.Utils

/-! The address space of the child, read from /proc/<pid>/maps, and the library test. A character
of a line or a path stands for one byte. -/
namespace Zofi.Model.AddrSpace
open Utils

structure Mapping where
  fromAddr : Nat
  toAddr : Nat
  path : List Char
  deriving DecidableEq, Repr

def Mapping.less (a b : Mapping) : Bool := a.fromAddr < b.fromAddr && a.toAddr < b.toAddr

def Mapping.query (addr : Nat) : Mapping := ⟨addr,addr,"Query".toList⟩

abbrev MappingsSet := List Mapping

def MappingsSet.insert (m : Mapping) : MappingsSet → MappingsSet
  | [] => [m]
  | first :: rest =>
    if m.less first then m :: first :: rest
    else if first.less m then first :: MappingsSet.insert m rest
    else first :: rest

def MappingsSet.find (set : MappingsSet) (key : Mapping) : Option Mapping :=
  (set.dropWhile (·.less key)).head?.filter fun found => !key.less found

/-! The conversions of `sscanf`: the value and the text behind it, `none` on a matching
failure. The kernel prints hexadecimal numbers without sign or prefix. -/

def skipSpace (text : List Char) : List Char := text.dropWhile isSpace

def hexDigit (c : Char) : Option Nat :=
  if c.isDigit then some (c.toNat - '0'.toNat)
  else if 'a' ≤ c ∧ c ≤ 'f' then some (c.toNat - 'a'.toNat + 10)
  else if 'A' ≤ c ∧ c ≤ 'F' then some (c.toNat - 'A'.toNat + 10)
  else none

def scanHex (text : List Char) : Option (Nat × List Char) :=
  let body := skipSpace text
  let run := body.takeWhile fun c => (hexDigit c).isSome
  if run.isEmpty then none
  else some (min (2^64 - 1) (run.foldl (fun value c => 16 * value + (hexDigit c).getD 0) 0),
    body.drop run.length)

def scanWord (width : Nat) (text : List Char) : Option (List Char × List Char) :=
  let body := skipSpace text
  let run := (body.takeWhile fun c => !isSpace c).take width
  if run.isEmpty then none else some (run,body.drop run.length)

def scanLong (text : List Char) : Option (Int × List Char) :=
  let (value,rest) := strtol text
  if rest.length = text.length then none else some (value,rest)

def scanChar (c : Char) : List Char → Option (List Char)
  | first :: rest => if first = c then some rest else none
  | [] => none

/-- The variables `From`, `To` and `Path` that one line assigns. What a line leaves
unassigned keeps what the line before left there. -/
structure Scanned where
  fromAddr : Nat
  toAddr : Nat
  path : List Char
  deriving DecidableEq, Repr

/-- `sscanf(Line, "%lx-%lx %4s %lx %5s %ld %s", ..)` -/
def scanLine (old : Scanned) (line : List Char) : Scanned :=
  match scanHex line with
  | none => old
  | some (fromAddr,rest) =>
    let one := {old with fromAddr}
    match (scanChar '-' rest).bind scanHex with
    | none => one
    | some (toAddr,rest) =>
      let two := {one with toAddr}
      match (scanWord 4 rest).bind fun perms => (scanHex perms.2).bind fun num =>
          (scanWord 5 num.2).bind fun dev => (scanLong dev.2).bind fun inode =>
          scanWord line.length inode.2 with
      | none => two
      | some (path,_) => {two with path}

/-- The lines that `getline` delivers before it meets the end of the file: a last line
without its newline sets eof and is not processed. -/
def linesOf (text : List Char) : List (List Char) := (text.splitOn '\n').dropLast

/-- `AddressSpace::parse`; `garbage` is what the uninitialised variables hold at first. -/
def parse (garbage : Scanned) (text : List Char) : Except Halt MappingsSet := do
  let (_,set) ← (linesOf text).foldlM (fun (state : Scanned × MappingsSet) line => do
    let scanned := scanLine state.1 line
    assert (scanned.fromAddr ≤ scanned.toAddr) "Expected range."
    return (scanned,MappingsSet.insert ⟨scanned.fromAddr,scanned.toAddr,scanned.path⟩ state.2)) (garbage,[])
  return set

def npos : Nat := 2^64 - 1

def rfind (path needle : List Char) : Nat :=
  ((List.range (path.length + 1)).reverse.find? fun i => needle.isPrefixOf (path.drop i)).getD npos

def endsInSo (path : List Char) : Bool :=
  rfind path ".so".toList == (path.length + 2^64 - 3) % 2^64

def isInLibrary (set : MappingsSet) (addr : Nat) : Except Halt Bool :=
  match set.find (.query addr) with
  | none => .error (.die ("Could not find addr " ++ toString addr ++ " in address space"))
  | some found => .ok (endsInSo found.path)

example : scanLine ⟨0,0,[]⟩ "00400000-00452000 r-xp 00000000 08:02 173521 /bin/seq".toList =
    ⟨0x400000,0x452000,"/bin/seq".toList⟩ := by decide

end Zofi.Model.AddrSpace
