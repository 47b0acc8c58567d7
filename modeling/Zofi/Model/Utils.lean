import Zofi.Lib.ByteImage
import Zofi.Lib.Sys

/-! Helpers of utils.h: the ways the program stops, checked memory accesses and the
string conversions of the options. -/
namespace Zofi.Model.Utils
open Zofi.ByteImage

/-- How a run of the tool ends without returning. `die` and a failed assertion call
abort(), `userDie` calls exit(1); `undefined` is C++ undefined behaviour; a run that is
`waiting` blocks in a system call. -/
inductive Halt
  | die (message : String)
  | userDie (message : String)
  | assertion (message : String)
  | undefined (message : String)
  | waiting
  deriving DecidableEq, Repr

def assert (condition : Bool) (message : String) : Except Halt Unit :=
  if condition then .ok () else .error (.assertion message)

abbrev Byte := BitVec 8

abbrev Image (n : Nat) := Fin n → Byte

def read {n : Nat} (image : Image n) (offset : Nat) : Except Halt Byte :=
  if inside : offset < n then .ok (image ⟨offset,inside⟩) else .error (.undefined "read outside the object")

def write {n : Nat} (image : Image n) (offset : Nat) (value : Byte) : Except Halt (Image n) :=
  if inside : offset < n then .ok (Function.update image ⟨offset,inside⟩ value)
  else .error (.undefined "write outside the object")

theorem read_inside {n : Nat} (image : Image n) (offset : Nat) (inside : offset < n) :
    read image offset = .ok (image ⟨offset,inside⟩) := dif_pos inside

theorem write_inside {n : Nat} (image : Image n) (offset : Nat) (value : Byte) (inside : offset < n) :
    write image offset value = .ok (Function.update image ⟨offset,inside⟩ value) := dif_pos inside

def isIn (haystack needle : String) : Bool := decide (needle.toList <:+: haystack.toList)

def isSpace (c : Char) : Bool := [' ','\t','\n','\x0b','\x0c','\r'].contains c

def longMin : Int := -(2^63)
def longMax : Int := 2^63 - 1

/-- `strtol(Str, &EndPtr, 10)`: the value, clamped to a long, and the text EndPtr is left at. -/
def strtol (text : List Char) : Int × List Char :=
  let body := text.dropWhile isSpace
  let (negative,digits) := match body with
    | '-' :: rest => (true,rest)
    | '+' :: rest => (false,rest)
    | rest => (false,rest)
  let run := digits.takeWhile Char.isDigit
  if run.isEmpty then (0,text)
  else
    let magnitude : Int := run.foldl (fun value c => 10 * value + (c.toNat - '0'.toNat)) 0
    let value := if negative then -magnitude else magnitude
    (max longMin (min longMax value),digits.dropWhile Char.isDigit)

def strtolSafe (text : String) : Except Halt Int :=
  let (value,rest) := strtol text.toList
  if text.toList = [] ∨ rest ≠ [] then .error (.userDie ("Bad number: " ++ text)) else .ok value

def toUnsigned (value : Int) : Nat := (value % 2^32).toNat

example : strtol "42x".toList = (42,['x']) := by decide

end Zofi.Model.Utils
