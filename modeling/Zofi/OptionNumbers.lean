import Zofi.Model.Options
import Zofi.WrittenNumbers

/-! Which integers an option of an integer type keeps as they are written. -/
namespace Zofi.OptionNumbers
open Numerals WrittenNumbers Model.Utils Model.Options

def Unsigned : NumberType → Prop
  | .unsigned | .unsignedLong => True
  | .int | .long => False

def Holds : NumberType → Int → Prop
  | .int,n => -2^31 ≤ n ∧ n < 2^31
  | .unsigned,n => 0 ≤ n ∧ n < 2^32
  | .long,n => -2^63 ≤ n ∧ n < 2^63
  | .unsignedLong,n => 0 ≤ n ∧ n < 2^64

theorem magnitude_digits (run : List Char) (all : ∀ c ∈ run, c.isDigit = true) :
    run.foldl (fun value c => 10 * value + (c.toNat - '0'.toNat)) 0 = value 10 decDigit run := by
  apply List.foldl_ext
  intro value c member
  rw [decDigit,if_pos (all c member),Option.getD_some]

def fromDigits (sign : Sign) (run : List Char) : Nat :=
  let magnitude := run.foldl (fun value c => 10 * value + (c.toNat - '0'.toNat)) 0
  if 2^64 ≤ magnitude then 2^64 - 1 else if sign = .minus then (2^64 - magnitude) % 2^64 else magnitude

theorem strtoul_signed (text : List Char) (sign : Sign) (digits : List Char)
    (skipped : text.dropWhile isSpace = sign.text ++ digits) (plain : Plain sign digits) : strtoul text =
      if (digits.takeWhile Char.isDigit).isEmpty then (0,text)
      else (fromDigits sign (digits.takeWhile Char.isDigit),digits.dropWhile Char.isDigit) := by
  unfold strtoul
  rw [skipped]
  cases sign with
  | minus => rfl
  | plus => rfl
  | without =>
    dsimp only [Sign.text,List.nil_append]
    split
    · next rest => exact absurd rfl (plain rfl '-' rfl).1
    · next rest => exact absurd rfl (plain rfl '+' rfl).2
    · rfl

theorem fromDigits_natural (sign : Sign) (run : List Char) (all : ∀ c ∈ run, c.isDigit = true)
    (natural : 0 ≤ sign.apply (value 10 decDigit run)) :
    fromDigits sign run = (min (sign.apply (value 10 decDigit run)) (2^64 - 1)).toNat := by
  unfold fromDigits
  rw [magnitude_digits run all]
  cases sign with
  | without =>
    unfold Sign.apply
    simp only [reduceCtorEq,if_false]
    split <;> omega
  | plus =>
    unfold Sign.apply
    simp only [reduceCtorEq,if_false]
    split <;> omega
  | minus =>
    have zero : value 10 decDigit run = 0 := by
      change 0 ≤ -(value 10 decDigit run : Int) at natural
      omega
    rw [zero]
    rfl

theorem strtoul_natural (text : List Char) (n : Int) (writes : Writes text n) (natural : 0 ≤ n) :
    strtoul text = ((min n (2^64 - 1)).toNat,[]) := by
  obtain ⟨blanks,sign,digits,rfl,spaces,occupied,all,rfl⟩ := writes
  obtain ⟨first,others,visible,solid⟩ := decimal_visible _ _ ⟨sign,digits,rfl,occupied,all,rfl⟩
  have stops : ∀ d ∈ (sign.text ++ digits).head?, isSpace d = false := by
    rw [visible]
    intro d head
    cases head
    exact solid
  have plain : Plain sign digits := fun _ c head => (isDigit_plain c (all c (List.mem_of_mem_head? head))).2
  rw [strtoul_signed _ sign digits (dropWhile_run isSpace blanks _ spaces stops) plain,
    List.takeWhile_eq_self_iff.mpr all,List.dropWhile_eq_nil_iff.mpr all,if_neg (by simpa using occupied),
    fromDigits_natural sign digits all natural]

def kept : NumberType → Int → Int
  | .int,n => (max longMin (min longMax n)).bmod (2^32)
  | .unsigned,n => min n (2^64 - 1) % 2^32
  | .long,n => max longMin (min longMax n)
  | .unsignedLong,n => min n (2^64 - 1)

theorem getValForStr_writes (type : NumberType) (str : String) (n : Int) (writes : Writes str.toList n)
    (natural : Unsigned type → 0 ≤ n) : type.getValForStr str = .ok (kept type n) := by
  have occupied : str.toList ≠ [] := by
    obtain ⟨blanks,sign,digits,split,_,some,_⟩ := writes
    rw [split]
    simp [some]
  have signed : strtolSafe str = .ok (max longMin (min longMax n)) := by
    rw [strtolSafe,strtol_writes _ n writes]
    exact if_neg (by simp [occupied])
  have unsigned (nonnegative : 0 ≤ n) : strtoulSafe str = .ok (min n (2^64 - 1)).toNat := by
    rw [strtoulSafe,convertSafe,strtoul_natural _ n writes nonnegative]
    exact if_neg (by simp [occupied])
  cases type with
  | int =>
    rw [NumberType.getValForStr,signed]
    rfl
  | long => exact signed
  | unsigned =>
    have nonnegative := natural trivial
    rw [NumberType.getValForStr,unsigned nonnegative]
    change Except.ok (((min n (2^64 - 1)).toNat % 2^32 : Nat) : Int) = .ok (kept .unsigned n)
    simp only [kept]
    congr 1
    omega
  | unsignedLong =>
    have nonnegative := natural trivial
    rw [NumberType.getValForStr,unsigned nonnegative]
    change Except.ok ((min n (2^64 - 1)).toNat : Int) = .ok (kept .unsignedLong n)
    simp only [kept]
    congr 1
    omega

theorem kept_iff (type : NumberType) (n : Int) (natural : Unsigned type → 0 ≤ n) : kept type n = n ↔ Holds type n := by
  cases type with
  | int =>
    simp only [kept,Holds,longMin,longMax]
    constructor
    · intro same
      have low := Int.le_bmod (x := max (-(2^63)) (min (2^63 - 1) n)) (m := 2^32) (by decide)
      have high := Int.bmod_lt (x := max (-(2^63)) (min (2^63 - 1) n)) (m := 2^32) (by decide)
      rw [same] at low high
      omega
    · rintro ⟨low,high⟩
      have clamped : max (-(2^63)) (min (2^63 - 1) n) = n := by omega
      rw [clamped]
      exact Int.bmod_eq_of_le (by omega) (by omega)
  | unsigned =>
    have nonnegative := natural trivial
    simp only [kept,Holds]
    omega
  | long =>
    simp only [kept,Holds,longMin,longMax]
    omega
  | unsignedLong =>
    have nonnegative := natural trivial
    simp only [kept,Holds]
    omega

theorem keepsNumber_iff (type : NumberType) (strVal : String) (n : Int) (writes : Writes strVal.toList n)
    (natural : Unsigned type → 0 ≤ n) (opt : NumberOption) :
    (∀ opt', opt.setValueFromStr type strVal = .ok opt' → opt'.val = n) ↔ Holds type n := by
  have given : opt.setValueFromStr type strVal = .ok ⟨kept type n,true⟩ := by
    rw [NumberOption.setValueFromStr,getValForStr_writes type strVal n writes natural]
    rfl
  rw [given,← kept_iff type n natural]
  constructor
  · intro keeps
    exact keeps _ rfl
  · rintro same opt' ⟨⟩
    exact same

theorem hundred_kept : ∃ opt', NumberOption.setValueFromStr .unsigned "100" ⟨1,false⟩ = .ok opt' ∧ opt'.val = 100 := by
  have writes : Writes "100".toList 100 :=
    ⟨[],.without,"100".toList,rfl,List.forall_mem_nil _,by decide,List.all_eq_true.mp rfl,rfl⟩
  have given : NumberOption.setValueFromStr .unsigned "100" ⟨1,false⟩ = .ok ⟨100,true⟩ := by decide
  exact ⟨_,given,(keepsNumber_iff .unsigned "100" 100 writes (fun _ => by decide) ⟨1,false⟩).mpr ⟨by decide,by decide⟩ _ given⟩

theorem testRuns_wrapped : Writes "4294967296".toList 4294967296 ∧
    ¬ ∀ opt', NumberOption.setValueFromStr .unsigned "4294967296" ⟨1,false⟩ = .ok opt' → opt'.val = 4294967296 := by
  refine ⟨⟨[],.without,"4294967296".toList,rfl,List.forall_mem_nil _,by decide,List.all_eq_true.mp rfl,rfl⟩,?_⟩
  intro keeps
  have wrapped : NumberOption.setValueFromStr .unsigned "4294967296" ⟨1,false⟩ = .ok ⟨0,true⟩ := by decide
  exact absurd (keeps _ wrapped) (by decide)

section Registered

variable {ρ : Type}

def numberType : OptType → Option NumberType
  | .int => some .int
  | .unsigned => some .unsigned
  | .unsignedLong => some .unsignedLong
  | _ => none

def number : Value ρ → Option Int
  | .int value => some value
  | .unsigned value => some value
  | .unsignedLong value => some value
  | _ => none

theorem getValForStr_number (strtod : List Char → ρ × List Char) (str : String) (type : OptType) (integer : NumberType)
    (typed : numberType type = some integer) :
    (getValForStr strtod str type).map number = (integer.getValForStr str).map some := by
  cases type with
  | int =>
    cases typed
    rw [getValForStr,NumberType.getValForStr]
    cases strtolSafe str <;> rfl
  | unsigned =>
    cases typed
    rw [getValForStr,NumberType.getValForStr]
    cases strtoulSafe str <;> rfl
  | unsignedLong =>
    cases typed
    rw [getValForStr,NumberType.getValForStr]
    cases strtoulSafe str <;> rfl
  | _ => cases typed

end Registered

end Zofi.OptionNumbers
