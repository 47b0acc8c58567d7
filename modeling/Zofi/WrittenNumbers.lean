import Zofi.Lib.Numerals
import Zofi.Model.Utils

/-! Which integer a text writes, and what strtol() makes of it. -/
namespace Zofi.WrittenNumbers
open Numerals Model.Utils

theorem isDigit_plain (c : Char) (digit : c.isDigit = true) : isSpace c = false ∧ c ≠ '-' ∧ c ≠ '+' := by
  refine ⟨?_,?_,?_⟩
  · cases space : isSpace c with
    | false => rfl
    | true =>
      have spaces : [' ','\t','\n','\x0b','\x0c','\r'].all (!·.isDigit) = true := by decide
      have other := List.all_eq_true.mp spaces c (by simpa [isSpace] using space)
      simp [digit] at other
  · rintro rfl
    simp at digit
  · rintro rfl
    simp at digit

def decDigit (c : Char) : Option Nat := if c.isDigit then some (c.toNat - '0'.toNat) else none

theorem decDigit_reads : Reads 10 decDigit := by unfold Reads; decide

theorem decDigit_value (c : Char) (digit : c.isDigit = true) : ((decDigit c).getD 0 : Int) = c.toNat - '0'.toNat := by
  have above : '0'.toNat ≤ c.toNat := by
    rw [Char.isDigit,Bool.and_eq_true] at digit
    exact UInt32.le_iff_toNat_le.mp (of_decide_eq_true digit.1)
  rw [decDigit,if_pos digit,Option.getD_some]
  omega

theorem magnitude_value (run : List Char) (all : ∀ c ∈ run, c.isDigit = true) (start : Nat) :
    run.foldl (fun (value : Int) c => 10 * value + (c.toNat - '0'.toNat)) start =
      (run.foldl (fun value c => 10 * value + (decDigit c).getD 0) start : Nat) := by
  induction run generalizing start with
  | nil => rfl
  | cons c run ih =>
    obtain ⟨first,rest⟩ := List.forall_mem_cons.mp all
    rw [List.foldl_cons,List.foldl_cons,← ih rest,← decDigit_value c first]
    push_cast
    rfl

theorem digits_decimal (n : Nat) : ∀ c ∈ Nat.toDigits 10 n, c.isDigit = true :=
  fun _ member => Nat.isDigit_of_mem_toDigits (by omega) (by omega) member

inductive Sign
  | without | plus | minus
  deriving DecidableEq, Repr

def Sign.text : Sign → List Char
  | .without => []
  | .plus => ['+']
  | .minus => ['-']

def Sign.apply : Sign → Nat → Int
  | .without,magnitude => magnitude
  | .plus,magnitude => magnitude
  | .minus,magnitude => -magnitude

def Writes (text : List Char) (n : Int) : Prop :=
  ∃ (blanks : List Char) (sign : Sign) (digits : List Char), text = blanks ++ (sign.text ++ digits) ∧
    (∀ c ∈ blanks, isSpace c = true) ∧ digits ≠ [] ∧ (∀ c ∈ digits, c.isDigit = true) ∧
    n = sign.apply (value 10 decDigit digits)

def Plain (sign : Sign) (digits : List Char) : Prop := sign = .without → ∀ c ∈ digits.head?, c ≠ '-' ∧ c ≠ '+'

theorem strtol_signed (text : List Char) (sign : Sign) (digits : List Char)
    (skipped : text.dropWhile isSpace = sign.text ++ digits) (plain : Plain sign digits) :
    strtol text = if (digits.takeWhile Char.isDigit).isEmpty then (0,text)
      else (max longMin (min longMax (sign.apply (value 10 decDigit (digits.takeWhile Char.isDigit)))),
        digits.dropWhile Char.isDigit) := by
  have run : ∀ c ∈ digits.takeWhile Char.isDigit, c.isDigit = true := fun c member => List.mem_takeWhile_imp member
  have magnitude := magnitude_value _ run 0
  unfold strtol
  rw [skipped]
  cases sign with
  | minus =>
    rw [Sign.apply,value,← magnitude]
    rfl
  | plus =>
    rw [Sign.apply,value,← magnitude]
    rfl
  | without =>
    rw [Sign.apply,value,← magnitude]
    dsimp only [Sign.text,List.nil_append]
    split
    · next rest => exact absurd rfl (plain rfl '-' rfl).1
    · next rest => exact absurd rfl (plain rfl '+' rfl).2
    · rfl

theorem signed_split (body : List Char) : ∃ sign digits, body = Sign.text sign ++ digits ∧ Plain sign digits := by
  by_cases minus : body.head? = some '-'
  · exact ⟨.minus,body.tail,(List.cons_head?_tail minus).symm,nofun⟩
  by_cases plus : body.head? = some '+'
  · exact ⟨.plus,body.tail,(List.cons_head?_tail plus).symm,nofun⟩
  refine ⟨.without,body,rfl,fun _ c head => ⟨?_,?_⟩⟩
  · rintro rfl
    exact minus head
  · rintro rfl
    exact plus head

/-- The text is this integer in decimal, with or without a sign. -/
def Decimal (text : List Char) (n : Int) : Prop :=
  ∃ (sign : Sign) (digits : List Char), text = sign.text ++ digits ∧ digits ≠ [] ∧
    (∀ c ∈ digits, c.isDigit = true) ∧ n = sign.apply (value 10 decDigit digits)

/-- The text begins with a decimal integer, behind these blanks, and goes on with a rest. -/
structure Number (text blanks number left : List Char) (n : Int) : Prop where
  split : text = blanks ++ (number ++ left)
  spaces : ∀ c ∈ blanks, isSpace c = true
  decimal : Decimal number n
  ends : ∀ c ∈ left.head?, c.isDigit = false

theorem Decimal.behind {number : List Char} {n : Int} (decimal : Decimal number n) (blanks : List Char)
    (spaces : ∀ c ∈ blanks, isSpace c = true) : Number (blanks ++ number) blanks number [] n where
  split := by rw [List.append_nil]
  spaces := spaces
  decimal := decimal
  ends := fun c head => by cases head

theorem Decimal.whole {text : List Char} {n : Int} (decimal : Decimal text n) : Number text [] text [] n :=
  decimal.behind [] (List.forall_mem_nil _)

theorem writes_number (text : List Char) (n : Int) (writes : Writes text n) :
    ∃ blanks number, Number text blanks number [] n := by
  obtain ⟨blanks,sign,digits,rfl,spaces,occupied,all,rfl⟩ := writes
  have decimal : Decimal (sign.text ++ digits) _ := ⟨sign,digits,rfl,occupied,all,rfl⟩
  exact ⟨blanks,_,decimal.behind blanks spaces⟩

theorem decimal_visible (text : List Char) (n : Int) (decimal : Decimal text n) :
    ∃ c rest, text = c :: rest ∧ isSpace c = false := by
  obtain ⟨sign,digits,rfl,occupied,all,_⟩ := decimal
  obtain ⟨c,rest,rfl⟩ := List.exists_cons_of_ne_nil occupied
  cases sign with
  | without => exact ⟨c,rest,rfl,(isDigit_plain c (all c List.mem_cons_self)).1⟩
  | plus => exact ⟨'+',_,rfl,by decide⟩
  | minus => exact ⟨'-',_,rfl,by decide⟩

theorem strtol_number {text blanks number left : List Char} {n : Int} (number : Number text blanks number left n) :
    strtol text = (max longMin (min longMax n),left) := by
  obtain ⟨rfl,spaces,decimal,ends⟩ := number
  obtain ⟨first,others,visible,solid⟩ := decimal_visible _ _ decimal
  obtain ⟨sign,digits,rfl,occupied,all,rfl⟩ := decimal
  obtain ⟨c,rest,rfl⟩ := List.exists_cons_of_ne_nil occupied
  have digit := all c List.mem_cons_self
  have plain : Plain sign (c :: rest ++ left) := fun _ d head => by cases head; exact (isDigit_plain c digit).2
  have stops : ∀ d ∈ (sign.text ++ c :: rest ++ left).head?, isSpace d = false := by
    rw [visible]
    intro d head
    cases head
    exact solid
  rw [strtol_signed _ sign (c :: rest ++ left)
      ((dropWhile_run isSpace blanks _ spaces stops).trans (List.append_assoc _ _ _)) plain,
    takeWhile_run _ _ _ all ends,dropWhile_run _ _ _ all ends]
  rfl

theorem strtol_writes (text : List Char) (n : Int) (writes : Writes text n) :
    strtol text = (max longMin (min longMax n),[]) := by
  obtain ⟨blanks,number,read⟩ := writes_number text n writes
  exact strtol_number read

theorem number_of_strtol (text : List Char) (moved : (strtol text).2 ≠ text) :
    ∃ blanks number left n, Number text blanks number left n := by
  obtain ⟨sign,digits,body,plain⟩ := signed_split (text.dropWhile isSpace)
  rw [strtol_signed text sign digits body plain] at moved
  split at moved
  · exact absurd rfl moved
  · next some =>
    have split : text = text.takeWhile isSpace ++
        (sign.text ++ digits.takeWhile Char.isDigit ++ digits.dropWhile Char.isDigit) := by
      rw [List.append_assoc,List.takeWhile_append_dropWhile,← body,List.takeWhile_append_dropWhile]
    have ends : ∀ c ∈ (digits.dropWhile Char.isDigit).head?, c.isDigit = false := by
      have stopped := List.head?_dropWhile_not Char.isDigit digits
      intro c head
      rw [head] at stopped
      simpa using stopped
    exact ⟨_,_,_,_,split,fun c member => List.mem_takeWhile_imp member,
      ⟨sign,_,rfl,by simpa using some,fun c member => List.mem_takeWhile_imp member,rfl⟩,ends⟩

theorem writes_of_strtol (text : List Char) (occupied : text ≠ []) (ended : (strtol text).2 = []) :
    ∃ n, Writes text n := by
  obtain ⟨blanks,number,left,n,read⟩ := number_of_strtol text (by rw [ended]; exact occupied.symm)
  obtain rfl : left = [] := by rw [← ended,strtol_number read]
  obtain ⟨rfl,spaces,⟨sign,digits,rfl,some,all,rfl⟩,_⟩ := read
  exact ⟨_,blanks,sign,digits,by rw [List.append_nil],spaces,some,all,rfl⟩

/-- A number below 512 that is left of an integer by the clamp and the cut to 32 bits. -/
theorem toUnsigned_written (n : Int) (natural : 0 ≤ n) (low : toUnsigned (max longMin (min longMax n)) < 512) :
    (toUnsigned (max longMin (min longMax n)) : Int) = n ↔ n < 2^32 ∨ 2^63 ≤ n ∨ 512 ≤ n % 2^32 := by
  unfold toUnsigned longMin longMax at *
  omega

end Zofi.WrittenNumbers
