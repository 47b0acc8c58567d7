import Mathlib.Data.List.TakeWhile

/-! Numerals of any base: what is printed reads back, also with leading zeros, and the run
of digits at the head of a text ends where the numeral ends. -/
namespace Zofi.Numerals

variable {base : Nat} {digit : Char → Option Nat}

def value (base : Nat) (digit : Char → Option Nat) (text : List Char) : Nat :=
  text.foldl (fun value c => base * value + (digit c).getD 0) 0

def Reads (base : Nat) (digit : Char → Option Nat) : Prop := ∀ d < base, digit d.digitChar = some d

theorem value_snoc (text : List Char) (c : Char) :
    value base digit (text ++ [c]) = base * value base digit text + (digit c).getD 0 := by
  simp [value]

theorem value_toDigits (reads : Reads base digit) (wide : 1 < base) (n : Nat) :
    value base digit (Nat.toDigits base n) = n := by
  induction n using Nat.strongRecOn with
  | ind n ih =>
    by_cases small : n < base
    · rw [Nat.toDigits_of_lt_base small]
      simp [value,reads n small]
    · have below : n / base < n := Nat.div_lt_self (by omega) wide
      have last : n % base < base := Nat.mod_lt _ (by omega)
      rw [Nat.toDigits_of_base_le wide (by omega),value_snoc,ih _ below,reads _ last]
      exact Nat.div_add_mod n base

theorem digits_toDigits (reads : Reads base digit) (wide : 1 < base) (n : Nat) :
    ∀ c ∈ Nat.toDigits base n, (digit c).isSome = true := by
  induction n using Nat.strongRecOn with
  | ind n ih =>
    intro c member
    by_cases small : n < base
    · rw [Nat.toDigits_of_lt_base small,List.mem_singleton] at member
      rw [member,reads n small]
      rfl
    · have below : n / base < n := Nat.div_lt_self (by omega) wide
      have last : n % base < base := Nat.mod_lt _ (by omega)
      rw [Nat.toDigits_of_base_le wide (by omega),List.mem_append,List.mem_singleton] at member
      rcases member with early | rfl
      · exact ih _ below c early
      · rw [reads _ last]
        rfl

/-- At least `width` digits, as printf's `%0*x`. -/
def padded (width base n : Nat) : List Char :=
  List.replicate (width - (Nat.toDigits base n).length) '0' ++ Nat.toDigits base n

theorem padded_ne_nil (width base n : Nat) : padded width base n ≠ [] := by simp [padded]

theorem digits_padded (reads : Reads base digit) (wide : 1 < base) (width n : Nat) :
    ∀ c ∈ padded width base n, (digit c).isSome = true := by
  intro c member
  rcases List.mem_append.mp member with zero | tail
  · have first := reads 0 (by omega)
    rw [List.eq_of_mem_replicate zero,show '0' = Nat.digitChar 0 from rfl,first]
    rfl
  · exact digits_toDigits reads wide n c tail

theorem value_padded (reads : Reads base digit) (wide : 1 < base) (width n : Nat) :
    value base digit (padded width base n) = n := by
  have zeros (count : Nat) : value base digit (List.replicate count '0') = 0 := by
    have first := reads 0 (by omega)
    induction count with
    | zero => rfl
    | succ count ih =>
      rw [List.replicate_succ',value_snoc,ih,show '0' = Nat.digitChar 0 from rfl,first]
      rfl
  calc
    value base digit (padded width base n)
      = (Nat.toDigits base n).foldl (fun value c => base * value + (digit c).getD 0)
          (value base digit (List.replicate (width - (Nat.toDigits base n).length) '0')) :=
        List.foldl_append
    _ = n := by rw [zeros]; exact value_toDigits reads wide n

theorem takeWhile_run {α : Type} (p : α → Bool) (run rest : List α) (all : ∀ a ∈ run, p a = true)
    (stops : ∀ a ∈ rest.head?, p a = false) : (run ++ rest).takeWhile p = run := by
  rw [List.takeWhile_append_of_pos all]
  cases rest with
  | nil => simp
  | cons a rest => simp [stops a rfl]

theorem dropWhile_run {α : Type} (p : α → Bool) (run rest : List α) (all : ∀ a ∈ run, p a = true)
    (stops : ∀ a ∈ rest.head?, p a = false) : (run ++ rest).dropWhile p = rest := by
  rw [List.dropWhile_append_of_pos all]
  cases rest with
  | nil => rfl
  | cons a rest => simp [stops a rfl]

end Zofi.Numerals
