import Zofi.Lib.Transitions

/-! Streams that are read in blocks, as stdio has them, and loops whose number of rounds is not
known before. -/
namespace Zofi.Streams
open Transitions

variable {α σ ρ : Type}

/-- A stream whose reads behind the content report the end or, if it `fails`, an error. -/
structure Reader (α : Type) where
  content : List α
  fails : Bool := false
  offset : Nat := 0
  eof : Bool := false
  error : Bool := false
  deriving DecidableEq, Repr

namespace Reader

def rest (reader : Reader α) : List α := reader.content.drop reader.offset

def rewind (reader : Reader α) : Reader α := {reader with offset := 0,eof := false,error := false}

/-- A short count sets one of the flags. -/
def fread (n : Nat) (reader : Reader α) : List α × Reader α :=
  let block := reader.rest.take n
  let short := decide (block.length < n)
  (block,{reader with
    offset := reader.offset + block.length
    eof := reader.eof || (short && !reader.fails)
    error := reader.error || (short && reader.fails)})

@[simp] theorem eof_rewind (reader : Reader α) : reader.rewind.eof = false := rfl

@[simp] theorem rest_fread (n : Nat) (reader : Reader α) : (reader.fread n).2.rest = reader.rest.drop n := by
  change reader.content.drop (reader.offset + (reader.rest.take n).length) = reader.rest.drop n
  rw [← List.drop_drop]
  change reader.rest.drop _ = _
  rw [List.length_take]
  rcases Nat.le_total n reader.rest.length with full | short
  · rw [Nat.min_eq_left full]
  · rw [Nat.min_eq_right short,List.drop_length,List.drop_eq_nil_of_le short]

theorem eof_fread_full (n : Nat) (reader : Reader α) (full : n ≤ reader.rest.length) :
    (reader.fread n).2.eof = reader.eof := by
  simp [fread,full]

theorem eof_fread_short (n : Nat) (reader : Reader α) (short : reader.rest.length < n) :
    (reader.fread n).2.eof = (reader.eof || !reader.fails) := by
  have cut : (reader.rest.take n).length < n := by
    rw [List.length_take]
    omega
  simp only [fread,cut,decide_true,Bool.true_and]

theorem eof_fread_fails (n : Nat) (reader : Reader α) (fails : reader.fails = true) :
    (reader.fread n).2.eof = reader.eof := by
  simp [fread,fails]

end Reader

theorem eq_iff_blocks (n : Nat) (a b : List α) : a = b ↔ a.take n = b.take n ∧ a.drop n = b.drop n := by
  constructor
  · rintro rfl
    exact ⟨rfl,rfl⟩
  · rintro ⟨first,rest⟩
    rw [← List.take_append_drop n a,← List.take_append_drop n b,first,rest]

theorem full_block (n : Nat) (a b : List α) (same : a.take n = b.take n) (differ : a ≠ b) : n ≤ a.length := by
  by_contra short
  have whole : a.take n = a := List.take_of_length_le (by omega)
  have cut := congrArg List.length same
  rw [whole,List.length_take] at cut
  have other : b.take n = b := List.take_of_length_le (by omega)
  exact differ (by rw [← whole,same,other])

/-- A loop whose body either leaves it with a result or goes on, in at most `fuel` rounds. -/
def iterate (round : σ → ρ ⊕ σ) : Nat → σ → Option ρ
  | 0,_ => none
  | fuel + 1,s =>
    match round s with
    | .inl result => some result
    | .inr next => iterate round fuel next

theorem iterate_returns (round : σ → ρ ⊕ σ) (invariant : σ → Prop) (measure : σ → Nat) (result : ρ)
    (each : ∀ s, invariant s → round s = .inl result ∨
      ∃ next, round s = .inr next ∧ invariant next ∧ measure next < measure s)
    (s : σ) (initial : invariant s) (fuel : Nat) (enough : measure s < fuel) : iterate round fuel s = some result := by
  induction fuel generalizing s with
  | zero => omega
  | succ fuel ih =>
    rw [iterate]
    rcases each s initial with left | ⟨next,ran,kept,less⟩
    · rw [left]
    · rw [ran]
      exact ih next kept (by omega)

theorem iterate_endless (round : σ → ρ ⊕ σ) (invariant : σ → Prop)
    (each : ∀ s, invariant s → ∃ next, round s = .inr next ∧ invariant next) (s : σ) (initial : invariant s)
    (fuel : Nat) : iterate round fuel s = none := by
  induction fuel generalizing s with
  | zero => rfl
  | succ fuel ih =>
    obtain ⟨next,ran,kept⟩ := each s initial
    rw [iterate,ran]
    exact ih next kept

theorem iterate_mono (round : σ → ρ ⊕ σ) (fuel more : Nat) (le : fuel ≤ more) (s : σ) (result : ρ)
    (ends : iterate round fuel s = some result) : iterate round more s = some result := by
  induction fuel generalizing s more with
  | zero => cases ends
  | succ fuel ih =>
    cases more with
    | zero => cases le
    | succ more =>
      rw [iterate] at ends ⊢
      cases ran : round s with
      | inl early =>
        rw [ran] at ends
        exact ends
      | inr next =>
        rw [ran] at ends
        exact ih more (Nat.le_of_succ_le_succ le) next ends

theorem iterate_unique (round : σ → ρ ⊕ σ) (one two : Nat) (s : σ) (first second : ρ)
    (ends : iterate round one s = some first) (other : iterate round two s = some second) : first = second := by
  have later := iterate_mono round one (one + two) (Nat.le_add_right _ _) s first ends
  have same := iterate_mono round two (one + two) (Nat.le_add_left _ _) s second other
  exact Option.some.inj (later.symm.trans same)

def Goes (round : σ → ρ ⊕ σ) (s : σ) (_ : Unit) (next : σ) : Prop := round s = .inr next

theorem iterate_behind (round : σ → ρ ⊕ σ) (result : ρ) {start s : σ} {rounds : List Unit}
    (run : Run (Goes round) start rounds s) (fuel : Nat) (ends : iterate round fuel s = some result) :
    ∃ enough, iterate round enough start = some result := by
  induction run generalizing fuel with
  | nil => exact ⟨fuel,ends⟩
  | snoc rounds s label next run goes ih =>
    apply ih (fuel + 1)
    rw [iterate,goes]
    exact ends

/-- The loop ends with a result exactly where a run comes to a state that gives it. -/
theorem iterate_iff_run (round : σ → ρ ⊕ σ) (start : σ) (result : ρ) :
    (∃ fuel, iterate round fuel start = some result) ↔
      ∃ rounds s, Run (Goes round) start rounds s ∧ round s = .inl result := by
  constructor
  · rintro ⟨fuel,ends⟩
    induction fuel generalizing start with
    | zero => cases ends
    | succ fuel ih =>
      rw [iterate] at ends
      cases ran : round start with
      | inl early =>
        rw [ran] at ends
        cases ends
        exact ⟨[],start,.nil,ran⟩
      | inr next =>
        rw [ran] at ends
        obtain ⟨rounds,s,run,left⟩ := ih next ends
        exact ⟨[()] ++ rounds,s,(Run.snoc [] _ _ _ .nil ran).trans run,left⟩
  · rintro ⟨rounds,s,run,left⟩
    apply iterate_behind round result run 1
    rw [iterate,left]

end Zofi.Streams
