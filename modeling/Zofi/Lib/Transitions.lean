import Mathlib.Tactic.Common

/-! Runs of a labelled transition relation, the invariant rule, and the run to a final
state that progress and a decreasing measure give. -/
namespace Zofi.Transitions

variable {σ ε : Type} {step : σ → ε → σ → Prop}

inductive Run (step : σ → ε → σ → Prop) (start : σ) : List ε → σ → Prop
  | nil : Run step start [] start
  | snoc (trace : List ε) (s : σ) (label : ε) (s' : σ) (run : Run step start trace s) (move : step s label s') :
      Run step start (trace ++ [label]) s'

theorem Run.invariant {start : σ} (inv : List ε → σ → Prop) (initial : inv [] start)
    (keeps : ∀ trace s label s', inv trace s → step s label s' → inv (trace ++ [label]) s')
    {trace : List ε} {s : σ} (run : Run step start trace s) : inv trace s := by
  induction run with
  | nil => exact initial
  | snoc trace s label s' run move ih => exact keeps trace s label s' ih move

theorem Run.trans {start middle final : σ} {first second : List ε} (one : Run step start first middle)
    (two : Run step middle second final) : Run step start (first ++ second) final := by
  induction two with
  | nil => simpa using one
  | snoc trace s label s' run move ih =>
    rw [← List.append_assoc]
    exact .snoc _ _ _ _ ih move

/-- Where every state that is not final has a step that lowers the measure, a run from any
state of the invariant reaches a final one. -/
theorem Run.exists_final (inv final : σ → Prop) (measure : σ → Nat)
    (progress : ∀ s, inv s → ¬ final s → ∃ label s', step s label s' ∧ inv s' ∧ measure s' < measure s)
    (start : σ) (initial : inv start) : ∃ trace s, Run step start trace s ∧ inv s ∧ final s := by
  induction bound : measure start using Nat.strongRecOn generalizing start with
  | _ n ih =>
    by_cases done : final start
    · exact ⟨[],start,.nil,initial,done⟩
    · obtain ⟨label,next,move,kept,lower⟩ := progress start initial done
      obtain ⟨trace,s,run,holds,ended⟩ := ih (measure next) (bound ▸ lower) next kept rfl
      exact ⟨[label] ++ trace,s,(Run.snoc [] _ _ _ .nil move).trans run,holds,ended⟩

end Zofi.Transitions
