import Mathlib.Logic.Relation

/-! A party whose requests are served by an environment that goes on by itself. The
schedule lists the events to come; a request is blocked until an event answers it. -/
namespace Zofi.Schedule

variable {σ ε α : Type}

/-- An event that is not allowed in a state does not happen there. -/
structure Environment (σ ε : Type) where
  step : σ → ε → σ
  allows : σ → ε → Bool

def serve (env : Environment σ ε) (answers : σ → ε → Option (α × σ)) : List ε → σ → Option α × σ × List ε
  | [],s => (none,s,[])
  | event :: rest,s =>
    if env.allows s event then
      match answers s event with
      | some (value,next) => (some value,next,rest)
      | none => serve env answers rest (env.step s event)
    else serve env answers rest s

inductive Happens (env : Environment σ ε) (s : σ) : σ → Prop
  | event (event : ε) (allowed : env.allows s event = true) : Happens env s (env.step s event)

def Moves (env : Environment σ ε) : σ → σ → Prop := Relation.ReflTransGen (Happens env)

def Stable (env : Environment σ ε) (inv : σ → Prop) : Prop :=
  ∀ s event, env.allows s event = true → inv s → inv (env.step s event)

theorem Stable.moves {env : Environment σ ε} {inv : σ → Prop} (stable : Stable env inv) {s s' : σ}
    (moves : Moves env s s') (start : inv s) : inv s' := by
  induction moves with
  | refl => exact start
  | tail _ happens ih =>
    obtain ⟨event,allowed⟩ := happens
    exact stable _ event allowed ih

theorem Stable.and {env : Environment σ ε} {one two : σ → Prop} (first : Stable env one)
    (second : Stable env two) : Stable env fun s => one s ∧ two s :=
  fun s event allowed both => ⟨first s event allowed both.1,second s event allowed both.2⟩

theorem Stable.or {env : Environment σ ε} {one two : σ → Prop} (first : Stable env one)
    (second : Stable env two) : Stable env fun s => one s ∨ two s :=
  fun s event allowed either => either.imp (first s event allowed) (second s event allowed)

theorem Stable.any {ι : Sort*} {env : Environment σ ε} {inv : ι → σ → Prop} (each : ∀ i, Stable env (inv i)) :
    Stable env fun s => ∃ i, inv i s :=
  fun s event allowed some => some.imp fun i => each i s event allowed

/-- The request is answered in `middle`, a state the environment has moved to meanwhile. -/
inductive Served (env : Environment σ ε) (answers : σ → ε → Option (α × σ)) (s : σ) (value : α) (s' : σ) : Prop
  | intro (middle : σ) (event : ε) (moves : Moves env s middle) (allowed : env.allows middle event = true)
      (answer : answers middle event = some (value,s')) : Served env answers s value s'

theorem Served.after {env : Environment σ ε} {answers : σ → ε → Option (α × σ)} {s next s' : σ} {value : α}
    (first : Happens env s next) (served : Served env answers next value s') :
    Served env answers s value s' := by
  obtain ⟨middle,event,moves,allowed,answer⟩ := served
  exact ⟨middle,event,.head first moves,allowed,answer⟩

theorem serve_some (env : Environment σ ε) (answers : σ → ε → Option (α × σ)) (future left : List ε)
    (s s' : σ) (value : α) (ran : serve env answers future s = (some value,s',left)) :
    Served env answers s value s' := by
  induction future generalizing s with
  | nil => simp [serve] at ran
  | cons event rest ih =>
    rw [serve] at ran
    split at ran
    next allowed =>
      split at ran
      next answered next answer =>
        cases ran
        exact ⟨s,event,.refl,allowed,answer⟩
      next => exact (ih _ ran).after (.event event allowed)
    next => exact ih s ran

theorem serve_none (env : Environment σ ε) (answers : σ → ε → Option (α × σ)) (future left : List ε)
    (s s' : σ) (ran : serve env answers future s = (none,s',left)) : Moves env s s' := by
  induction future generalizing s with
  | nil =>
    cases ran
    exact .refl
  | cons event rest ih =>
    rw [serve] at ran
    split at ran
    next allowed =>
      split at ran
      next => cases ran
      next => exact .head (.event event allowed) (ih _ ran)
    next => exact ih s ran

end Zofi.Schedule
