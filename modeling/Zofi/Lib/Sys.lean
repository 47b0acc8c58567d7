import Mathlib.Tactic.Common

/-! Programs over a state that either return or stop with an error, in the state they
have reached, and the rules by which a run is taken apart. -/
namespace Zofi.Sys

variable {ε σ α β : Type}

abbrev Prog (ε σ α : Type) := ExceptT ε (StateM σ) α

def exec (program : Prog ε σ α) (s : σ) : Except ε α × σ := (ExceptT.run program).run s

def outcome (program : Prog ε σ α) (s : σ) : Except ε α := (exec program s).1

theorem outcome_ok (program : Prog ε σ α) (s : σ) (value : α) (ok : outcome program s = .ok value) :
    ∃ s', exec program s = (.ok value,s') := ⟨_,Prod.ext ok rfl⟩

@[simp] theorem exec_pure (value : α) (s : σ) : exec (pure value : Prog ε σ α) s = (.ok value,s) := rfl

@[simp] theorem exec_throw (error : ε) (s : σ) :
    exec (throw error : Prog ε σ α) s = (.error error,s) := rfl

@[simp] theorem exec_lift (value : Except ε α) (s : σ) :
    exec (liftM value : Prog ε σ α) s = (value,s) := rfl

@[simp] theorem exec_get (s : σ) : exec (get : Prog ε σ σ) s = (.ok s,s) := rfl

@[simp] theorem exec_set (next s : σ) : exec (set next : Prog ε σ PUnit) s = (.ok ⟨⟩,next) := rfl

@[simp] theorem exec_modify (change : σ → σ) (s : σ) :
    exec (modify change : Prog ε σ PUnit) s = (.ok ⟨⟩,change s) := rfl

theorem exec_bind (first : Prog ε σ α) (next : α → Prog ε σ β) (s : σ) :
    exec (first >>= next) s =
      match exec first s with
      | (.ok value,middle) => exec (next value) middle
      | (.error error,middle) => (.error error,middle) := by
  change (ExceptT.run (first >>= next)).run s = _
  simp only [ExceptT.run_bind,StateT.run_bind,exec]
  cases run : (ExceptT.run first).run s with
  | mk result middle => cases result <;> rfl

theorem exec_map (change : α → β) (program : Prog ε σ α) (s : σ) :
    exec (change <$> program) s =
      match exec program s with
      | (.ok value,final) => (.ok (change value),final)
      | (.error error,final) => (.error error,final) := by
  rw [map_eq_pure_bind,exec_bind]
  rfl

theorem exec_bind_of (first : Prog ε σ α) (next : α → Prog ε σ β) (value : α) (s middle : σ)
    (ran : exec first s = (.ok value,middle)) : exec (first >>= next) s = exec (next value) middle := by
  rw [exec_bind,ran]

theorem bind_ok (first : Prog ε σ α) (next : α → Prog ε σ β) (result : β) (s s' : σ)
    (ok : exec (first >>= next) s = (.ok result,s')) :
    ∃ value middle, exec first s = (.ok value,middle) ∧ exec (next value) middle = (.ok result,s') := by
  rw [exec_bind] at ok
  cases run : exec first s with
  | mk outcome middle =>
    cases outcome with
    | error e => rw [run] at ok; simp at ok
    | ok value => rw [run] at ok; exact ⟨value,middle,rfl,ok⟩

theorem pure_ok (value result : α) (s s' : σ)
    (ok : exec (pure value : Prog ε σ α) s = (.ok result,s')) : result = value ∧ s' = s := by
  rw [exec_pure] at ok
  cases ok
  exact ⟨rfl,rfl⟩

theorem bind_ok_iff (first : Prog ε σ α) (next : α → Prog ε σ β) (result : β) (s s' : σ) :
    exec (first >>= next) s = (.ok result,s') ↔
      ∃ value middle, exec first s = (.ok value,middle) ∧ exec (next value) middle = (.ok result,s') := by
  constructor
  · exact bind_ok first next result s s'
  · rintro ⟨value,middle,ran,ok⟩
    rw [exec_bind_of _ _ _ _ _ ran,ok]

theorem bind_pure_ok_iff (first : Prog ε σ PUnit) (value result : β) (s s' : σ) :
    exec (first >>= fun _ => pure value) s = (.ok result,s') ↔ result = value ∧ exec first s = (.ok ⟨⟩,s') := by
  rw [bind_ok_iff]
  constructor
  · rintro ⟨_,_,ran,ok⟩
    obtain ⟨rfl,rfl⟩ := pure_ok _ _ _ _ ok
    exact ⟨rfl,ran⟩
  · rintro ⟨rfl,ran⟩
    exact ⟨_,_,ran,rfl⟩

theorem lift_ok (value : Except ε α) (result : α) (s s' : σ)
    (ok : exec (liftM value : Prog ε σ α) s = (.ok result,s')) : value = .ok result ∧ s' = s := by
  rw [exec_lift] at ok
  cases ok
  exact ⟨rfl,rfl⟩

theorem except_bind_ok (first : Except ε α) (next : α → Except ε β) (result : β)
    (ok : first >>= next = .ok result) : ∃ value, first = .ok value ∧ next value = .ok result := by
  cases first with
  | error e => simp [bind,Except.bind] at ok
  | ok value => exact ⟨value,rfl,ok⟩

theorem option_bind_ok (first : ExceptT ε Option α) (next : α → ExceptT ε Option β) (result : β)
    (ran : (first >>= next).run = some (.ok result)) :
    ∃ value, first.run = some (.ok value) ∧ (next value).run = some (.ok result) := by
  rw [ExceptT.run_bind] at ran
  rcases run : first.run with _ | error | value
  · rw [run] at ran
    cases ran
  · rw [run] at ran
    cases ran
  · rw [run] at ran
    exact ⟨value,rfl,ran⟩

theorem option_bind_error (first : ExceptT ε Option α) (next : α → ExceptT ε Option β) (error : ε)
    (ran : (first >>= next).run = some (.error error)) :
    first.run = some (.error error) ∨ ∃ value, first.run = some (.ok value) ∧ (next value).run = some (.error error) := by
  rw [ExceptT.run_bind] at ran
  rcases run : first.run with _ | early | value
  · rw [run] at ran
    cases ran
  · rw [run] at ran
    cases ran
    exact .inl rfl
  · rw [run] at ran
    exact .inr ⟨value,rfl,ran⟩

theorem mapM_of_pure {m : Type → Type} [Monad m] [LawfulMonad m] (f : α → m β) (g : α → β) (items : List α)
    (each : ∀ item ∈ items, f item = pure (g item)) : items.mapM f = pure (items.map g) := by
  induction items with
  | nil => rfl
  | cons item items ih =>
    obtain ⟨first,rest⟩ := List.forall_mem_cons.mp each
    rw [List.mapM_cons,first,ih rest,pure_bind,pure_bind,List.map_cons]

theorem exec_lift_bind (first : Except ε α) (next : α → Except ε β) (s : σ) :
    exec (liftM first >>= fun value => liftM (next value) : Prog ε σ β) s = (first >>= next,s) := by
  rw [exec_bind,exec_lift]
  cases first with
  | error e => rfl
  | ok value => exact exec_lift _ _

def Keeps (relation : σ → σ → Prop) (program : Prog ε σ α) : Prop :=
  ∀ s, relation s (exec program s).2

theorem Keeps.pure {relation : σ → σ → Prop} (same : ∀ s, relation s s) (value : α) :
    Keeps relation (pure value : Prog ε σ α) := fun s => same s

theorem Keeps.throw {relation : σ → σ → Prop} (same : ∀ s, relation s s) (error : ε) :
    Keeps relation (throw error : Prog ε σ α) := fun s => same s

theorem Keeps.lift {relation : σ → σ → Prop} (same : ∀ s, relation s s) (value : Except ε α) :
    Keeps relation (liftM value : Prog ε σ α) := fun s => same s

theorem Keeps.bind {relation : σ → σ → Prop}
    (chain : ∀ a b c, relation a b → relation b c → relation a c)
    {first : Prog ε σ α} {next : α → Prog ε σ β} (head : Keeps relation first)
    (tail : ∀ value, Keeps relation (next value)) : Keeps relation (first >>= next) := by
  intro s
  have before := head s
  rw [exec_bind]
  cases run : exec first s with
  | mk outcome middle =>
    rw [run] at before
    cases outcome with
    | error e => exact before
    | ok value => exact chain _ _ _ before (tail value middle)

theorem Keeps.foldlM {relation : σ → σ → Prop} (same : ∀ s, relation s s)
    (chain : ∀ a b c, relation a b → relation b c → relation a c)
    {step : β → α → Prog ε σ β} (each : ∀ b item, Keeps relation (step b item)) (items : List α)
    (start : β) : Keeps relation (items.foldlM step start) := by
  induction items generalizing start with
  | nil => exact Keeps.pure same start
  | cons item items ih =>
    rw [List.foldlM_cons]
    exact Keeps.bind chain (each start item) fun next => ih next

/-- A run of `program` relates the state before to the state after, unless it returns a
value that is `good`. -/
def KeepsUnless (good : α → Prop) (relation : σ → σ → Prop) (program : Prog ε σ α) : Prop :=
  ∀ s, (∀ value, (exec program s).1 = .ok value → ¬ good value) → relation s (exec program s).2

theorem Keeps.unless {relation : σ → σ → Prop} {program : Prog ε σ α} (keeps : Keeps relation program)
    (good : α → Prop) : KeepsUnless good relation program := fun s _ => keeps s

theorem KeepsUnless.bind {good : β → Prop} {relation : σ → σ → Prop}
    (chain : ∀ a b c, relation a b → relation b c → relation a c)
    {first : Prog ε σ α} {next : α → Prog ε σ β} (head : Keeps relation first)
    (tail : ∀ value, KeepsUnless good relation (next value)) :
    KeepsUnless good relation (first >>= next) := by
  intro s never
  have before := head s
  rw [exec_bind] at never ⊢
  cases run : exec first s with
  | mk outcome middle =>
    rw [run] at before never
    cases outcome with
    | error e => exact before
    | ok value => exact chain _ _ _ before (tail value middle never)

theorem foldlM_ok {τ : Type} (step : τ → α → Except ε τ) (invariant : τ → Prop)
    (sound : ∀ t item t', invariant t → step t item = .ok t' → invariant t') (items : List α)
    (start last : τ) (initial : invariant start) (ran : items.foldlM step start = .ok last) :
    invariant last := by
  induction items generalizing start with
  | nil =>
    obtain rfl : start = last := by simpa [pure,Except.pure] using ran
    exact initial
  | cons item items ih =>
    rw [List.foldlM_cons] at ran
    cases head : step start item with
    | error e => rw [head] at ran; simp [bind,Except.bind] at ran
    | ok next =>
      rw [head] at ran
      exact ih next (sound start item next initial head) ran

theorem foldlM_keeps {τ : Type} (step : τ → α → Except ε τ) (invariant : τ → Prop) (items : List α)
    (sound : ∀ t, invariant t → ∀ item ∈ items, ∃ t', step t item = .ok t' ∧ invariant t')
    (start : τ) (initial : invariant start) :
    ∃ last, items.foldlM step start = .ok last ∧ invariant last := by
  induction items generalizing start with
  | nil => exact ⟨start,rfl,initial⟩
  | cons item items ih =>
    obtain ⟨next,ran,kept⟩ := sound start initial item (by simp)
    obtain ⟨last,rest,final⟩ := ih (fun t h i member => sound t h i (by simp [member])) next kept
    refine ⟨last,?_,final⟩
    simpa only [List.foldlM_cons,ran,bind,Except.bind] using rest

theorem foldlM_ok_iff {τ : Type} (step : τ → α → Except ε τ) (allowed : α → Prop) (after : τ → α → τ)
    (each : ∀ t item t', step t item = .ok t' ↔ allowed item ∧ t' = after t item) (items : List α)
    (start last : τ) :
    items.foldlM step start = .ok last ↔ (∀ item ∈ items, allowed item) ∧ last = items.foldl after start := by
  induction items generalizing start with
  | nil => simp [pure,Except.pure,eq_comm]
  | cons item items ih =>
    rw [List.foldlM_cons,List.foldl_cons]
    constructor
    · intro ran
      obtain ⟨next,head,tail⟩ := except_bind_ok _ _ _ ran
      obtain ⟨first,rfl⟩ := (each _ _ _).mp head
      obtain ⟨others,rfl⟩ := (ih _).mp tail
      exact ⟨List.forall_mem_cons.mpr ⟨first,others⟩,rfl⟩
    · rintro ⟨all,rfl⟩
      obtain ⟨first,others⟩ := List.forall_mem_cons.mp all
      rw [(each start item _).mpr ⟨first,rfl⟩]
      exact (ih _).mpr ⟨others,rfl⟩

theorem forM_ok_iff (step : α → Except ε Unit) (items : List α) :
    items.forM step = .ok () ↔ ∀ item ∈ items, step item = .ok () := by
  induction items with
  | nil => exact iff_of_true rfl (List.forall_mem_nil _)
  | cons item items ih =>
    rw [List.forall_mem_cons,← ih]
    constructor
    · intro ok
      obtain ⟨⟨⟩,first,rest⟩ := except_bind_ok _ _ _ ok
      exact ⟨first,rest⟩
    · rintro ⟨first,rest⟩
      change step item >>= _ = _
      rw [first]
      exact rest

def FailsAs (allowed : ε → Prop) (program : Except ε α) : Prop := ∀ error, program = .error error → allowed error

theorem FailsAs.ok (allowed : ε → Prop) (value : α) : FailsAs allowed (.ok value : Except ε α) := by
  intro error failed
  cases failed

theorem FailsAs.error {allowed : ε → Prop} {error : ε} (fine : allowed error) :
    FailsAs allowed (.error error : Except ε α) := by
  intro other failed
  cases failed
  exact fine

theorem FailsAs.bind {allowed : ε → Prop} {first : Except ε α} {next : α → Except ε β} (head : FailsAs allowed first)
    (tail : ∀ value, FailsAs allowed (next value)) : FailsAs allowed (first >>= next) := by
  cases first with
  | error e =>
    intro error failed
    cases failed
    exact head e rfl
  | ok value => exact tail value

theorem FailsAs.foldlM {τ : Type} {allowed : ε → Prop} {step : τ → α → Except ε τ}
    (each : ∀ t item, FailsAs allowed (step t item)) (items : List α) (start : τ) :
    FailsAs allowed (items.foldlM step start) := by
  induction items generalizing start with
  | nil => exact FailsAs.ok allowed start
  | cons item items ih =>
    rw [List.foldlM_cons]
    exact FailsAs.bind (each start item) ih

end Zofi.Sys
