import Zofi.Lib.Sys

/-! Pre- and postconditions of programs: one postcondition for the value a run returns, one
for the error it stops with. -/
namespace Zofi.Sys

variable {ε σ α β : Type} {fails : ε → Prop}

def Triple (fails : ε → Prop) (pre : σ → Prop) (program : Prog ε σ α) (post : α → σ → Prop) : Prop :=
  ∀ s, pre s → match exec program s with
    | (.ok value,s') => post value s'
    | (.error error,_) => fails error

namespace Triple

theorem ok {pre : σ → Prop} {program : Prog ε σ α} {post : α → σ → Prop}
    (triple : Triple fails pre program post) {s s' : σ} {value : α} (start : pre s)
    (ran : exec program s = (.ok value,s')) : post value s' := by
  have holds := triple s start
  rw [ran] at holds
  exact holds

theorem error {pre : σ → Prop} {program : Prog ε σ α} {post : α → σ → Prop}
    (triple : Triple fails pre program post) {s : σ} {error : ε} (start : pre s)
    (ran : (exec program s).1 = .error error) : fails error := by
  have holds := triple s start
  cases run : exec program s with
  | mk outcome s' =>
    rw [run] at holds ran
    obtain rfl : outcome = .error error := ran
    exact holds

theorem of_runs {pre : σ → Prop} {program : Prog ε σ α} {post : α → σ → Prop}
    (returns : ∀ s value s', pre s → exec program s = (.ok value,s') → post value s')
    (stops : ∀ s error s', pre s → exec program s = (.error error,s') → fails error) :
    Triple fails pre program post := by
  intro s start
  cases run : exec program s with
  | mk outcome s' =>
    cases outcome with
    | error e => exact stops s e s' start run
    | ok value => exact returns s value s' start run

theorem pure {pre : σ → Prop} {post : α → σ → Prop} (value : α) (holds : ∀ s, pre s → post value s) :
    Triple fails pre (pure value : Prog ε σ α) post := holds

theorem throw {pre : σ → Prop} {post : α → σ → Prop} (error : ε) (holds : ∀ s, pre s → fails error) :
    Triple fails pre (throw error : Prog ε σ α) post := holds

theorem get {pre : σ → Prop} : Triple fails pre (get : Prog ε σ σ) fun value s => value = s ∧ pre s :=
  fun _ start => ⟨rfl,start⟩

theorem modify {pre : σ → Prop} (post : σ → Prop) (change : σ → σ) (holds : ∀ s, pre s → post (change s)) :
    Triple fails pre (modify change : Prog ε σ PUnit) fun _ => post := holds

theorem lift {pre : σ → Prop} (post : α → σ → Prop) (value : Except ε α)
    (returns : ∀ s result, pre s → value = .ok result → post result s)
    (stops : ∀ s error, pre s → value = .error error → fails error) :
    Triple fails pre (liftM value : Prog ε σ α) post := by
  intro s start
  rw [exec_lift]
  cases value with
  | error e => exact stops s e start rfl
  | ok result => exact returns s result start rfl

theorem bind {pre : σ → Prop} {middle : α → σ → Prop} {post : β → σ → Prop} {first : Prog ε σ α}
    {next : α → Prog ε σ β} (head : Triple fails pre first middle)
    (tail : ∀ value, Triple fails (middle value) (next value) post) :
    Triple fails pre (first >>= next) post := by
  intro s start
  have before := head s start
  rw [exec_bind]
  cases run : exec first s with
  | mk outcome s' =>
    rw [run] at before
    cases outcome with
    | error e => exact before
    | ok value => exact tail value s' before

theorem weaken {pre pre' : σ → Prop} {program : Prog ε σ α} {post post' : α → σ → Prop}
    (triple : Triple fails pre program post) (before : ∀ s, pre' s → pre s)
    (after : ∀ value s, post value s → post' value s) : Triple fails pre' program post' := by
  apply of_runs
  · intro s value s' start ran
    exact after value s' (triple.ok (before s start) ran)
  · intro s error s' start ran
    exact triple.error (before s start) (congrArg Prod.fst ran)

theorem and {pre : σ → Prop} {program : Prog ε σ α} {one two : α → σ → Prop}
    (first : Triple fails pre program one) (second : Triple fails pre program two) :
    Triple fails pre program fun value s => one value s ∧ two value s := by
  apply of_runs
  · intro s value s' start ran
    exact ⟨first.ok start ran,second.ok start ran⟩
  · intro s error s' start ran
    exact first.error start (congrArg Prod.fst ran)

theorem or {one two : σ → Prop} {program : Prog ε σ α} {post : α → σ → Prop}
    (first : Triple fails one program post) (second : Triple fails two program post) :
    Triple fails (fun s => one s ∨ two s) program post :=
  fun s either => either.elim (first s) (second s)

theorem any {ι : Sort*} {pre : ι → σ → Prop} {program : Prog ε σ α} {post : α → σ → Prop}
    (each : ∀ i, Triple fails (pre i) program post) : Triple fails (fun s => ∃ i, pre i s) program post :=
  fun s some => some.elim fun i => each i s

end Triple

theorem Keeps.triple {inv : σ → Prop} {program : Prog ε σ α}
    (keeps : Keeps (fun s s' => inv s → inv s') program) :
    Triple (fun _ => True) inv program fun _ => inv := by
  apply Triple.of_runs
  · intro s value s' start ran
    have kept := keeps s start
    rw [ran] at kept
    exact kept
  · intro _ _ _ _ _
    trivial

end Zofi.Sys
