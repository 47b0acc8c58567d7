import Zofi.Draws
import Zofi.Lib.Residues
import Zofi.ThreadDraw
import Mathlib.Data.Set.Card

/-! How evenly the results of rand(), cut down by a modulo, spread over the faults and the
threads: each gets an equal share of them, up to one for each draw. -/
namespace Zofi.FairDraws
open Sys Model.Utils Model.Regs Model.RegManip Model.OptionsParser Model.Wait Semantics.StoppedThread
open Selection BitFlipRun VectorFlip Collection InstructionPointer Draws Residues

def drawing (drawn first second : Nat) (k : Nat) : Nat := if k = drawn then first else second

def selecting (select : (Nat → Nat) → Except Halt (RegDescr × Nat × Bool)) (drawn bound : Nat) (reg : RegDescr)
    (bit : Nat) : Set (Nat × Nat) :=
  {results | results.1 < bound ∧ results.2 < bound ∧ select (drawing drawn results.1 results.2) = .ok (reg,bit,true)}

theorem selecting_product (select : (Nat → Nat) → Except Halt (RegDescr × Nat × Bool)) (drawn bound : Nat) (vec : RegsVec)
    (reg : RegDescr) (bit : Nat) (occupied : vec ≠ [])
    (run : ∀ draws, select draws = bitOf (vec.getD (draws drawn % vec.length) {}) (draws (drawn + 1)) none) :
    selecting select drawn bound reg bit = ((leaving bound vec.length fun i => vec[i]? = some reg) ×ˢ
      leaving bound reg.bits fun i => reg.startBit + i = bit : Finset (Nat × Nat)) := by
  ext ⟨first,second⟩
  have one : drawing drawn first second drawn = first := if_pos rfl
  have two : drawing drawn first second (drawn + 1) = second := if_neg (by omega)
  simp only [selecting,leaving,Set.mem_ofPred_eq,run,one,two,bitOf,Except.ok.injEq,Prod.mk.injEq,and_true,
    Finset.mem_coe,Finset.mem_product,Finset.mem_filter,Finset.mem_range]
  rw [drawn_member vec occupied first,Option.some.injEq]
  constructor
  · rintro ⟨low,low',rfl,same⟩
    exact ⟨⟨low,rfl⟩,low',same⟩
  · rintro ⟨⟨low,same⟩,low',sum⟩
    rw [same]
    exact ⟨low,low',rfl,sum⟩

theorem one_offset (reg : RegDescr) (bit : Nat) (inRange : InRange reg bit) :
    ((Finset.range reg.bits).filter fun i => reg.startBit + i = bit).card = 1 := by
  obtain ⟨above,below⟩ := inRange
  rw [Finset.card_eq_one]
  refine ⟨bit - reg.startBit,?_⟩
  ext i
  simp only [Finset.mem_filter,Finset.mem_range,Finset.mem_singleton]
  omega

/-- An equal share of the pairs for each place of the vector and each bit of its register. -/
def Fair (pairs bound places count bits : Nat) : Prop :=
  places * (bound / count) * (bound / bits) ≤ pairs ∧
    pairs ≤ places * ((bound + count - 1) / count) * ((bound + bits - 1) / bits)

theorem selecting_fair (select : (Nat → Nat) → Except Halt (RegDescr × Nat × Bool)) (drawn bound : Nat) (vec : RegsVec)
    (reg : RegDescr) (bit : Nat) (inRange : InRange reg bit) (member : reg ∈ vec)
    (run : ∀ draws, select draws = bitOf (vec.getD (draws drawn % vec.length) {}) (draws (drawn + 1)) none) :
    Fair (selecting select drawn bound reg bit).ncard bound (vec.count reg) vec.length reg.bits := by
  have occupied := List.ne_nil_of_mem member
  have wide : 0 < reg.bits := by
    obtain ⟨above,below⟩ := inRange
    omega
  obtain ⟨fewest,most⟩ := card_leaving_between bound vec.length (List.length_pos_of_mem member) fun i => vec[i]? = some reg
  obtain ⟨least,greatest⟩ := card_leaving_between bound reg.bits wide fun i => reg.startBit + i = bit
  rw [card_positions] at fewest most
  rw [one_offset reg bit inRange,Nat.one_mul] at least greatest
  rw [selecting_product select drawn bound vec reg bit occupied run,
    Set.ncard_coe_finset,Finset.card_product]
  exact ⟨Nat.mul_le_mul fewest least,Nat.mul_le_mul most greatest⟩

/-- Each fault on offer is selected by an equal share of the pairs of results of rand(), to
within one result for each of the two draws; a register listed twice counts twice. -/
theorem selection_fair (env : Env) (cs : Capstone) (line : CommandLine) (ip : BitVec 64) (m m' : Machine)
    (regs : Collected) (accepted : sanityChecks line = .ok ()) (unforced : line.forceInjectToReg = none)
    (free : line.forceInjectToBit = none)
    (collected : exec (getInstrRegisters (tracee env) cs line.options ip) m = (.ok regs,m')) (bound : Nat) :
    ∃ vec, candidates line.options regs = .ok vec ∧ ∀ reg ∈ vec, ∀ bit, InRange reg bit →
      Fair (selecting (selection env cs line.options ip m) m.drawn bound reg bit).ncard bound
        (vec.count reg) vec.length reg.bits := by
  have letter := isIn_accepted line accepted
  have routed := candidates_route line.options regs unforced letter
  have described := candidates_described _ _ (getInstrRegisters_described _ _ _ _ _ _ _ collected) _ routed
  have wide : ∀ reg ∈ routeOf line.options.injectTo regs, 0 < reg.bits :=
    fun reg member => (described_row reg (described reg member)).1
  refine ⟨_,routed,fun reg member bit inRange => ?_⟩
  refine selecting_fair _ m.drawn bound _ reg bit inRange member fun draws => ?_
  rw [selection_run env cs line.options ip m m' regs unforced letter wide collected draws,
    if_neg (List.ne_nil_of_mem member)]
  exact congrArg (bitOf _ _) free

theorem movReg_selection_fair : ∃ vec,
    candidates ({} : CommandLine).options (gathered (decodesTo movReg) "rwe" movReg) = .ok vec ∧
    ∀ reg ∈ vec, ∀ bit, InRange reg bit →
      Fair (selecting (selection acceptingEnv (decodesTo movReg) ({} : CommandLine).options 0 mapped) 0 (2^31) reg bit).ncard
        (2^31) (vec.count reg) vec.length reg.bits := by
  obtain ⟨m,returned⟩ := mapped_collects ({} : CommandLine).options movReg (by decide) (by decide)
  exact selection_fair acceptingEnv (decodesTo movReg) {} 0 mapped m _ (by decide) rfl rfl returned (2^31)

/-! The threads. -/

def picking (runner : RunnerBase) (bound pid : Nat) : Set Nat :=
  {rand | rand < bound ∧ getRandomChildThreadPID runner rand = .ok pid}

theorem picking_residue (runner : RunnerBase) (fresh : runner.childPID ∉ runner.childThreads)
    (pids : ∀ pid ∈ runner.childThreads, pid < 2^31) (bound pid : Nat)
    (member : pid ∈ insert runner.childPID runner.childThreads) :
    ∃ residue < runner.childThreads.card + 1, picking runner bound pid =
      ((Finset.range bound).filter (· % (runner.childThreads.card + 1) = residue) : Finset Nat) := by
  obtain ⟨residue,inside,picked⟩ := ThreadDraw.exists_residue runner pids pid member
  refine ⟨residue,Nat.lt_succ_of_le inside,?_⟩
  ext rand
  simp only [picking,Set.mem_ofPred_eq,Finset.mem_coe,Finset.mem_filter,Finset.mem_range]
  refine and_congr_right fun _ => ⟨?_,?_⟩
  · intro chose
    rw [ThreadDraw.draw_mod runner pids rand] at chose
    have within := Nat.le_of_lt_succ (Nat.mod_lt rand (Nat.succ_pos runner.childThreads.card))
    exact ThreadDraw.residue_unique runner fresh pids _ residue pid within inside chose picked
  · intro same
    rw [ThreadDraw.draw_mod runner pids rand,same]
    exact picked

/-- Every thread is picked by an equal share of the results of rand(), to within one. -/
theorem threads_fair (runner : RunnerBase) (fresh : runner.childPID ∉ runner.childThreads)
    (pids : ∀ pid ∈ runner.childThreads, pid < 2^31) (bound pid : Nat)
    (member : pid ∈ insert runner.childPID runner.childThreads) :
    bound / (runner.childThreads.card + 1) ≤ (picking runner bound pid).ncard ∧
      (picking runner bound pid).ncard ≤ (bound + runner.childThreads.card) / (runner.childThreads.card + 1) := by
  obtain ⟨residue,low,same⟩ := picking_residue runner fresh pids bound pid member
  rw [same,Set.ncard_coe_finset,card_residue bound _ residue low]
  exact ⟨Nat.le_add_right _ _,ceiling bound _ residue low⟩

theorem threads_fair_of_two : (2^31) / 3 ≤ (picking {childPID := 100,childThreads := {101,103}} (2^31) 103).ncard ∧
    (picking {childPID := 100,childThreads := {101,103}} (2^31) 103).ncard ≤ (2^31 + 2) / 3 :=
  threads_fair {childPID := 100,childThreads := {101,103}} (by decide) (by decide) (2^31) 103 (by decide)

end Zofi.FairDraws
