import Zofi.Model.BitFlip

/-! What an injection leaves alone: a relation between states that every request to the
stopped thread keeps is kept by doBitFlip. -/
namespace Zofi.BitFlipFrame
open Sys Model.Utils Model.Regs Model.RegManip Model.BitFlip Model.AddrSpace

variable {σ : Type} {relation : σ → σ → Prop} {T : Tracee σ}

structure QueriesKeep (relation : σ → σ → Prop) (T : Tracee σ) : Prop where
  refl : ∀ s, relation s s
  trans : ∀ a b c, relation a b → relation b c → relation a c
  getRegs : Keeps relation T.getRegs
  getRegSet : Keeps relation T.getRegSet
  peekText : ∀ address, Keeps relation (T.peekText address)
  maps : Keeps relation T.maps
  rand : Keeps relation T.rand

structure RequestsKeep (relation : σ → σ → Prop) (T : Tracee σ) : Prop extends QueriesKeep relation T where
  setRegs : ∀ gpregs, Keeps relation (T.setRegs gpregs)
  setRegSet : ∀ xsave, Keeps relation (T.setRegSet xsave)
  singleStep : Keeps relation T.singleStep
  waitpid : Keeps relation T.waitpid

namespace QueriesKeep

theorem randSafe (keep : QueriesKeep relation T) (max : Nat) : Keeps relation (randSafe T max) :=
  Keeps.bind keep.trans keep.rand fun _ => Keeps.pure keep.refl _

theorem importRegistersTo (keep : QueriesKeep relation T) (rm : RegisterManipulator) :
    Keeps relation (importRegistersTo T rm) := by
  refine Keeps.bind keep.trans ?_ fun gpregs => ?_
  · refine Keeps.bind keep.trans keep.getRegs fun delivered => ?_
    split
    · exact Keeps.pure keep.refl _
    · exact Keeps.throw keep.refl _
  · refine Keeps.bind keep.trans keep.getRegSet fun delivered => ?_
    exact Keeps.bind keep.trans (Keeps.lift keep.refl _) fun _ => Keeps.pure keep.refl _

theorem getProgramCounter (keep : QueriesKeep relation T) (rm : RegisterManipulator) :
    Keeps relation (getProgramCounter T rm) := by
  refine Keeps.bind keep.trans (keep.importRegistersTo rm) fun _ => ?_
  exact Keeps.bind keep.trans (Keeps.lift keep.refl _) fun _ => Keeps.pure keep.refl _

theorem addressSpace (keep : QueriesKeep relation T) (garbage : Scanned) :
    Keeps relation (addressSpace T garbage) := by
  refine Keeps.bind keep.trans keep.maps fun text => ?_
  split
  · exact Keeps.lift keep.refl _
  · exact Keeps.throw keep.refl _

theorem getInstrRegisters (keep : QueriesKeep relation T) (cs : Capstone) (opts : Options) (ip : BitVec 64) :
    Keeps relation (getInstrRegisters T cs opts ip) := by
  refine Keeps.bind keep.trans (Keeps.foldlM keep.refl keep.trans ?_ _ _) fun childMem => ?_
  · intro bytes i
    refine Keeps.bind keep.trans (keep.peekText _) fun word => ?_
    split
    · exact Keeps.bind keep.trans (Keeps.throw keep.refl _) fun _ => Keeps.pure keep.refl _
    · exact Keeps.pure keep.refl _
  · split
    · exact Keeps.pure keep.refl _
    · refine Keeps.bind keep.trans (Keeps.lift keep.refl _) fun _ => ?_
      exact Keeps.bind keep.trans (Keeps.lift keep.refl _) fun _ => Keeps.lift keep.refl _

theorem getSelectedRegAndBit (keep : QueriesKeep relation T) (cs : Capstone) (opts : Options)
    (ip : BitVec 64) : Keeps relation (getSelectedRegAndBit T cs opts ip) := by
  refine Keeps.bind keep.trans (keep.getInstrRegisters cs opts ip) fun regs => ?_
  refine Keeps.bind keep.trans (Keeps.lift keep.refl _) fun vec => ?_
  split
  · exact Keeps.pure keep.refl _
  · refine Keeps.bind keep.trans ?_ fun index => ?_
    · unfold selectedIndex
      split
      · exact Keeps.pure keep.refl _
      · exact keep.randSafe _
    · unfold selectedBit
      split
      · exact Keeps.bind keep.trans (Keeps.lift keep.refl _) fun _ => Keeps.pure keep.refl _
      · refine Keeps.bind keep.trans (keep.randSafe _) fun _ => ?_
        exact Keeps.bind keep.trans (Keeps.lift keep.refl _) fun _ => Keeps.pure keep.refl _

end QueriesKeep

namespace RequestsKeep

theorem tryBitFlip (keep : RequestsKeep relation T) (rm : RegisterManipulator) (reg : String) (bit : Nat) :
    Keeps relation (tryBitFlip T rm reg bit) := by
  refine Keeps.bind keep.trans (Keeps.lift keep.refl _) fun _ => ?_
  refine Keeps.bind keep.trans (keep.importRegistersTo rm) fun imported => ?_
  refine Keeps.bind keep.trans (Keeps.lift keep.refl _) fun old => ?_
  refine Keeps.bind keep.trans (Keeps.lift keep.refl _) fun next => ?_
  refine Keeps.bind keep.trans ?_ fun _ => Keeps.pure keep.refl _
  refine Keeps.bind keep.trans (keep.setRegs _) fun general => ?_
  split
  · exact Keeps.pure keep.refl _
  · refine Keeps.bind keep.trans (keep.setRegSet _) fun vector => ?_
    split <;> exact Keeps.pure keep.refl _

theorem stepIfWritten (keep : RequestsKeep relation T) (reg : RegDescr) :
    Keeps relation (stepIfWritten T reg) := by
  unfold Model.BitFlip.stepIfWritten
  split
  · refine Keeps.bind keep.trans (Keeps.bind keep.trans keep.singleStep fun stepped => ?_) fun _ => ?_
    · split
      · exact Keeps.throw keep.refl _
      · exact Keeps.pure keep.refl _
    · refine Keeps.bind keep.trans (Keeps.bind keep.trans keep.waitpid fun status => ?_) fun status => ?_
      · split
        · exact Keeps.pure keep.refl _
        · exact Keeps.throw keep.refl _
      · refine Keeps.bind keep.trans (Keeps.lift keep.refl _) fun state => ?_
        split
        · exact Keeps.pure keep.refl _
        · exact Keeps.bind keep.trans (Keeps.lift keep.refl _) fun _ => Keeps.pure keep.refl _
  · exact Keeps.pure keep.refl _

theorem flipSelected (keep : RequestsKeep relation T) (good : Bool → Prop)
    (last : KeepsUnless good relation (ptraceSafe T.cont >>= fun _ => pure true)) (rm : RegisterManipulator)
    (reg : RegDescr) (bit : Nat) : KeepsUnless good relation (flipSelected T rm reg bit) := by
  refine KeepsUnless.bind keep.trans (keep.stepIfWritten reg) fun stepped => ?_
  split
  · exact (Keeps.pure keep.refl _).unless _
  · refine KeepsUnless.bind keep.trans (keep.tryBitFlip rm reg.name bit) fun flipped => ?_
    dsimp only
    split
    · exact (Keeps.pure keep.refl _).unless _
    · exact last

theorem doBitFlip (keep : RequestsKeep relation T) (good : Bool → Prop)
    (last : KeepsUnless good relation (ptraceSafe T.cont >>= fun _ => pure true)) (cs : Capstone)
    (opts : Options) (garbage : Scanned) (pid : Nat) :
    KeepsUnless good relation (doBitFlip T cs opts garbage pid) := by
  refine KeepsUnless.bind keep.trans (Keeps.lift keep.refl _) fun _ => ?_
  refine KeepsUnless.bind keep.trans (keep.getProgramCounter _) fun counter => ?_
  refine KeepsUnless.bind keep.trans (keep.addressSpace garbage) fun childAS => ?_
  refine KeepsUnless.bind keep.trans (Keeps.lift keep.refl _) fun inLibrary => ?_
  split
  · exact (Keeps.pure keep.refl _).unless _
  refine KeepsUnless.bind keep.trans (keep.getSelectedRegAndBit cs opts _) fun _ => ?_
  dsimp only
  split
  · exact (Keeps.pure keep.refl _).unless _
  · exact keep.flipSelected good last _ _ _

end RequestsKeep

end Zofi.BitFlipFrame
