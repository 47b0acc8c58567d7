import Zofi.Lib.Transitions
import Zofi.Model.Terminals

/-! The terminals of a runner: each is closed once, however often run() is called and whatever
descriptors the kernel gives. -/
namespace Zofi.TerminalDescriptors
open Sys Transitions Descriptors Table Model.Utils Model.TestRun Model.Terminals

/-- The stored descriptor is the one of the last terminal, and the only one in use. -/
inductive TerminalHeld (w : World) : Prop
  | none (unset : w.childTerminalFd = -1) (nothing : w.terminals = [])
  | last (past : List Nat) (terminal : Nat) (split : w.terminals = past ++ [terminal])
      (closed : ∀ opening ∈ past, opening ∈ w.table.closed)
      (entry : ⟨w.childTerminalFd,terminal⟩ ∈ w.table.entries) (set : 0 ≤ w.childTerminalFd)

def AllClosed (w : World) : Prop := ∀ opening ∈ w.terminals, opening ∈ w.table.closed

def FileHeld (w : World) (fd : Int) : Prop := ∃ opening ∈ w.files, ⟨fd,opening⟩ ∈ w.table.entries

structure Holds (noRedirect : Bool) (w : World) (held : List Int) : Prop where
  known : ∀ opening ∈ w.files ++ w.terminals, opening < w.table.opened
  apart : w.files.Disjoint w.terminals
  plain : noRedirect = true → w.childTerminalFd = -1 ∧ w.terminals = []
  distinct : held.Nodup
  files : ∀ fd ∈ held, FileHeld w fd

def heldFds (w : World) : List Int :=
  match w.control with
  | .initStdout | .closeTerminal | .destroyed | .died _ => []
  | .initStderr => [w.exState.stdoutFd]
  | .idle | .forking | .running => [w.exState.stdoutFd,w.exState.stderrFd]
  | .openOtherStderr => [w.exState.stdoutFd,w.exState.stderrFd,w.otherStdoutFd]
  | .compare | .closeOtherStdout => [w.exState.stdoutFd,w.exState.stderrFd,w.otherStdoutFd,w.otherStderrFd]
  | .closeOtherStderr => [w.exState.stdoutFd,w.exState.stderrFd,w.otherStderrFd]
  | .closeStderr => [w.exState.stderrFd]

def AtTerminal (held closed : Prop) : Control → Prop
  | .forking | .destroyed => closed
  | .died _ => held ∨ closed
  | _ => held

theorem AtTerminal.imp {held closed held' closed' : Prop} (one : held → held') (two : closed → closed')
    (control : Control) : AtTerminal held closed control → AtTerminal held' closed' control := by
  cases control with
  | forking | destroyed => exact two
  | died halt => exact Or.imp one two
  | _ => exact one

structure Runs (noRedirect : Bool) (w : World) : Prop where
  holds : Holds noRedirect w (heldFds w)
  terminal : AtTerminal (TerminalHeld w) (AllClosed w) w.control
  open_ : w.control ≠ .died (.die "close() error")

theorem TerminalHeld.keeps {w w' : World} (held : TerminalHeld w) (keeps : Keeps w.terminals w.table w'.table)
    (fd : w'.childTerminalFd = w.childTerminalFd) (terminals : w'.terminals = w.terminals) : TerminalHeld w' := by
  rcases held with ⟨unset,nothing⟩ | ⟨past,terminal,split,closed,entry,set⟩
  · exact .none (fd.trans unset) (terminals.trans nothing)
  · refine .last past terminal (terminals.trans split) (fun opening member => keeps.closed _ (closed opening member)) ?_ ?_
    · rw [fd]
      apply keeps.entries _ entry
      rw [split]
      exact List.mem_append_right _ List.mem_cons_self
    · rw [fd]
      exact set

theorem AllClosed.keeps {w w' : World} (closed : AllClosed w) (openings : List Nat)
    (keeps : Keeps openings w.table w'.table) (terminals : w'.terminals = w.terminals) : AllClosed w' := by
  intro opening member
  rw [terminals] at member
  exact keeps.closed opening (closed opening member)

theorem Holds.fewer {noRedirect : Bool} {w : World} {held : List Int} (holds : Holds noRedirect w held)
    (rest : List Int) (sublist : rest.Sublist held) : Holds noRedirect w rest where
  known := holds.known
  apart := holds.apart
  plain := holds.plain
  distinct := holds.distinct.sublist sublist
  files fd member := holds.files fd (sublist.subset member)

theorem Holds.keeps {noRedirect : Bool} {w w' : World} {held : List Int} (holds : Holds noRedirect w held)
    (keeps : Keeps (w.files ++ w.terminals) w.table w'.table) (fd : w'.childTerminalFd = w.childTerminalFd)
    (files : w'.files = w.files) (terminals : w'.terminals = w.terminals) : Holds noRedirect w' held where
  known := by
    rw [files,terminals]
    exact fun opening member => (holds.known opening member).trans_le keeps.opened
  apart := by
    rw [files,terminals]
    exact holds.apart
  plain := by
    rw [fd,terminals]
    exact holds.plain
  distinct := holds.distinct
  files := by
    intro fd member
    obtain ⟨opening,own,entry⟩ := holds.files fd member
    refine ⟨opening,by rw [files]; exact own,keeps.entries _ entry (List.mem_append_left _ own)⟩

theorem keeps_terminals {w : World} {table : Table} (keeps : Keeps (w.files ++ w.terminals) w.table table) :
    Keeps w.terminals w.table table := keeps.mono fun _ member => List.mem_append_right _ member

theorem Runs.other {noRedirect : Bool} {w : World} (runs : Runs noRedirect w) (table : Table)
    (keeps : Keeps (w.files ++ w.terminals) w.table table) : Runs noRedirect {w with table} where
  holds := runs.holds.keeps keeps rfl rfl rfl
  terminal := by
    apply runs.terminal.imp
    · exact fun held => held.keeps (keeps_terminals keeps) rfl rfl
    · exact fun closed => closed.keeps _ keeps rfl
  open_ := runs.open_

theorem Holds.opened {noRedirect : Bool} {w : World} {held : List Int} (holds : Holds noRedirect w held)
    (fd : w.table.Unused) :
    Holds noRedirect {w with table := w.table.open_ fd,files := w.files ++ [w.table.opened]} (held ++ [fd.val]) where
  known := by
    intro opening member
    rw [List.append_assoc,List.mem_append,List.mem_append,List.mem_singleton] at member
    rcases member with own | rfl | own
    · exact Nat.lt_succ_of_lt (holds.known opening (List.mem_append_left _ own))
    · exact Nat.lt_succ_self _
    · exact Nat.lt_succ_of_lt (holds.known opening (List.mem_append_right _ own))
  apart := by
    apply List.disjoint_append_left.mpr
    refine ⟨holds.apart,?_⟩
    rw [List.singleton_disjoint]
    exact fun member => Nat.lt_irrefl _ (holds.known _ (List.mem_append_right _ member))
  plain := holds.plain
  distinct := by
    apply holds.distinct.append (List.nodup_singleton _)
    rw [List.disjoint_singleton]
    intro member
    obtain ⟨opening,_,entry⟩ := holds.files _ member
    exact fd.property.2 (List.mem_map_of_mem (f := Entry.fd) entry)
  files := by
    intro other member
    rcases List.mem_append.mp member with earlier | last
    · obtain ⟨opening,own,entry⟩ := holds.files other earlier
      exact ⟨opening,List.mem_append_left _ own,List.mem_cons_of_mem _ entry⟩
    · rw [List.mem_singleton] at last
      subst last
      exact ⟨w.table.opened,List.mem_append_right _ List.mem_cons_self,List.mem_cons_self⟩

theorem TerminalHeld.opened {w : World} (held : TerminalHeld w) (fd : w.table.Unused) :
    TerminalHeld {w with table := w.table.open_ fd,files := w.files ++ [w.table.opened]} :=
  held.keeps (keeps_open _ _ fd) rfl rfl

def ClosesOwn (w w' : World) : Prop :=
  ∀ opening ∈ w'.table.closed, opening ∈ w.table.closed ∨ opening ∈ w.files ++ w.terminals

theorem closesOwn_without (w : World) (entry : Entry) (member : entry ∈ w.table.entries)
    (own : entry.opening ∈ w.files ++ w.terminals) : ClosesOwn w {w with table := w.table.without entry member} := by
  intro opening closed
  rcases List.mem_append.mp closed with earlier | last
  · exact .inl earlier
  · rw [List.mem_singleton] at last
    exact .inr (last ▸ own)

theorem closeSafe_entry (w : World) (entry : Entry) (member : entry ∈ w.table.entries) :
    closeSafe entry.fd w = .ok {w with table := w.table.without entry member} := by
  rw [closeSafe,close_member w.table entry member]

theorem Holds.closes {noRedirect : Bool} {w : World} {fd : Int} (first last : List Int)
    (holds : Holds noRedirect w (first ++ fd :: last)) :
    ∃ table, closeSafe fd w = .ok {w with table} ∧ Holds noRedirect {w with table} (first ++ last) ∧
      Keeps w.terminals w.table table ∧ ClosesOwn w {w with table} := by
  obtain ⟨gone,distinct⟩ := List.nodup_cons.mp (List.nodup_middle.mp holds.distinct)
  obtain ⟨opening,own,entry⟩ := holds.files fd (List.mem_append_right _ List.mem_cons_self)
  have terminals := keeps_without w.terminals w.table ⟨fd,opening⟩ entry (holds.apart own)
  refine ⟨_,closeSafe_entry w ⟨fd,opening⟩ entry,?_,terminals,closesOwn_without w _ entry (List.mem_append_left _ own)⟩
  refine ⟨holds.known,holds.apart,holds.plain,distinct,?_⟩
  intro other inside
  have sublist := (List.Sublist.refl first).append (List.sublist_cons_self fd last)
  obtain ⟨number,file,present⟩ := holds.files other (sublist.subset inside)
  refine ⟨number,file,(List.mem_erase_of_ne ?_).mpr present⟩
  intro same
  cases same
  exact gone inside

theorem Holds.closesFile {noRedirect : Bool} {w : World} {fd : Int} (rest : List Int)
    (holds : Holds noRedirect w (fd :: rest)) :
    ∃ table, closeFile fd w = .ok {w with table} ∧ Holds noRedirect {w with table} rest ∧
      Keeps w.terminals w.table table ∧ ClosesOwn w {w with table} := by
  unfold closeFile
  split
  · exact holds.closes [] rest
  · exact ⟨w.table,rfl,holds.fewer rest (List.sublist_cons_self _ _),Keeps.refl _ _,fun opening closed => .inl closed⟩

theorem Holds.closesTerminal {noRedirect : Bool} {w : World} {held : List Int} (holds : Holds noRedirect w held)
    (terminal : TerminalHeld w) :
    ∃ table, closeOpenTerminal w = .ok {w with table} ∧ Holds noRedirect {w with table} held ∧
      AllClosed {w with table} ∧ ClosesOwn w {w with table} := by
  rcases terminal with ⟨unset,nothing⟩ | ⟨past,last,split,closed,entry,set⟩
  · refine ⟨w.table,if_neg (by simp [unset]),holds,?_,fun opening closed => .inl closed⟩
    intro opening member
    change opening ∈ w.terminals at member
    rw [nothing] at member
    cases member
  · have own : last ∈ w.terminals := by
      rw [split]
      exact List.mem_append_right _ List.mem_cons_self
    have files := keeps_without w.files w.table ⟨w.childTerminalFd,last⟩ entry fun file => holds.apart file own
    refine ⟨_,(if_pos (by omega)).trans (closeSafe_entry w ⟨w.childTerminalFd,last⟩ entry),?_,?_,
      closesOwn_without w _ entry (List.mem_append_right _ own)⟩
    · refine ⟨holds.known,holds.apart,holds.plain,holds.distinct,?_⟩
      intro fd member
      obtain ⟨opening,file,present⟩ := holds.files fd member
      exact ⟨opening,file,files.entries _ present file⟩
    · intro opening member
      change opening ∈ w.terminals at member
      rw [split,List.mem_append,List.mem_singleton] at member
      apply List.mem_append.mpr
      rcases member with earlier | rfl
      · exact .inl (closed opening earlier)
      · exact .inr List.mem_cons_self

theorem Holds.forks {noRedirect : Bool} {w : World} {held : List Int} (holds : Holds noRedirect w held)
    (redirects : noRedirect = false) (closed : AllClosed w) (fd : w.table.Unused) :
    Holds noRedirect {w with
        table := w.table.open_ fd
        terminals := w.terminals ++ [w.table.opened]
        childTerminalFd := fd.val } held ∧
      TerminalHeld {w with
        table := w.table.open_ fd
        terminals := w.terminals ++ [w.table.opened]
        childTerminalFd := fd.val } := by
  constructor
  · refine ⟨?_,?_,?_,holds.distinct,?_⟩
    · intro opening member
      rw [← List.append_assoc,List.mem_append,List.mem_singleton] at member
      rcases member with own | rfl
      · exact Nat.lt_succ_of_lt (holds.known opening own)
      · exact Nat.lt_succ_self _
    · apply List.disjoint_append_right.mpr
      refine ⟨holds.apart,?_⟩
      rw [List.disjoint_singleton]
      exact fun member => Nat.lt_irrefl _ (holds.known _ (List.mem_append_left _ member))
    · intro plain
      rw [redirects] at plain
      cases plain
    · intro other member
      obtain ⟨opening,own,entry⟩ := holds.files other member
      exact ⟨opening,own,List.mem_cons_of_mem _ entry⟩
  · exact .last w.terminals w.table.opened rfl closed List.mem_cons_self fd.property.1

theorem AtTerminal.either {held closed : Prop} {control : Control} (at_ : AtTerminal held closed control) :
    held ∨ closed := by
  cases control with
  | forking | destroyed => exact .inr at_
  | died halt => exact at_
  | _ => exact .inl at_

theorem Runs.goes {noRedirect : Bool} {w w' : World} (holds : Holds noRedirect w (heldFds w'))
    (terminal : AtTerminal (TerminalHeld w) (AllClosed w) w'.control) (open_ : w'.control ≠ .died (.die "close() error"))
    (fd : w'.childTerminalFd = w.childTerminalFd) (table : w'.table = w.table) (files : w'.files = w.files)
    (terminals : w'.terminals = w.terminals) : Runs noRedirect w' where
  holds := holds.keeps (table ▸ Keeps.refl _ _) fd files terminals
  terminal := terminal.imp (fun held => held.keeps (table ▸ Keeps.refl _ _) fd terminals)
    fun closed => closed.keeps [] (table ▸ Keeps.refl _ _) terminals
  open_ := open_

theorem Runs.dies {noRedirect : Bool} {w : World} (runs : Runs noRedirect w) (halt : Halt)
    (other : halt ≠ .die "close() error") : Runs noRedirect {w with control := .died halt} :=
  .goes (runs.holds.fewer [] (List.nil_sublist _)) runs.terminal.either (fun same => other (Control.died.inj same))
    rfl rfl rfl rfl

theorem die_ne (message : String) (other : message.toList.head? ≠ some 'c') :
    Halt.die message ≠ .die "close() error" := by
  intro same
  cases same
  exact other rfl

theorem named_ne (message : String) (c : Char) (rest : List Char) (start : message.toList = c :: rest) (other : c ≠ 'c')
    (file : String) : Halt.die (message ++ file) ≠ .die "close() error" := by
  apply die_ne
  rw [String.toList_append,start]
  exact fun same => other (Option.some.inj same)

theorem same_ne (disk : Disk) (exState other : ExecutionExitState) (halt : Halt)
    (failed : exState.same disk other = .error halt) : halt ≠ .die "close() error" := by
  have opens (file : String) : FailsAs (· ≠ .die "close() error") (Model.TestRun.openSafe disk file) := by
    unfold Model.TestRun.openSafe
    split
    · exact .ok _ _
    · exact .error (named_ne _ _ _ rfl (by decide) _)
  have reads (fd : Int) : FailsAs (· ≠ .die "close() error") (fdopen disk fd) := by
    unfold fdopen
    split
    · exact .ok _ _
    · exact .error (named_ne _ _ _ rfl (by decide) _)
  have all : FailsAs (· ≠ .die "close() error") (exState.same disk other) := by
    unfold ExecutionExitState.same
    refine (opens _).bind fun _ => (opens _).bind fun _ => ?_
    split
    · exact .ok _ _
    · refine (reads _).bind fun _ => ?_
      split
      · exact .ok _ _
      · exact (reads _).bind fun _ => .ok _ _
  exact all halt failed

theorem Runs.call {noRedirect : Bool} {w : World} (runs : Runs noRedirect w) {control : Control}
    (at_ : w.control = control) : Holds noRedirect w (heldFds {w with control}) ∧
      AtTerminal (TerminalHeld w) (AllClosed w) control := by
  subst at_
  exact ⟨runs.holds,runs.terminal⟩

theorem Runs.step {noRedirect : Bool} {w w' : World} {event : Event} (runs : Runs noRedirect w)
    (step : Step noRedirect w event w') : Runs noRedirect w' ∧ (event ≠ .other → ClosesOwn w w') := by
  have unchanged : ∀ event : Event, event ≠ .other → ClosesOwn w w := fun _ _ opening closed => .inl closed
  cases step with
  | initStdout answer at_ | initStderr answer at_ | openOtherStdout _ answer at_ | openOtherStderr _ answer at_ =>
    obtain ⟨holds,terminal⟩ := runs.call at_
    cases answer with
    | none => exact ⟨runs.dies _ (named_ne _ _ _ rfl (by decide) _),unchanged _⟩
    | some fd =>
      exact ⟨.goes (holds.opened fd) (terminal.opened fd) nofun rfl rfl rfl rfl,unchanged _⟩
  | run at_ =>
    obtain ⟨holds,terminal⟩ := runs.call at_
    obtain ⟨table,ran,after,closed,own⟩ := holds.closesTerminal terminal
    rw [ran]
    exact ⟨.goes after closed nofun rfl rfl rfl rfl,fun _ => own⟩
  | forkpty answer at_ redirects =>
    obtain ⟨holds,terminal⟩ := runs.call at_
    cases answer with
    | none => exact ⟨runs.dies _ (die_ne _ (by decide)),unchanged _⟩
    | some fd =>
      obtain ⟨after,held⟩ := holds.forks redirects terminal fd
      exact ⟨.goes after held nofun rfl rfl rfl rfl,unchanged _⟩
  | fork success at_ plain =>
    obtain ⟨holds,_⟩ := runs.call at_
    cases success with
    | false => exact ⟨runs.dies _ (die_ne _ (by decide)),unchanged _⟩
    | true =>
      obtain ⟨unset,nothing⟩ := holds.plain plain
      exact ⟨.goes holds (.none unset nothing) nofun rfl rfl rfl rfl,unchanged _⟩
  | returns attached at_ =>
    obtain ⟨holds,terminal⟩ := runs.call at_
    cases attached with
    | waitpidFails | contFails => exact ⟨runs.dies _ (die_ne _ (by decide)),unchanged _⟩
    | setOptionsFails | continues => exact ⟨.goes holds terminal nofun rfl rfl rfl rfl,unchanged _⟩
  | compare disk other at_ =>
    obtain ⟨holds,terminal⟩ := runs.call at_
    cases same : w.exState.same disk other with
    | error halt => exact ⟨runs.dies halt (same_ne disk _ other halt same),unchanged _⟩
    | ok equal => exact ⟨.goes holds terminal nofun rfl rfl rfl rfl,unchanged _⟩
  | closeOtherStdout at_ =>
    obtain ⟨holds,terminal⟩ := runs.call at_
    obtain ⟨table,ran,after,keeps,own⟩ := holds.closes [w.exState.stdoutFd,w.exState.stderrFd] [w.otherStderrFd]
    rw [ran]
    exact ⟨.goes after (terminal.keeps keeps rfl rfl) nofun rfl rfl rfl rfl,fun _ => own⟩
  | closeOtherStderr at_ =>
    obtain ⟨holds,terminal⟩ := runs.call at_
    obtain ⟨table,ran,after,keeps,own⟩ := holds.closes [w.exState.stdoutFd,w.exState.stderrFd] []
    rw [ran]
    exact ⟨.goes after (terminal.keeps keeps rfl rfl) nofun rfl rfl rfl rfl,fun _ => own⟩
  | destroy at_ =>
    obtain ⟨holds,terminal⟩ := runs.call at_
    obtain ⟨table,ran,after,keeps,own⟩ := holds.closesFile [w.exState.stderrFd]
    rw [ran]
    exact ⟨.goes after (terminal.keeps keeps rfl rfl) nofun rfl rfl rfl rfl,fun _ => own⟩
  | closeStderr at_ =>
    obtain ⟨holds,terminal⟩ := runs.call at_
    obtain ⟨table,ran,after,keeps,own⟩ := holds.closesFile []
    rw [ran]
    exact ⟨.goes after (terminal.keeps keeps rfl rfl) nofun rfl rfl rfl rfl,fun _ => own⟩
  | closeTerminal at_ =>
    obtain ⟨holds,terminal⟩ := runs.call at_
    obtain ⟨table,ran,after,closed,own⟩ := holds.closesTerminal terminal
    rw [ran]
    exact ⟨.goes after closed nofun rfl rfl rfl rfl,fun _ => own⟩
  | otherOpens fd => exact ⟨runs.other _ (keeps_open _ _ fd),fun runner => absurd rfl runner⟩
  | otherCloses entry member foreign =>
    exact ⟨runs.other _ (keeps_without _ _ entry member foreign),fun runner => absurd rfl runner⟩

def World.start (exState : ExecutionExitState) (table : Table) : World := {exState,table}

theorem runs_run {noRedirect : Bool} {exState : ExecutionExitState} {table : Table} {events : List Event} {w : World}
    (run : Run (Step noRedirect) (World.start exState table) events w) : Runs noRedirect w := by
  apply Run.invariant (fun _ w => Runs noRedirect w) _ _ run
  · refine ⟨⟨nofun,List.disjoint_nil_left _,fun _ => ⟨rfl,rfl⟩,List.nodup_nil,nofun⟩,.none rfl rfl,nofun⟩
  · exact fun _ _ _ _ runs step => (runs.step step).1

theorem past_closed {w : World} (either : TerminalHeld w ∨ AllClosed w) :
    (w.terminals.filter fun opening => opening ∈ w.table.live).length ≤ 1 := by
  have gone (openings : List Nat) (closed : ∀ opening ∈ openings, opening ∈ w.table.closed) :
      openings.filter (fun opening => opening ∈ w.table.live) = [] := by
    apply List.filter_eq_nil_iff.mpr
    intro opening member live
    exact w.table.closed_not_live opening (closed opening member) (of_decide_eq_true live)
  rcases either with (⟨_,nothing⟩ | ⟨past,terminal,split,closed,_,_⟩) | closed
  · rw [nothing]
    exact Nat.zero_le _
  · rw [split,List.filter_append,gone past closed,List.nil_append]
    exact List.length_filter_le _ [terminal]
  · rw [gone _ closed]
    exact Nat.zero_le _

structure ClosedOnce (noRedirect : Bool) (w : World) : Prop where
  single : (w.terminals.filter fun opening => opening ∈ w.table.live).length ≤ 1
  once : ∀ terminal ∈ w.terminals, w.table.closed.count terminal ≤ 1
  ended : w.control = .destroyed → ∀ terminal ∈ w.terminals,
    w.table.closed.count terminal = 1 ∧ terminal ∉ w.table.live
  open_ : w.control ≠ .died (.die "close() error")
  own : ∀ event w', Step noRedirect w event w' → event ≠ .other → ClosesOwn w w'

theorem closed_once_run (noRedirect : Bool) (exState : ExecutionExitState) (table : Table) (events : List Event) (w : World)
    (run : Run (Step noRedirect) (World.start exState table) events w) : ClosedOnce noRedirect w := by
  have runs := runs_run run
  refine ⟨past_closed runs.terminal.either,fun terminal _ => w.table.closed_once terminal,?_,runs.open_,?_⟩
  · intro destroyed terminal member
    have closed := runs.terminal
    rw [destroyed] at closed
    refine ⟨?_,w.table.closed_not_live terminal (closed terminal member)⟩
    exact Nat.le_antisymm (w.table.closed_once terminal) (List.count_pos_iff.mpr (closed terminal member))
  · exact fun event w' step => (runs.step step).2

def noDescriptors : Table := ⟨[],0,[],List.nodup_nil,.refl _⟩

/-- Two calls of run(), the first of which fails; both terminals come under one descriptor. -/
theorem closed_once_twice : ∃ events w, Run (Step false) (World.start {} noDescriptors) events w ∧
    w.control = .destroyed ∧ w.terminals = [2,3] ∧ ClosedOnce false w := by
  have stdout : Run (Step false) (World.start {} noDescriptors) _ _ :=
    .snoc _ _ _ _ .nil (.initStdout _ (some ⟨3,by decide⟩) rfl)
  have constructed := Run.snoc _ _ _ _ stdout (.initStderr _ (some ⟨4,by decide⟩) rfl)
  have first := Run.snoc _ _ _ _ (.snoc _ _ _ _ constructed (.run _ rfl)) (.forkpty _ (some ⟨5,by decide⟩) rfl rfl)
  have failed := Run.snoc _ _ _ _ first (.returns _ .setOptionsFails rfl)
  have second := Run.snoc _ _ _ _ (.snoc _ _ _ _ failed (.run _ rfl)) (.forkpty _ (some ⟨5,by decide⟩) rfl rfl)
  have returned := Run.snoc _ _ _ _ second (.returns _ .continues rfl)
  have files := Run.snoc _ _ _ _ (.snoc _ _ _ _ returned (.destroy _ rfl)) (.closeStderr _ rfl)
  have destroyed := Run.snoc _ _ _ _ files (.closeTerminal _ rfl)
  exact ⟨_,_,destroyed,rfl,rfl,closed_once_run false {} noDescriptors _ _ destroyed⟩

end Zofi.TerminalDescriptors
