import Mathlib.Data.List.Chain
import Mathlib.Data.List.Nodup
import Zofi.Model.DiffCmd

/-! When strReplace() is a single pass over its string, and what it makes of -diff-cmd. -/
namespace Zofi.Substitution
open Replacement Streams Model.TestRun Model.DiffCmd

variable (from_ to_ : List Char)

/-- It comes to its end, with every occurrence of the original text replaced, and none that begins in what it has put
in or before that. -/
def ReplacesOnce (from_ to_ str : List Char) : Prop :=
  ∃ fuel, strReplace from_ to_ fuel str = some (replaceAll from_ to_ str) ∧
    (replacedAt from_ to_ fuel str).IsChain fun pos next => pos + to_.length ≤ next

theorem strReplace_none (fuel : Nat) (str : List Char) (missed : find from_ str = none) :
    strReplace from_ to_ (fuel + 1) str = some str ∧ replacedAt from_ to_ (fuel + 1) str = [] := by
  rw [strReplace,iterate,strReplaceRound,replacedAt,missed]
  exact ⟨rfl,rfl⟩

theorem strReplace_some (fuel : Nat) (str : List Char) (pos : Nat) (found : find from_ str = some pos) :
    strReplace from_ to_ (fuel + 1) str = strReplace from_ to_ fuel (replace str pos from_.length to_) ∧
      replacedAt from_ to_ (fuel + 1) str = pos :: replacedAt from_ to_ fuel (replace str pos from_.length to_) := by
  rw [strReplace,iterate,strReplaceRound,replacedAt,found]
  exact ⟨rfl,rfl⟩

theorem replace_done (done rest : List Char) (pos length : Nat) : replace (done ++ rest) (done.length + pos) length to_ =
    done ++ rest.take pos ++ to_ ++ rest.drop (pos + length) := by
  rw [replace,List.take_length_add_append,Nat.add_assoc,List.drop_length_add_append]

theorem strReplace_stage (occupied : from_ ≠ []) (str : List Char) (settled : Settled from_ to_ str) (done rest : List Char)
    (stage : Stage from_ to_ str done rest) (fuel : Nat) (enough : rest.length < fuel) :
    strReplace from_ to_ fuel (done ++ rest) = some (done ++ replaceAll from_ to_ rest) ∧
      (replacedAt from_ to_ fuel (done ++ rest)).IsChain (fun pos next => pos + to_.length ≤ next) ∧
        ∀ pos ∈ (replacedAt from_ to_ fuel (done ++ rest)).head?, done.length ≤ pos := by
  induction fuel generalizing done rest with
  | zero => omega
  | succ fuel ih =>
    have beyond := settled done rest stage
    cases found : find from_ rest with
    | none =>
      have whole : find from_ (done ++ rest) = none := by
        rw [find_beyond from_ done rest beyond,found]
        rfl
      obtain ⟨ended,positions⟩ := strReplace_none from_ to_ fuel _ whole
      rw [ended,positions,replaceAll_none _ _ _ found]
      exact ⟨rfl,.nil,by simp⟩
    | some pos =>
      have whole := find_done from_ done rest beyond pos found
      obtain ⟨next,positions⟩ := strReplace_some from_ to_ fuel _ _ whole
      rw [replace_done] at next positions
      have bound := find_bound from_ rest occupied pos found
      have positive := List.length_pos_of_ne_nil occupied
      obtain ⟨result,chain,later⟩ := ih _ _ (stage.next done rest pos found) (by rw [List.length_drop]; omega)
      rw [next,positions,result,replaceAll_some _ _ _ occupied pos found]
      refine ⟨by simp only [List.append_assoc],List.isChain_cons.mpr ⟨fun after head => ?_,chain⟩,?_⟩
      · have least := later after head
        simp only [List.length_append,List.length_take] at least
        omega
      · rintro first head
        obtain rfl := Option.some.inj head
        exact Nat.le_add_right _ _

theorem stage_strReplace (occupied : from_ ≠ []) (str : List Char) (once : ReplacesOnce from_ to_ str) (done rest : List Char)
    (stage : Stage from_ to_ str done rest) : ∃ fuel result, strReplace from_ to_ fuel (done ++ rest) = some result ∧
      (replacedAt from_ to_ fuel (done ++ rest)).IsChain (fun pos next => pos + to_.length ≤ next) ∧
        ∀ pos ∈ (replacedAt from_ to_ fuel (done ++ rest)).head?, done.length ≤ pos := by
  induction stage with
  | start =>
    obtain ⟨fuel,result,chain⟩ := once
    exact ⟨fuel,_,result,chain,fun _ _ => Nat.zero_le _⟩
  | next done rest pos stage found ih =>
    obtain ⟨fuel,result,ran,chain,later⟩ := ih
    cases fuel with
    | zero => cases ran
    | succ fuel =>
      have begins : from_ <+: (done ++ rest).drop (done.length + pos) := by
        rw [List.drop_length_add_append]
        exact (find_spec from_ rest pos found).1
      obtain ⟨first,_,where_⟩ := find_of_occurs from_ _ occupied _ begins
      have far : done.length ≤ first := by
        rw [(strReplace_some from_ to_ fuel _ _ where_).2] at later
        exact later first rfl
      -- so the first occurrence is that of the rest
      have beyond : Beyond from_ done rest := fun early below =>
        (find_spec from_ _ first where_).2 early (below.trans_le far)
      have whole := find_done from_ done rest beyond pos found
      obtain ⟨next,positions⟩ := strReplace_some from_ to_ fuel _ _ whole
      rw [replace_done] at next positions
      rw [positions] at chain
      obtain ⟨after,chain⟩ := List.isChain_cons.mp chain
      refine ⟨fuel,result,next.symm.trans ran,chain,fun later head => ?_⟩
      have least := after later head
      simp only [List.length_append,List.length_take]
      omega

/-- One pass over the string is what the loop makes exactly if no stage of the pass makes an occurrence. -/
theorem replacesOnce_iff (occupied : from_ ≠ []) (str : List Char) :
    ReplacesOnce from_ to_ str ↔ Settled from_ to_ str := by
  constructor
  · intro once done rest stage pos below begins
    obtain ⟨fuel,result,ran,_,later⟩ := stage_strReplace from_ to_ occupied str once done rest stage
    obtain ⟨first,near,found⟩ := find_of_occurs from_ _ occupied pos begins
    cases fuel with
    | zero => cases ran
    | succ fuel =>
      rw [(strReplace_some from_ to_ fuel _ _ found).2] at later
      have far := later first rfl
      omega
  · intro settled
    obtain ⟨result,chain,_⟩ := strReplace_stage from_ to_ occupied str settled [] str .start (str.length + 1)
      (Nat.lt_succ_self _)
    exact ⟨str.length + 1,result,chain⟩

theorem strReplace_endless (occupied : from_ ≠ []) (again : from_ <:+: to_) (str : List Char) (occurs : from_ <:+: str)
    (fuel : Nat) : strReplace from_ to_ fuel str = none := by
  apply iterate_endless (strReplaceRound from_ to_) (fun str => from_ <:+: str) _ str occurs
  rintro _ ⟨before,behind,rfl⟩
  have begins : from_ <+: (before ++ from_ ++ behind).drop before.length := by
    rw [List.append_assoc,List.drop_left]
    exact List.prefix_append _ _
  obtain ⟨pos,_,found⟩ := find_of_occurs from_ _ occupied _ begins
  refine ⟨_,by rw [strReplaceRound,found],?_⟩
  exact again.trans ⟨_,_,rfl⟩

theorem ownMacro_endless : ¬ ReplacesOnce origStdout "/tmp/%ORIG_STDOUT.0.a1b2c3".toList "diff %ORIG_STDOUT -".toList := by
  rintro ⟨fuel,ended,_⟩
  rw [strReplace_endless _ _ (by decide) (by decide) _ (by decide) fuel] at ended
  cases ended

section DiffCmd

variable (orig test : ExecutionExitState)

def macros : List (List Char × List Char) := [(origStdout,orig.stdoutFile.toList),(origStderr,orig.stderrFile.toList),
  (testStdout,test.stdoutFile.toList),(testStderr,test.stderrFile.toList)]

def replaceInTurn (fuel : Nat) (calls : List (List Char × List Char)) (cmd : List Char) : Option (List Char) :=
  calls.foldlM (fun cmd call => strReplace call.1 call.2 fuel cmd) cmd

def Plain (path : String) : Prop := '%' ∉ path.toList ∧ ∃ rest, path.toList = '/' :: rest

def macroNames : List (List Char) := [origStdout,origStderr,testStdout,testStderr]

theorem names_apart : ∀ one ∈ macroNames, ∀ other ∈ macroNames, one <+: other → one = other := by decide

theorem macros_marked (plain : ∀ path ∈ [orig.stdoutFile,orig.stderrFile,test.stdoutFile,test.stderrFile], Plain path) :
    Marked '%' (macros orig test) where
  patterns := by
    simp only [macros,List.forall_mem_cons]
    exact ⟨⟨_,rfl,by decide⟩,⟨_,rfl,by decide⟩,⟨_,rfl,by decide⟩,⟨_,rfl,by decide⟩,List.forall_mem_nil _⟩
  images := by
    have fresh : ∀ other ∈ macros orig test, '/' ∉ other.1 := by
      simp only [macros,List.forall_mem_cons]
      exact ⟨by decide,by decide,by decide,by decide,List.forall_mem_nil _⟩
    have image (path : String) (own : Plain path) : '%' ∉ path.toList ∧ ∃ c rest, path.toList = c :: rest ∧
        ∀ other ∈ macros orig test, c ∉ other.1 := by
      obtain ⟨free,rest,split⟩ := own
      exact ⟨free,'/',rest,split,fresh⟩
    obtain ⟨one,two,three,four,_⟩ := by simpa only [List.forall_mem_cons] using plain
    intro entry member
    simp only [macros,List.mem_cons,List.not_mem_nil,or_false] at member
    rcases member with rfl | rfl | rfl | rfl
    · exact image _ one
    · exact image _ two
    · exact image _ three
    · exact image _ four
  apart := by
    intro entry member other inside begins
    have names : (macros orig test).map Prod.fst = macroNames := rfl
    have first := names ▸ List.mem_map_of_mem member
    have second := names ▸ List.mem_map_of_mem inside
    have distinct : ((macros orig test).map Prod.fst).Nodup := by
      rw [names]
      decide
    exact List.inj_on_of_nodup_map distinct member inside (names_apart _ first _ second begins)

theorem strReplace_settled (occupied : from_ ≠ []) (str : List Char) (settled : Settled from_ to_ str) (fuel : Nat)
    (enough : str.length < fuel) : strReplace from_ to_ fuel str = some (replaceAll from_ to_ str) :=
  (strReplace_stage from_ to_ occupied str settled [] str .start fuel enough).1

theorem replaceInTurn_marked (calls : List (List Char × List Char)) (marked : Marked '%' calls) (cmd : List Char) :
    ∃ rounds, ∀ fuel, rounds < fuel → replaceInTurn fuel calls cmd = some (substitute calls cmd) := by
  induction calls generalizing cmd with
  | nil => exact ⟨0,fun fuel _ => congrArg some (substitute_empty cmd).symm⟩
  | cons call calls ih =>
    obtain ⟨rounds,later⟩ := ih marked.tail (replaceAll call.1 call.2 cmd)
    refine ⟨max cmd.length rounds,fun fuel enough => ?_⟩
    have first := strReplace_settled call.1 call.2 (marked.occupied call List.mem_cons_self) cmd
      (marked.settled List.mem_cons_self cmd) fuel (by omega)
    rw [replaceInTurn,List.foldlM_cons,first,← marked.substitute_replaced]
    exact later fuel (by omega)

theorem evalDiffCmd_inTurn (fuel : Nat) (diffCmd : String) :
    evalDiffCmd fuel orig test diffCmd = replaceInTurn fuel (macros orig test) diffCmd.toList := by
  simp [evalDiffCmd,replaceInTurn,macros,List.foldlM]

/-- The four calls come to their end with every macro replaced by its own file, in any order. -/
theorem evalDiffCmd_simultaneous (diffCmd : String)
    (plain : ∀ path ∈ [orig.stdoutFile,orig.stderrFile,test.stdoutFile,test.stderrFile], Plain path) :
    (∃ rounds, ∀ fuel, rounds < fuel →
      evalDiffCmd fuel orig test diffCmd = some (substitute (macros orig test) diffCmd.toList)) ∧
    ∀ calls, calls.Perm (macros orig test) → ∃ rounds, ∀ fuel, rounds < fuel →
      replaceInTurn fuel calls diffCmd.toList = some (substitute (macros orig test) diffCmd.toList) := by
  have marked := macros_marked orig test plain
  have turns (calls : List (List Char × List Char)) (order : calls.Perm (macros orig test)) : ∃ rounds, ∀ fuel,
      rounds < fuel → replaceInTurn fuel calls diffCmd.toList = some (substitute (macros orig test) diffCmd.toList) := by
    obtain ⟨rounds,later⟩ := replaceInTurn_marked calls (marked.perm order) diffCmd.toList
    refine ⟨rounds,fun fuel enough => ?_⟩
    rw [later fuel enough,marked.substitute_perm order]
  refine ⟨?_,turns⟩
  obtain ⟨rounds,later⟩ := turns _ (.refl _)
  exact ⟨rounds,fun fuel enough => (evalDiffCmd_inTurn orig test fuel diffCmd).trans (later fuel enough)⟩

end DiffCmd

def origFiles : ExecutionExitState := {stdoutFile := "/tmp/zofi.Stdout.0.a1b2c3",stderrFile := "/tmp/zofi.Stderr.0.d4e5f6"}

def testFiles : ExecutionExitState := {stdoutFile := "/tmp/zofi.Stdout.1.g7h8i9",stderrFile := "/tmp/zofi.Stderr.1.j0k1l2"}

theorem files_plain : ∀ path ∈ [origFiles.stdoutFile,origFiles.stderrFile,testFiles.stdoutFile,testFiles.stderrFile],
    Plain path := by
  simp only [List.forall_mem_cons]
  exact ⟨⟨by decide,_,rfl⟩,⟨by decide,_,rfl⟩,⟨by decide,_,rfl⟩,⟨by decide,_,rfl⟩,List.forall_mem_nil _⟩

theorem embedded_replaced : (∃ rounds, ∀ fuel, rounds < fuel →
      evalDiffCmd fuel origFiles testFiles "diff %ORIG_STDOUT%ORIG_STDERR %%TEST_STDOUT" =
        some (substitute (macros origFiles testFiles) "diff %ORIG_STDOUT%ORIG_STDERR %%TEST_STDOUT".toList)) ∧
    ∀ calls, calls.Perm (macros origFiles testFiles) → ∃ rounds, ∀ fuel, rounds < fuel →
      replaceInTurn fuel calls "diff %ORIG_STDOUT%ORIG_STDERR %%TEST_STDOUT".toList =
        some (substitute (macros origFiles testFiles) "diff %ORIG_STDOUT%ORIG_STDERR %%TEST_STDOUT".toList) :=
  evalDiffCmd_simultaneous origFiles testFiles _ files_plain

theorem origStdout_once : ReplacesOnce origStdout origFiles.stdoutFile.toList "diff %ORIG_STDOUT -".toList :=
  (replacesOnce_iff origStdout _ (by decide) _).mpr
    ((macros_marked origFiles testFiles files_plain).settled List.mem_cons_self _)

end Zofi.Substitution
