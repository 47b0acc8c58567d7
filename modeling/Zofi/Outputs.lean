import Zofi.Model.RunAndWait

/-! What the retries of a run leave in its output files. -/
namespace Zofi.Outputs
open SharedOffset Model.Utils Model.WaitStatus Model.RunAndWait

theorem childWrites_redirected (opts : Options) (redirected : opts.noRedirect = false) (files : Files)
    (attempt : Attempt) :
    childWrites opts files attempt =
      ⟨writes 0 (truncate files.stdoutFd) attempt.stdout,writes 0 (truncate files.stderrFd) attempt.stderr⟩ := by
  simp [childWrites,redirected]

def after (opts : Options) (files : Files) (attempts : List Attempt) : Files :=
  attempts.foldl (childWrites opts) files

theorem offsets_after (opts : Options) (redirected : opts.noRedirect = false) (files : Files)
    (attempts : List Attempt) :
    (after opts files attempts).stdoutFd.offset =
        files.stdoutFd.offset + (attempts.map fun attempt => attempt.stdout.flatten.length).sum ∧
      (after opts files attempts).stderrFd.offset =
        files.stderrFd.offset + (attempts.map fun attempt => attempt.stderr.flatten.length).sum := by
  induction attempts generalizing files with
  | nil => simp [after]
  | cons attempt attempts ih =>
    obtain ⟨out,err⟩ := ih (childWrites opts files attempt)
    rw [childWrites_redirected opts redirected] at out err
    simp only [after,List.foldl_cons,List.map_cons,List.sum_cons] at out err ⊢
    rw [childWrites_redirected opts redirected,out,err,writes_offset,writes_offset]
    simp only [truncate]
    omega

theorem attemptLoop_ok (opts : Options) (attempts : Nat) (files final : Files) (failed : List Attempt)
    (last : Attempt) (fails : ∀ attempt ∈ failed, retries opts attempt = true)
    (ran : attemptLoop opts attempts files (failed ++ [last]) = .ok final) :
    final = childWrites opts (after opts files failed) last := by
  induction failed generalizing attempts files with
  | nil =>
    simp only [List.nil_append,attemptLoop] at ran
    split at ran
    · simp at ran
    · split at ran
      · simp at ran
      · exact (Except.ok.inj ran).symm
  | cons attempt failed ih =>
    simp only [List.cons_append,attemptLoop,fails attempt (by simp),if_true] at ran
    split at ran
    · simp at ran
    · exact ih _ _ (fun other member => fails other (by simp [member])) ran

theorem sum_lengths_eq_zero (attempts : List Attempt) (stream : Attempt → List (List Byte)) :
    (attempts.map fun attempt => (stream attempt).flatten.length).sum = 0 ↔
      ∀ attempt ∈ attempts, (stream attempt).flatten = [] := by
  induction attempts with
  | nil => simp
  | cons attempt attempts ih =>
    rw [List.map_cons,List.sum_cons,Nat.add_eq_zero_iff,ih,List.length_eq_zero_iff,List.forall_mem_cons]

/-- The outputs that are compared are the last attempt's own, stream by stream, unless both
it and an earlier attempt wrote to the stream: the offset the earlier child left behind is
not reset by ftruncate(). -/
theorem outputs_of_last_iff (opts : Options) (redirected : opts.noRedirect = false) (failed : List Attempt)
    (last : Attempt) (fails : ∀ attempt ∈ failed, retries opts attempt = true) (files : Files)
    (ran : runAndWait opts (failed ++ [last]) = .ok files) :
    (files.stdoutFd.content = last.stdout.flatten ∧ files.stderrFd.content = last.stderr.flatten) ↔
      ((∀ attempt ∈ failed, attempt.stdout.flatten = []) ∨ last.stdout.flatten = []) ∧
        ((∀ attempt ∈ failed, attempt.stderr.flatten = []) ∨ last.stderr.flatten = []) := by
  have final := attemptLoop_ok opts _ initFiles files failed last fails ran
  obtain ⟨out,err⟩ := offsets_after opts redirected initFiles failed
  rw [childWrites_redirected opts redirected] at final
  subst final
  simp only [initFiles,Nat.zero_add] at out err
  rw [writes_truncated_exact,writes_truncated_exact]
  simp only [initFiles,out,err,sum_lengths_eq_zero]

def retried : Attempt := ⟨true,false,[[0x79]],[]⟩
def injected : Attempt := ⟨true,true,[[0x79]],[]⟩

theorem outputs_of_last_iff_retried :
    runAndWait {} ([retried] ++ [injected]) = .ok ⟨⟨[0,0x79],2⟩,⟨[],0⟩⟩ ∧
      ((([0,0x79] : List Byte) = injected.stdout.flatten ∧ ([] : List Byte) = injected.stderr.flatten) ↔
        ((∀ attempt ∈ [retried], attempt.stdout.flatten = []) ∨ injected.stdout.flatten = []) ∧
          ((∀ attempt ∈ [retried], attempt.stderr.flatten = []) ∨ injected.stderr.flatten = [])) :=
  ⟨by decide,outputs_of_last_iff {} rfl [retried] injected (by decide) ⟨⟨[0,0x79],2⟩,⟨[],0⟩⟩ (by decide)⟩

theorem retry_leaves_gap : ∃ files, runAndWait {} [retried,injected] = .ok files ∧
    retries {} retried = true ∧ retries {} injected = false ∧
      files.stdoutFd.content ≠ injected.stdout.flatten :=
  ⟨⟨⟨[0,0x79],2⟩,⟨[],0⟩⟩,by decide,by decide,by decide,by decide⟩

theorem defaultDiff_iff (fp1 fp2 : List Byte) : defaultDiff fp1 fp2 = true ↔ fp1 = fp2 := by
  fun_induction defaultDiff fp1 fp2 with
  | case1 fp1 fp2 buf1 buf2 differ =>
    simp only [Bool.false_eq_true,false_iff]
    rintro rfl
    simp [buf1,buf2] at differ
  | case2 fp1 fp2 buf1 buf2 agree short =>
    have equal : buf1 = buf2 := by simpa using not_or.mp agree |>.2
    have whole1 : buf1 = fp1 := List.take_of_length_le (by simp only [buf1,List.length_take] at short; omega)
    have whole2 : buf2 = fp2 :=
      List.take_of_length_le (by rw [equal] at short; simp only [buf2,List.length_take] at short; omega)
    simp [← whole1,← whole2,equal]
  | case3 fp1 fp2 buf1 buf2 agree full ih =>
    have equal : buf1 = buf2 := by simpa using not_or.mp agree |>.2
    rw [ih]
    constructor
    · intro rest
      rw [← List.take_append_drop 256 fp1,← List.take_append_drop 256 fp2,rest]
      exact congrArg (· ++ _) equal
    · rintro rfl
      rfl

end Zofi.Outputs
