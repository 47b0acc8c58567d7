import Mathlib.Data.List.Infix
import Mathlib.Tactic.Common

/-! Occurrences of a pattern in a text, their replacement in one pass, and the simultaneous
substitution of several patterns. -/
namespace Zofi.Replacement

variable {α : Type} [DecidableEq α]

def find (pattern : List α) : List α → Option Nat
  | [] => if pattern = [] then some 0 else none
  | a :: text => if pattern <+: a :: text then some 0 else (find pattern text).map (· + 1)

theorem find_spec (pattern text : List α) (pos : Nat) (found : find pattern text = some pos) :
    pattern <+: text.drop pos ∧ ∀ earlier < pos, ¬ pattern <+: text.drop earlier := by
  induction text generalizing pos with
  | nil =>
    rw [find] at found
    split at found
    · next empty =>
      obtain rfl := Option.some.inj found
      exact ⟨by simp [empty],by simp⟩
    · cases found
  | cons a text ih =>
    rw [find] at found
    split at found
    · next here =>
      obtain rfl := Option.some.inj found
      exact ⟨here,by simp⟩
    · next missed =>
      obtain ⟨inner,later,rfl⟩ := Option.map_eq_some_iff.mp found
      obtain ⟨occurs,first⟩ := ih inner later
      refine ⟨occurs,fun earlier before => ?_⟩
      cases earlier with
      | zero => exact missed
      | succ earlier => exact first earlier (by omega)

theorem find_of_occurs (pattern text : List α) (some : pattern ≠ []) (pos : Nat) (occurs : pattern <+: text.drop pos) :
    ∃ first ≤ pos, find pattern text = Option.some first := by
  induction text generalizing pos with
  | nil =>
    rw [List.drop_nil] at occurs
    exact absurd (List.prefix_nil.mp occurs) some
  | cons a text ih =>
    rw [find]
    by_cases here : pattern <+: a :: text
    · exact ⟨0,Nat.zero_le _,if_pos here⟩
    · rw [if_neg here]
      cases pos with
      | zero => exact absurd occurs here
      | succ pos =>
        obtain ⟨first,below,found⟩ := ih pos occurs
        exact ⟨first + 1,by omega,by rw [found]; rfl⟩

def Beyond (pattern done rest : List α) : Prop := ∀ pos < done.length, ¬ pattern <+: (done ++ rest).drop pos

theorem find_beyond (pattern done rest : List α) (beyond : Beyond pattern done rest) :
    find pattern (done ++ rest) = (find pattern rest).map (done.length + ·) := by
  induction done with
  | nil => simp
  | cons a done ih =>
    have missed : ¬ pattern <+: a :: (done ++ rest) := beyond 0 (by simp)
    rw [List.cons_append,find,if_neg missed,ih fun pos below => beyond (pos + 1) (by simpa using below),Option.map_map]
    congr 1
    funext pos
    simp only [Function.comp,List.length_cons]
    omega

theorem find_done (pattern done rest : List α) (beyond : Beyond pattern done rest) (pos : Nat)
    (found : find pattern rest = some pos) : find pattern (done ++ rest) = some (done.length + pos) := by
  rw [find_beyond pattern done rest beyond,found]
  rfl

def matchAt (table : List (List α × List α)) (text : List α) : Option (List α × List α) :=
  table.find? fun entry => decide (entry.1 <+: text)

/-- From left to right, with so many characters of an occurrence still to pass over. -/
def pass (table : List (List α × List α)) : Nat → List α → List α
  | _,[] => []
  | skip + 1,_ :: text => pass table skip text
  | 0,a :: text =>
    match matchAt table (a :: text) with
    | some entry => entry.2 ++ pass table (entry.1.length - 1) text
    | none => a :: pass table 0 text

/-- Every pattern of the table is replaced at once, at its leftmost occurrences that do not overlap; what is put in is
not read again. -/
def substitute (table : List (List α × List α)) (text : List α) : List α := pass table 0 text

def replaceAll (pattern image text : List α) : List α := substitute [(pattern,image)] text

section Pass

variable (table : List (List α × List α))

theorem pass_skip (skip : Nat) (text : List α) : pass table skip text = substitute table (text.drop skip) := by
  induction text generalizing skip with
  | nil => cases skip <;> simp [substitute,pass]
  | cons a text ih =>
    cases skip with
    | zero => rfl
    | succ skip => exact ih skip

theorem substitute_empty (text : List α) : substitute [] text = text := by
  induction text with
  | nil => rfl
  | cons a text ih => exact congrArg (a :: ·) ih

theorem substitute_none (a : α) (text : List α) (missed : matchAt table (a :: text) = none) :
    substitute table (a :: text) = a :: substitute table text := by
  rw [substitute,pass,missed]
  rfl

theorem substitute_some (pattern image text : List α) (some : pattern ≠ [])
    (matched : matchAt table (pattern ++ text) = Option.some (pattern,image)) :
    substitute table (pattern ++ text) = image ++ substitute table text := by
  obtain ⟨a,pattern,rfl⟩ := List.exists_cons_of_ne_nil some
  rw [List.cons_append] at matched
  rw [List.cons_append,substitute,pass,matched]
  dsimp only
  rw [pass_skip,List.length_cons,Nat.add_sub_cancel,List.drop_left]

end Pass

theorem matchAt_single (pattern image text : List α) :
    matchAt [(pattern,image)] text = if pattern <+: text then some (pattern,image) else none := by
  by_cases here : pattern <+: text <;> simp [matchAt,here]

theorem replaceAll_miss (pattern image : List α) (a : α) (text : List α) (missed : ¬ pattern <+: a :: text) :
    replaceAll pattern image (a :: text) = a :: replaceAll pattern image text :=
  substitute_none _ a text (by rw [matchAt_single,if_neg missed])

theorem replaceAll_hit (pattern image text : List α) (some : pattern ≠ []) :
    replaceAll pattern image (pattern ++ text) = image ++ replaceAll pattern image text :=
  substitute_some _ pattern image text some (by rw [matchAt_single,if_pos (List.prefix_append _ _)])

theorem replaceAll_none (pattern image text : List α) (missed : find pattern text = none) :
    replaceAll pattern image text = text := by
  induction text with
  | nil => rfl
  | cons a text ih =>
    rw [find] at missed
    split at missed
    · cases missed
    · next here => rw [replaceAll_miss _ _ _ _ here,ih (Option.map_eq_none_iff.mp missed)]

theorem replaceAll_some (pattern image text : List α) (some : pattern ≠ []) (pos : Nat)
    (found : find pattern text = Option.some pos) : replaceAll pattern image text =
      text.take pos ++ image ++ replaceAll pattern image (text.drop (pos + pattern.length)) := by
  induction text generalizing pos with
  | nil =>
    rw [find,if_neg some] at found
    cases found
  | cons a text ih =>
    rw [find] at found
    split at found
    · next here =>
      obtain rfl := Option.some.inj found
      obtain ⟨rest,split⟩ := here
      rw [← split,replaceAll_hit _ _ _ some,Nat.zero_add,List.drop_left]
      rfl
    · next missed =>
      obtain ⟨inner,later,rfl⟩ := Option.map_eq_some_iff.mp found
      have next : inner + 1 + pattern.length = inner + pattern.length + 1 := by omega
      rw [replaceAll_miss _ _ _ _ missed,ih inner later,next]
      rfl

/-- What the single pass over the text has put together, and what it has still to read. -/
inductive Stage (pattern image text : List α) : List α → List α → Prop
  | start : Stage pattern image text [] text
  | next (done rest : List α) (pos : Nat) : Stage pattern image text done rest → find pattern rest = some pos →
      Stage pattern image text (done ++ rest.take pos ++ image) (rest.drop (pos + pattern.length))

/-- At no stage does the pattern begin in what has been put together, alone or with what follows. -/
def Settled (pattern image text : List α) : Prop :=
  ∀ done rest, Stage pattern image text done rest → Beyond pattern done rest

theorem find_split (pattern text : List α) (pos : Nat) (found : find pattern text = some pos) :
    text = text.take pos ++ (pattern ++ text.drop (pos + pattern.length)) := by
  obtain ⟨⟨rest,split⟩,_⟩ := find_spec pattern text pos found
  have behind : rest = text.drop (pos + pattern.length) := by
    rw [← List.drop_drop,← split,List.drop_left]
  rw [← behind,split,List.take_append_drop]

theorem find_bound (pattern text : List α) (some : pattern ≠ []) (pos : Nat)
    (found : find pattern text = Option.some pos) : pos + pattern.length ≤ text.length := by
  have long := (find_spec pattern text pos found).1.length_le
  have positive := List.length_pos_of_ne_nil some
  rw [List.length_drop] at long
  omega

/-- The patterns all begin with the mark, which is nowhere else in them, and none begins another one; what is put in
begins with something that no pattern contains, and does not contain the mark. -/
structure Marked (mark : α) (table : List (List α × List α)) : Prop where
  patterns : ∀ entry ∈ table, ∃ tail, entry.1 = mark :: tail ∧ mark ∉ tail
  images : ∀ entry ∈ table, mark ∉ entry.2 ∧ ∃ c rest, entry.2 = c :: rest ∧ ∀ other ∈ table, c ∉ other.1
  apart : ∀ entry ∈ table, ∀ other ∈ table, entry.1 <+: other.1 → entry = other

namespace Marked

variable {mark : α} {table : List (List α × List α)}

omit [DecidableEq α] in
theorem tail {entry : List α × List α} (marked : Marked mark (entry :: table)) : Marked mark table where
  patterns := fun other member => marked.patterns other (List.mem_cons_of_mem _ member)
  images := fun other member => by
    obtain ⟨free,c,rest,split,fresh⟩ := marked.images other (List.mem_cons_of_mem _ member)
    exact ⟨free,c,rest,split,fun third inside => fresh third (List.mem_cons_of_mem _ inside)⟩
  apart := fun other member third inside =>
    marked.apart other (List.mem_cons_of_mem _ member) third (List.mem_cons_of_mem _ inside)

omit [DecidableEq α] in
theorem perm {other : List (List α × List α)} (marked : Marked mark table) (same : other.Perm table) :
    Marked mark other where
  patterns := fun entry member => marked.patterns entry (same.subset member)
  images := fun entry member => by
    obtain ⟨free,c,rest,split,fresh⟩ := marked.images entry (same.subset member)
    exact ⟨free,c,rest,split,fun third inside => fresh third (same.subset inside)⟩
  apart := fun entry member third inside => marked.apart entry (same.subset member) third (same.subset inside)

omit [DecidableEq α] in
theorem occupied (marked : Marked mark table) (entry : List α × List α) (member : entry ∈ table) : entry.1 ≠ [] := by
  obtain ⟨tail,split,_⟩ := marked.patterns entry member
  rw [split]
  exact List.cons_ne_nil _ _

theorem matchAt_here (marked : Marked mark table) (entry : List α × List α) (member : entry ∈ table) (text : List α)
    (here : entry.1 <+: text) : matchAt table text = some entry := by
  cases matched : matchAt table text with
  | none =>
    have missed := List.find?_eq_none.mp matched entry member
    exact absurd here (by simpa using missed)
  | some other =>
    have inside := List.mem_of_find?_eq_some matched
    have there : other.1 <+: text := by simpa using List.find?_some matched
    rcases List.prefix_or_prefix_of_prefix here there with shorter | longer
    · rw [marked.apart entry member other inside shorter]
    · rw [marked.apart other inside entry member longer]

theorem matchAt_perm {other : List (List α × List α)} (marked : Marked mark table) (same : other.Perm table)
    (text : List α) : matchAt other text = matchAt table text := by
  cases matched : matchAt table text with
  | none =>
    refine List.find?_eq_none.mpr fun entry member => ?_
    exact List.find?_eq_none.mp matched entry (same.subset member)
  | some entry =>
    have inside := List.mem_of_find?_eq_some matched
    have here : entry.1 <+: text := by simpa using List.find?_some matched
    exact (marked.perm same).matchAt_here entry (same.symm.subset inside) text here

theorem substitute_perm {other : List (List α × List α)} (marked : Marked mark table) (same : other.Perm table)
    (text : List α) : substitute other text = substitute table text := by
  have passes (skip : Nat) (text : List α) : pass other skip text = pass table skip text := by
    induction text generalizing skip with
    | nil => cases skip <;> rfl
    | cons a text ih =>
      cases skip with
      | zero =>
        rw [pass,pass,marked.matchAt_perm same]
        cases matchAt table (a :: text) with
        | none => exact congrArg (a :: ·) (ih 0)
        | some entry => exact congrArg (entry.2 ++ ·) (ih _)
      | succ skip => exact ih skip
  exact passes 0 text

theorem substitute_plain (marked : Marked mark table) (run text : List α) (plain : mark ∉ run) :
    substitute table (run ++ text) = run ++ substitute table text := by
  induction run with
  | nil => rfl
  | cons a run ih =>
    obtain ⟨other,inner⟩ := not_or.mp (mt List.mem_cons.mpr plain)
    have missed : matchAt table (a :: (run ++ text)) = none := by
      refine List.find?_eq_none.mpr fun entry member => ?_
      obtain ⟨tail,split,_⟩ := marked.patterns entry member
      rw [split]
      simp [other]
    rw [List.cons_append,substitute_none _ _ _ missed,ih inner,List.cons_append]

end Marked

/-- A word that neither a pattern nor an image can take part in is read off the replaced text only where it was. -/
theorem prefix_replaced (c : α) (pattern rest word text : List α) (some : pattern ≠ []) (fresh : c ∉ word)
    (found : word <+: replaceAll pattern (c :: rest) text) : word <+: text := by
  induction word generalizing text with
  | nil => exact List.nil_prefix
  | cons d word ih =>
    obtain ⟨other,inner⟩ := not_or.mp (mt List.mem_cons.mpr fresh)
    cases text with
    | nil => exact absurd (List.prefix_nil.mp found) (List.cons_ne_nil _ _)
    | cons b text =>
      by_cases here : pattern <+: b :: text
      · obtain ⟨behind,split⟩ := here
        rw [← split,replaceAll_hit _ _ _ some,List.cons_append,List.cons_prefix_cons] at found
        exact absurd found.1.symm other
      · rw [replaceAll_miss _ _ _ _ here,List.cons_prefix_cons] at found
        exact List.cons_prefix_cons.mpr ⟨found.1,ih text inner found.2⟩

namespace Marked

variable {mark : α} {entry : List α × List α} {table : List (List α × List α)}

omit [DecidableEq α] in
theorem single (marked : Marked mark table) (member : entry ∈ table) : Marked mark [entry] where
  patterns := fun other inside => by
    obtain rfl := List.mem_singleton.mp inside
    exact marked.patterns other member
  images := fun other inside => by
    obtain rfl := List.mem_singleton.mp inside
    obtain ⟨free,c,rest,image,fresh⟩ := marked.images other member
    exact ⟨free,c,rest,image,fun third only => fresh third (List.mem_singleton.mp only ▸ member)⟩
  apart := fun one first two second _ => (List.mem_singleton.mp first).trans (List.mem_singleton.mp second).symm

theorem matchAt_replaced (marked : Marked mark (entry :: table)) (a : α) (text : List α)
    (matched : matchAt (entry :: table) (a :: text) = none) :
    matchAt table (a :: replaceAll entry.1 entry.2 text) = none := by
  obtain ⟨free,c,rest,image,fresh⟩ := marked.images entry List.mem_cons_self
  have missed := List.find?_eq_none.mp matched
  refine List.find?_eq_none.mpr fun other member => ?_
  rw [decide_eq_true_eq]
  intro begins
  have inside := List.mem_cons_of_mem entry member
  obtain ⟨tail,split,_⟩ := marked.patterns other inside
  have new := fresh other inside
  rw [split] at begins new
  obtain ⟨head,later⟩ := List.cons_prefix_cons.mp begins
  rw [image] at later
  have old := prefix_replaced c _ _ _ _ (marked.occupied entry List.mem_cons_self)
    (not_or.mp (mt List.mem_cons.mpr new)).2 later
  have before : other.1 <+: a :: text := by
    rw [split]
    exact List.cons_prefix_cons.mpr ⟨head,old⟩
  exact absurd before (by simpa using missed other inside)

theorem replaceAll_other (marked : Marked mark table) (member : entry ∈ table) (found : List α × List α)
    (inside : found ∈ table) (other : found ≠ entry) (behind : List α) :
    replaceAll entry.1 entry.2 (found.1 ++ behind) = found.1 ++ replaceAll entry.1 entry.2 behind := by
  have elsewhere : ¬ entry.1 <+: found.1 ++ behind := by
    intro here
    have first := marked.matchAt_here entry member _ here
    have second := marked.matchAt_here found inside _ (List.prefix_append found.1 behind)
    exact other (Option.some.inj (second.symm.trans first))
  obtain ⟨tail,split,plain⟩ := marked.patterns found inside
  rw [split,List.cons_append] at elsewhere ⊢
  rw [replaceAll_miss _ _ _ _ elsewhere]
  exact congrArg (mark :: ·) ((marked.single member).substitute_plain tail behind plain)

theorem substitute_replaced (marked : Marked mark (entry :: table)) (text : List α) :
    substitute table (replaceAll entry.1 entry.2 text) = substitute (entry :: table) text := by
  induction h : text.length using Nat.strongRecOn generalizing text with
  | ind size ih =>
    cases matched : matchAt (entry :: table) text with
    | none =>
      cases text with
      | nil => rfl
      | cons a text =>
        have missed := List.find?_eq_none.mp matched
        have here : ¬ entry.1 <+: a :: text := by simpa using missed entry List.mem_cons_self
        rw [replaceAll_miss _ _ _ _ here,substitute_none _ _ _ (marked.matchAt_replaced a text matched),
          substitute_none _ _ _ matched,ih text.length (by rw [← h]; exact Nat.lt_succ_self _) text rfl]
    | some found =>
      have inside := List.mem_of_find?_eq_some matched
      have here : found.1 <+: text := by simpa using List.find?_some matched
      have occupied := marked.occupied found inside
      obtain ⟨behind,rfl⟩ := here
      have shorter : behind.length < size := by
        have positive := List.length_pos_of_ne_nil occupied
        rw [← h,List.length_append]
        omega
      rw [substitute_some _ _ found.2 _ occupied matched,← ih behind.length shorter behind rfl]
      by_cases same : found = entry
      · subst same
        have free := (marked.images found List.mem_cons_self).1
        rw [replaceAll_hit _ _ _ occupied,marked.tail.substitute_plain _ _ free]
      · have member := (List.mem_cons.mp inside).resolve_left same
        rw [marked.replaceAll_other List.mem_cons_self found inside same,substitute_some _ _ found.2 _ occupied
          (marked.tail.matchAt_here found member _ (List.prefix_append _ _))]

omit [DecidableEq α] in
theorem not_across (marked : Marked mark table) (member : entry ∈ table) (word text : List α)
    (absent : ¬ entry.1 <+: word) : ¬ entry.1 <+: word ++ (entry.2 ++ text) := by
  obtain ⟨_,c,image,split,fresh⟩ := marked.images entry member
  intro begins
  rcases List.prefix_or_prefix_of_prefix begins (List.prefix_append _ _) with shorter | ⟨across,longer⟩
  · exact absent shorter
  · cases across with
    | nil => exact absent ⟨[],by rw [List.append_nil] at longer ⊢; exact longer.symm⟩
    | cons a across =>
      rw [← longer,List.prefix_append_right_inj,split,List.cons_append,List.cons_prefix_cons] at begins
      refine fresh entry member ?_
      rw [← longer,← begins.1]
      exact List.mem_append_right _ List.mem_cons_self

omit [DecidableEq α] in
theorem not_in_image (marked : Marked mark table) (member : entry ∈ table) (start : Nat) (room : start < entry.2.length)
    (text : List α) : ¬ entry.1 <+: (entry.2 ++ text).drop start := by
  obtain ⟨tail,pattern,_⟩ := marked.patterns entry member
  intro begins
  rw [List.drop_append_of_le_length room.le,List.drop_eq_getElem_cons room,pattern,List.cons_append,
    List.cons_prefix_cons] at begins
  refine (marked.images entry member).1 ?_
  rw [begins.1]
  exact List.getElem_mem room

/-- What is put in never makes a new occurrence, whatever the text around it is. -/
theorem settled (marked : Marked mark table) (member : entry ∈ table) (text : List α) :
    Settled entry.1 entry.2 text := by
  intro done rest stage
  induction stage with
  | start => exact fun pos below => absurd below (Nat.not_lt_zero _)
  | next done rest pos _ found ih =>
    intro start below begins
    obtain ⟨_,first⟩ := find_spec _ _ _ found
    have parts := find_split _ _ _ found
    rw [List.append_assoc] at begins
    by_cases inside : start < (done ++ rest.take pos).length
    · have before : ¬ entry.1 <+: (done ++ rest.take pos).drop start := by
        rintro ⟨behind,early⟩
        have whole : (done ++ rest).drop start = (done ++ rest.take pos).drop start ++ (entry.1 ++
            rest.drop (pos + entry.1.length)) := by
          rw [← List.drop_append_of_le_length inside.le,List.append_assoc,← parts]
        have occurs : entry.1 <+: (done ++ rest).drop start := by
          rw [whole,← early,List.append_assoc]
          exact List.prefix_append _ _
        by_cases inDone : start < done.length
        · exact ih start inDone occurs
        · rw [List.drop_append,List.drop_eq_nil_of_le (by omega),List.nil_append] at occurs
          have near : start - done.length < pos := by
            simp only [List.length_append,List.length_take] at inside
            omega
          exact first _ near occurs
      rw [List.drop_append_of_le_length inside.le] at begins
      exact marked.not_across member _ _ before begins
    · rw [List.drop_append,List.drop_eq_nil_of_le (by omega),List.nil_append] at begins
      have room : start - (done ++ rest.take pos).length < entry.2.length := by
        rw [List.length_append] at below
        omega
      exact marked.not_in_image member _ room _ begins

end Marked

end Zofi.Replacement
