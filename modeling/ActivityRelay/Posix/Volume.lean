import Mathlib.Data.List.Basic
import Mathlib.Logic.Function.Basic

/-!
# A directory that survives crashes

The files of one directory, which are reached by name or through open descriptors. A name is bound
to a number, which stands for the file itself. As long as a file has a name or a descriptor its
inode is not given to another one, so that comparing the inodes of two files that are reached comes
to the same as comparing these numbers.

Renaming and unlinking change the bindings at once, but a crash may undo them until the directory
has been synced; and it may spoil the content of a file that has not been synced itself. So for each
name the bindings that it may have after a crash are kept (`recoverable`); the present one is always
among them.
-/

namespace Posix

open Function List

/-- A file. `synced` says that a crash cannot spoil its content. -/
structure File (B : Type) where
  body : B
  synced : Bool
  regular : Bool
  deriving DecidableEq

/-- A directory of files with names `N` and contents `B`. -/
structure Volume (N B : Type) where
  names : List N
  file : ℕ → File B
  entry : N → Option ℕ
  recoverable : N → List (Option ℕ)
  current : ∀ n, entry n ∈ recoverable n
  absent : ∀ n, n ∉ names → ∀ e ∈ recoverable n, e = none

namespace Volume

variable {N B : Type} (v : Volume N B)

/-- The file with a name. -/
def fileAt (n : N) : Option (File B) := (v.entry n).map v.file

/-- The files that a name may have after a crash, as they are now. -/
def crashFiles (n : N) : List (Option (File B)) :=
  (v.recoverable n).map (Option.map v.file)

/-- The content of the file with a name. -/
def text (n : N) : Option B := (v.entry n).map (fun i => (v.file i).body)

/-- No name is bound to the file, also after a crash. Whether a descriptor is open on it is for the
users of the directory to know. -/
def Unused (i : ℕ) : Prop := ∀ n ∈ v.names, some i ∉ v.recoverable n

instance (v : Volume N B) (i : ℕ) : Decidable (v.Unused i) :=
  inferInstanceAs (Decidable (∀ n ∈ v.names, some i ∉ v.recoverable n))

theorem Unused.not_mem {v : Volume N B} {i : ℕ} (h : v.Unused i) (n : N) :
  some i ∉ v.recoverable n
  := by
  by_cases hn : n ∈ v.names
  · exact h n hn
  · intro hi
    cases v.absent n hn _ hi

/-- A directory with one file, which has the number 0. -/
def single [DecidableEq N] (n : N) (f : File B) : Volume N B where
  names := [n]
  file := fun _ => f
  entry := fun m => if m = n then some 0 else none
  recoverable := fun m => [if m = n then some 0 else none]
  current := fun _ => mem_singleton_self _
  absent := by
    intro m hm e he
    rw [mem_singleton.mp he, if_neg (fun h => hm (mem_singleton.mpr h))]

/-! ### Operations -/

/-- A file is changed. -/
def setFile (i : ℕ) (f : File B) : Volume N B :=
  { v with file := update v.file i f }

/-- Nothing can be undone any more. -/
def syncDirectory : Volume N B where
  names := v.names
  file := v.file
  entry := v.entry
  recoverable := fun n => [v.entry n]
  current := fun _ => mem_singleton_self _
  absent := by
    intro n hn e he
    rw [mem_singleton.mp he]
    exact v.absent n hn _ (v.current n)

/-- The binding of a name after a crash that picks one by its number. -/
def recovered (pick : N → ℕ) (n : N) : Option ℕ :=
  (v.recoverable n)[pick n]?.getD (v.entry n)

theorem recovered_mem (pick : N → ℕ) (n : N) :
  v.recovered pick n ∈ v.recoverable n
  := by
  unfold recovered
  cases h : (v.recoverable n)[pick n]? with
  | none => exact v.current n
  | some e => exact mem_of_getElem? h

/-- A crash. `bodies` are the contents of the files that have not been synced. -/
def crash (pick : N → ℕ) (bodies : ℕ → B) : Volume N B where
  names := v.names
  file := fun i =>
    if (v.file i).synced then v.file i else { v.file i with body := bodies i, synced := true }
  entry := v.recovered pick
  recoverable := fun n => [v.recovered pick n]
  current := fun _ => mem_singleton_self _
  absent := by
    intro n hn e he
    rw [mem_singleton.mp he]
    exact v.absent n hn _ (v.recovered_mem pick n)

variable [DecidableEq N]

/-- A name is bound, or unbound. A crash may undo this. -/
def bind (v : Volume N B) (n : N) (e : Option ℕ) : Volume N B where
  names := n :: v.names
  file := v.file
  entry := update v.entry n e
  recoverable := update v.recoverable n (e :: v.recoverable n)
  current := by
    intro m
    by_cases hm : m = n
    · subst hm
      simp only [update_self, mem_cons_self]
    · simp only [update_of_ne hm, v.current m]
  absent := by
    intro m hm e he
    have hne : m ≠ n := fun h => hm (h ▸ mem_cons_self)
    rw [update_of_ne hne] at he
    exact v.absent m (fun h => hm (mem_cons_of_mem _ h)) e he

/-- `rename`. There is no result if the old name does not exist. -/
def rename (v : Volume N B) (old new : N) : Option (Volume N B) :=
  (v.entry old).map (fun i => (v.bind old none).bind new (some i))

section Bind

variable (v : Volume N B) {n m : N} {e : Option ℕ}

@[simp]
theorem entry_bind_self :
  (v.bind n e).entry n = e
  := update_self _ _ _

theorem entry_bind_of_ne (h : m ≠ n) :
  (v.bind n e).entry m = v.entry m
  := update_of_ne h _ _

@[simp]
theorem recoverable_bind_self :
  (v.bind n e).recoverable n = e :: v.recoverable n
  := update_self _ _ _

theorem recoverable_bind_of_ne (h : m ≠ n) :
  (v.bind n e).recoverable m = v.recoverable m
  := update_of_ne h _ _

end Bind

/-! ### The files of a name -/

section Files

variable (v : Volume N B) {n : N} {e : Option ℕ} {i : ℕ} {f : File B}

omit [DecidableEq N]

@[simp]
theorem file_setFile_self :
  (v.setFile i f).file i = f
  := by
  change update v.file i f i = f
  rw [update_self]

theorem file_setFile_of_ne {j : ℕ} (h : j ≠ i) :
  (v.setFile i f).file j = v.file j
  := by
  change update v.file i f j = v.file j
  rw [update_of_ne h]

theorem fileAt_mem_crashFiles (n : N) :
  v.fileAt n ∈ v.crashFiles n
  := mem_map_of_mem (v.current n)

theorem text_eq_map (n : N) :
  v.text n = (v.fileAt n).map File.body
  := (Option.map_map _ _ _).symm

/-- A file is changed that a name does not have, also after a crash. -/
theorem crashFiles_setFile (h : some i ∉ v.recoverable n) :
  (v.setFile i f).crashFiles n = v.crashFiles n
  := by
  apply map_congr_left
  intro e he
  cases e with
  | none => rfl
  | some j =>
    have hne : j ≠ i := by
      rintro rfl
      exact h he
    exact congrArg some (v.file_setFile_of_ne hne)

theorem fileAt_setFile (h : some i ∉ v.recoverable n) :
  (v.setFile i f).fileAt n = v.fileAt n
  := by
  have hne : ∀ j, v.entry n = some j → j ≠ i := by
    rintro j hj rfl
    exact h (hj ▸ v.current n)
  change (v.entry n).map _ = (v.entry n).map _
  cases hj : v.entry n with
  | none => rfl
  | some j => exact congrArg some (v.file_setFile_of_ne (hne j hj))

/-- After a crash a name has one of the files that it may have, if they have been synced. -/
theorem fileAt_crash (pick : N → ℕ) (bodies : ℕ → B)
    (hsynced : ∀ g, some g ∈ v.crashFiles n → g.synced = true) :
  (v.crash pick bodies).fileAt n ∈ v.crashFiles n
  := by
  have hmem : (v.recovered pick n).map v.file ∈ v.crashFiles n :=
    mem_map_of_mem (v.recovered_mem pick n)
  change (v.recovered pick n).map _ ∈ _
  cases hj : v.recovered pick n with
  | none =>
    rw [hj] at hmem
    exact hmem
  | some j =>
    rw [hj] at hmem
    have hfile : (v.crash pick bodies).file j = v.file j := if_pos (hsynced _ hmem)
    rw [Option.map_some, hfile]
    exact hmem

end Files

section Bind

variable (v : Volume N B) {n m : N} {e : Option ℕ}

theorem fileAt_bind_self :
  (v.bind n e).fileAt n = e.map v.file
  := by
  rw [fileAt, entry_bind_self]
  rfl

theorem fileAt_bind_of_ne (h : m ≠ n) :
  (v.bind n e).fileAt m = v.fileAt m
  := by
  rw [fileAt, entry_bind_of_ne v h]
  rfl

theorem crashFiles_bind_self :
  (v.bind n e).crashFiles n = e.map v.file :: v.crashFiles n
  := by
  rw [crashFiles, recoverable_bind_self]
  rfl

theorem crashFiles_bind_of_ne (h : m ≠ n) :
  (v.bind n e).crashFiles m = v.crashFiles m
  := by
  rw [crashFiles, recoverable_bind_of_ne v h]
  rfl

end Bind

end Volume

end Posix
