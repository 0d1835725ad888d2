import Mathlib

/-!
# A directory of files

Names are bound to inodes, and an inode has a content. Opening a file yields its
inode, which stays what it is when the name is bound to another one: a writer or
a reader of a file that has been replaced goes on with the file it has opened.

A process writes at an offset of its own. Beyond the end of the content the gap
is filled, and a content that is longer than what is written keeps its tail.
-/

universe u v

/-- The names of a directory, the contents of its inodes, and how many inodes have been
used. -/
structure FileSystem (ν : Type u) (α : Type v) where
  inode : ν → Option ℕ
  content : ℕ → List α
  used : ℕ

namespace FileSystem

variable {ν : Type u} {α : Type v}

/-- The content behind a name. -/
def read (name : ν) (fs : FileSystem ν α) : Option (List α) :=
  (fs.inode name).map fs.content

/-- Names are bound to inodes in use. -/
def WellFormed (fs : FileSystem ν α) : Prop :=
  ∀ name i, fs.inode name = some i → i < fs.used

/-- `chunk` written into `content` at `offset`. -/
def splice [Inhabited α] (content : List α) (offset : ℕ) (chunk : List α) : List α :=
  content.take offset ++ List.replicate (offset - content.length) default ++ chunk ++
    content.drop (offset + chunk.length)

/-- A write through a descriptor of the inode. -/
def write [Inhabited α] (i offset : ℕ) (chunk : List α) (fs : FileSystem ν α) :
    FileSystem ν α :=
  { fs with content := Function.update fs.content i (splice (fs.content i) offset chunk) }

variable [DecidableEq ν]

/-- A new, empty inode under a name. -/
def bindNew (name : ν) (fs : FileSystem ν α) : FileSystem ν α where
  inode := Function.update fs.inode name (some fs.used)
  content := Function.update fs.content fs.used []
  used := fs.used + 1

/-- `open` with `O_CREAT | O_EXCL`. -/
def create (name : ν) (fs : FileSystem ν α) : Option (ℕ × FileSystem ν α) :=
  match fs.inode name with
  | some _ => none
  | none => some (fs.used, fs.bindNew name)

/-- `open` with `O_CREAT | O_TRUNC`. -/
def openTruncate (name : ν) (fs : FileSystem ν α) : ℕ × FileSystem ν α :=
  match fs.inode name with
  | some i => (i, { fs with content := Function.update fs.content i [] })
  | none => (fs.used, fs.bindNew name)

/-- `rename`: the target is bound to the inode of the source, and the source to none. -/
def rename (source target : ν) (fs : FileSystem ν α) : Option (FileSystem ν α) :=
  (fs.inode source).map fun i =>
    { fs with inode := Function.update (Function.update fs.inode source none) target (some i) }

def unlink (name : ν) (fs : FileSystem ν α) : FileSystem ν α :=
  { fs with inode := Function.update fs.inode name none }

section Write

variable [Inhabited α] {fs : FileSystem ν α} {i : ℕ}

omit [DecidableEq ν] in
@[simp]
theorem inode_write (offset : ℕ) (chunk : List α) : (fs.write i offset chunk).inode = fs.inode :=
  rfl

omit [DecidableEq ν] in
@[simp]
theorem used_write (offset : ℕ) (chunk : List α) : (fs.write i offset chunk).used = fs.used :=
  rfl

omit [DecidableEq ν] in
theorem content_write_of_ne {j : ℕ} (other : j ≠ i) (offset : ℕ) (chunk : List α) :
    (fs.write i offset chunk).content j = fs.content j :=
  Function.update_of_ne other ..

omit [DecidableEq ν] in
/-- Writing where the content ends appends to it. -/
theorem content_write_end {sent : List α} (content : fs.content i = sent) (chunk : List α) :
    (fs.write i sent.length chunk).content i = sent ++ chunk := by
  have update : (fs.write i sent.length chunk).content i =
      splice (fs.content i) sent.length chunk :=
    Function.update_self ..
  rw [update, content, splice, List.take_length, Nat.sub_self, List.replicate_zero,
    List.append_nil, List.drop_eq_nil_of_le (Nat.le_add_right _ _), List.append_nil]

end Write

section Names

variable {fs : FileSystem ν α} {name other : ν}

@[simp]
theorem used_bindNew : (fs.bindNew name).used = fs.used + 1 :=
  rfl

@[simp]
theorem inode_bindNew : (fs.bindNew name).inode name = some fs.used :=
  Function.update_self ..

@[simp]
theorem inode_bindNew_of_ne (different : other ≠ name) :
    (fs.bindNew name).inode other = fs.inode other :=
  Function.update_of_ne different ..

@[simp]
theorem content_bindNew : (fs.bindNew name).content fs.used = [] :=
  Function.update_self ..

theorem content_bindNew_of_ne {i : ℕ} (different : i ≠ fs.used) :
    (fs.bindNew name).content i = fs.content i :=
  Function.update_of_ne different ..

theorem WellFormed.bindNew (wellFormed : fs.WellFormed) : (fs.bindNew name).WellFormed := by
  intro other i bound
  by_cases same : other = name
  · subst same
    rw [inode_bindNew] at bound
    cases bound
    exact Nat.lt_succ_self _
  · rw [inode_bindNew_of_ne same] at bound
    exact (wellFormed other i bound).trans (Nat.lt_succ_self _)

theorem create_eq_some {i : ℕ} {later : FileSystem ν α}
    (created : fs.create name = some (i, later)) :
    fs.inode name = none ∧ i = fs.used ∧ later = fs.bindNew name := by
  unfold create at created
  split at created
  · cases created
  · rename_i absent
    cases created
    exact ⟨absent, rfl, rfl⟩

/-- Opening a file for a new content leaves the other names and inodes as they are. -/
structure Opened (fs : FileSystem ν α) (name : ν) (i : ℕ) (later : FileSystem ν α) : Prop where
  inode : later.inode name = some i
  content : later.content i = []
  others : ∀ other ≠ name, later.inode other = fs.inode other
  contents : ∀ j < fs.used, j ≠ i → later.content j = fs.content j
  used : fs.used ≤ later.used
  fresh : fs.inode name = some i ∨ fs.used ≤ i

theorem openTruncate_opened (fs : FileSystem ν α) (name : ν) :
    fs.Opened name (fs.openTruncate name).1 (fs.openTruncate name).2 := by
  unfold openTruncate
  split
  case h_1 i bound =>
    exact ⟨bound, Function.update_self .., fun _ _ => rfl,
      fun j _ different => Function.update_of_ne different .., le_refl _, .inl bound⟩
  case h_2 absent =>
    exact ⟨inode_bindNew, content_bindNew, fun _ different => inode_bindNew_of_ne different,
      fun j _ different => content_bindNew_of_ne different, Nat.le_succ _, .inr (le_refl _)⟩

theorem WellFormed.openTruncate (wellFormed : fs.WellFormed) (name : ν) :
    (fs.openTruncate name).2.WellFormed := by
  unfold FileSystem.openTruncate
  split
  · exact wellFormed
  · exact wellFormed.bindNew

@[simp]
theorem inode_unlink : (fs.unlink name).inode name = none :=
  Function.update_self ..

@[simp]
theorem inode_unlink_of_ne (different : other ≠ name) :
    (fs.unlink name).inode other = fs.inode other :=
  Function.update_of_ne different ..

theorem rename_eq_some {source target : ν} {later : FileSystem ν α}
    (renamed : fs.rename source target = some later) :
    ∃ i, fs.inode source = some i ∧
      later = { fs with
        inode := Function.update (Function.update fs.inode source none) target (some i) } := by
  rcases Option.map_eq_some_iff.mp renamed with ⟨i, bound, same⟩
  exact ⟨i, bound, same.symm⟩

theorem WellFormed.rename (wellFormed : fs.WellFormed) {source target : ν}
    {later : FileSystem ν α} (renamed : fs.rename source target = some later) :
    later.WellFormed := by
  rcases rename_eq_some renamed with ⟨i, bound, rfl⟩
  intro name j isBound
  by_cases isTarget : name = target
  · subst isTarget
    dsimp only at isBound
    rw [Function.update_self] at isBound
    cases isBound
    exact wellFormed source i bound
  · dsimp only at isBound
    rw [Function.update_of_ne isTarget] at isBound
    by_cases isSource : name = source
    · subst isSource
      rw [Function.update_self] at isBound
      cases isBound
    · rw [Function.update_of_ne isSource] at isBound
      exact wellFormed name j isBound

end Names

end FileSystem
