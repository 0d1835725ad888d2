import Mathlib

/-!
# Paths and symbolic links

A static tree of files with symbolic links, and the resolution of a path: the
components are followed from the root on, a link is replaced by its text, and
resolution is given up after a number of links.

A path is resolved when no part of it is a link and none of its names is `.`, `..`
or empty. Resolution only yields resolved paths, and it keeps those that are.
-/

namespace Paths

/-- A name, or any other component of a path. -/
abbrev Name := List Char

/-- The components of an absolute path. -/
abbrev Path := List Name

/-- A component that stands for a file and not for a direction. -/
structure Plain (name : Name) : Prop where
  nonempty : name ≠ []
  notCurrent : name ≠ ['.']
  notParent : name ≠ ['.', '.']

/-- A name that a directory can have. -/
structure Proper (name : Name) : Prop extends Plain name where
  noSlash : '/' ∉ name
  noNul : '\x00' ∉ name

/-- The links and the regular files of a file system. Resolution follows at most `maxLinks`
links. -/
structure Tree where
  link : Path → Option (List Char)
  isFile : Path → Bool
  maxLinks : ℕ
  proper : ∀ path, isFile path = true → ∀ name ∈ path, Proper name

/-- Where following the components of a path ends. -/
inductive Walk where
  | done (path : Path)
  | link (dir : Path) (text : List Char) (rest : List Name)
deriving DecidableEq, Repr

/-- Follow the components up to the first link. -/
def walk (tree : Tree) : Path → List Name → Walk
  | path, [] => .done path
  | path, name :: rest =>
      if name = [] ∨ name = ['.'] then walk tree path rest
      else if name = ['.', '.'] then walk tree path.dropLast rest
      else
        match tree.link (path ++ [name]) with
        | none => walk tree (path ++ [name]) rest
        | some text => .link path text rest

/-- Follow the components and at most `links` links. -/
def realpath (tree : Tree) : ℕ → Path → List Name → Option Path
  | links, path, rest =>
      match walk tree path rest with
      | .done path => some path
      | .link dir text rest =>
          match links with
          | 0 => none
          | links + 1 =>
              realpath tree links (if text.head? = some '/' then [] else dir)
                (text.splitOn '/' ++ rest)

/-- The path a path leads to; none for a loop of links. -/
def resolve (tree : Tree) (path : Path) : Option Path :=
  realpath tree tree.maxLinks [] path

/-- A path without links and directions in it. -/
structure Resolved (tree : Tree) (path : Path) : Prop where
  plain : ∀ name ∈ path, Plain name
  noLink : ∀ dir, dir <+: path → dir ≠ [] → tree.link dir = none

namespace Resolved

variable {tree : Tree} {path : Path}

theorem nil : Resolved tree [] :=
  ⟨by simp, fun _ before nonempty => absurd (List.prefix_nil.mp before) nonempty⟩

theorem of_prefix (resolved : Resolved tree path) {dir : Path} (before : dir <+: path) :
    Resolved tree dir :=
  ⟨fun name mem => resolved.plain name (before.subset mem),
    fun other earlier => resolved.noLink other (earlier.trans before)⟩

theorem append (resolved : Resolved tree path) {name : Name} (plain : Plain name)
    (noLink : tree.link (path ++ [name]) = none) : Resolved tree (path ++ [name]) := by
  refine ⟨?_, ?_⟩
  · intro other mem
    rcases List.mem_append.mp mem with earlier | last
    · exact resolved.plain other earlier
    · rw [List.mem_singleton.mp last]
      exact plain
  · intro dir before nonempty
    rcases List.prefix_concat_iff.mp before with whole | earlier
    · rw [whole]
      exact noLink
    · exact resolved.noLink dir earlier nonempty

end Resolved

/-- Following components keeps to resolved paths. -/
theorem walk_resolved (tree : Tree) {path : Path} (resolved : Resolved tree path)
    (rest : List Name) :
    match walk tree path rest with
    | .done path => Resolved tree path
    | .link dir _ _ => Resolved tree dir := by
  induction rest generalizing path with
  | nil => exact resolved
  | cons name rest ih =>
      rw [walk]
      by_cases skipped : name = [] ∨ name = ['.']
      · rw [if_pos skipped]
        exact ih resolved
      · rw [if_neg skipped]
        rw [not_or] at skipped
        by_cases parent : name = ['.', '.']
        · rw [if_pos parent]
          exact ih (resolved.of_prefix (List.dropLast_prefix path))
        · rw [if_neg parent]
          cases isLink : tree.link (path ++ [name]) with
          | none => exact ih (resolved.append ⟨skipped.1, skipped.2, parent⟩ isLink)
          | some text => exact resolved

theorem realpath_resolved (tree : Tree) {links : ℕ} {path found : Path} {rest : List Name}
    (resolved : Resolved tree path) (isFound : realpath tree links path rest = some found) :
    Resolved tree found := by
  induction links generalizing path rest with
  | zero =>
      have walked := walk_resolved tree resolved rest
      rw [realpath] at isFound
      cases ends : walk tree path rest with
      | done last =>
          rw [ends] at isFound walked
          cases isFound
          exact walked
      | link dir text more =>
          rw [ends] at isFound
          cases isFound
  | succ links ih =>
      have walked := walk_resolved tree resolved rest
      rw [realpath] at isFound
      cases ends : walk tree path rest with
      | done last =>
          rw [ends] at isFound walked
          cases isFound
          exact walked
      | link dir text more =>
          rw [ends] at isFound walked
          dsimp only at isFound walked
          refine ih ?_ isFound
          split_ifs
          · exact .nil
          · exact walked

/-- What a path resolves to is resolved. -/
theorem resolve_resolved {tree : Tree} {path found : Path}
    (isFound : resolve tree path = some found) : Resolved tree found :=
  realpath_resolved tree .nil isFound

theorem walk_of_resolved {tree : Tree} {path : Path} {rest : List Name}
    (resolved : Resolved tree (path ++ rest)) : walk tree path rest = .done (path ++ rest) := by
  induction rest generalizing path with
  | nil => rw [walk, List.append_nil]
  | cons name rest ih =>
      have plain := resolved.plain name (by simp)
      have whole : path ++ name :: rest = path ++ [name] ++ rest := by simp
      have noLink : tree.link (path ++ [name]) = none :=
        resolved.noLink _ ⟨rest, whole.symm⟩ (by simp)
      rw [walk, if_neg (by simp [plain.nonempty, plain.notCurrent]), if_neg plain.notParent,
        noLink]
      rw [whole] at resolved ⊢
      exact ih resolved

/-- A resolved path resolves to itself. -/
theorem resolve_of_resolved {tree : Tree} {path : Path} (resolved : Resolved tree path) :
    resolve tree path = some path := by
  have walked : walk tree [] path = .done path := walk_of_resolved resolved
  rw [resolve, realpath.eq_def]
  dsimp only
  rw [walked]

end Paths
