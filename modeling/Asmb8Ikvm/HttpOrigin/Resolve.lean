import Asmb8Ikvm.Lib.Paths
import Asmb8Ikvm.Lib.Percent

/-!
# Serving a tree

`resolve_within_root` of `http_origin.py`, which turns the target of a request
into a path, and the targets the self-test of the daemon asks for. What is served
lies in the root; every file that is reached without links is served under the
target of the self-test.
-/

namespace Asmb8Ikvm.HttpOrigin

open Paths Percent

/-- `path.parents`. -/
def parents (path : Path) : List Path :=
  path.inits.dropLast

/-- The part of a target before its query and fragment. -/
def pathPart (rawTarget : List Char) : List Char :=
  (rawTarget.takeWhile (· ≠ '?')).takeWhile (· ≠ '#')

def resolveWithinRoot (tree : Tree) (root : Path) (rawTarget : List Char) : Option Path :=
  match unquote (pathPart rawTarget) with
  | none => none
  | some decoded =>
      if '\x00' ∈ decoded then none
      else
        let segments := (decoded.splitOn '/').filter fun segment =>
          segment ≠ [] ∧ segment ≠ ['.']
        if ['.', '.'] ∈ segments then none
        else
          match resolve tree (root ++ segments) with
          | none => none
          | some resolved =>
              if resolved ≠ root ∧ root ∉ parents resolved then none else some resolved

/-- The target `_run_self_test` asks for, of a file with these components under the root. -/
def selfTestTarget (relParts : List Name) : List Char :=
  '/' :: ['/'].intercalate (relParts.map quote)

/-- A path part that must not be served: it is no UTF-8, or it has a NUL or a `..` in it. -/
def Refused (part : List Char) : Prop :=
  match unquote part with
  | none => True
  | some decoded => '\x00' ∈ decoded ∨ ['.', '.'] ∈ decoded.splitOn '/'

theorem prefix_of_mem_parents {dir path : Path} (mem : dir ∈ parents path) : dir <+: path :=
  (List.mem_inits dir path).mp (List.mem_of_mem_dropLast mem)

theorem mem_parents {dir path : Path} (before : dir <+: path) (different : dir ≠ path) :
    dir ∈ parents path := by
  rcases List.eq_nil_or_concat path with rfl | ⟨front, last, rfl⟩
  · exact absurd (List.prefix_nil.mp before) different
  · rw [List.concat_eq_append] at before different ⊢
    have inits : (front ++ [last]).inits = front.inits ++ [front ++ [last]] := by
      simp [List.inits_append]
    rw [parents, inits, List.dropLast_concat, List.mem_inits]
    exact (List.prefix_concat_iff.mp before).resolve_left different

theorem resolveWithinRoot_refused (tree : Tree) (root : Path) {rawTarget : List Char}
    (refused : Refused (pathPart rawTarget)) : resolveWithinRoot tree root rawTarget = none := by
  unfold Refused at refused
  unfold resolveWithinRoot
  cases decoding : unquote (pathPart rawTarget) with
  | none => rfl
  | some decoded =>
      rw [decoding] at refused
      dsimp only at refused ⊢
      by_cases nul : '\x00' ∈ decoded
      · rw [if_pos nul]
      · rw [if_neg nul, if_pos]
        rw [List.mem_filter]
        exact ⟨refused.resolve_left nul, by decide⟩

theorem resolveWithinRoot_found {tree : Tree} {root found : Path} {rawTarget : List Char}
    (isFound : resolveWithinRoot tree root rawTarget = some found) :
    Resolved tree found ∧ root <+: found := by
  unfold resolveWithinRoot at isFound
  split at isFound
  · cases isFound
  · dsimp only at isFound
    split_ifs at isFound
    split at isFound
    · cases isFound
    · next resolved isResolved =>
        split_ifs at isFound with outside
        cases isFound
        refine ⟨resolve_resolved isResolved, ?_⟩
        rw [not_and_or, not_not, not_not] at outside
        rcases outside with rfl | below
        · exact List.prefix_refl _
        · exact prefix_of_mem_parents below

/-- The target is the quotation of the path. -/
theorem selfTestTarget_eq (relParts : List Name) :
    selfTestTarget relParts = quote ('/' :: ['/'].intercalate relParts) := by
  have slash : quote ['/'] = ['/'] := by
    decide
  have joined : ['/'].intercalate (relParts.map quote) = quote (['/'].intercalate relParts) := by
    induction relParts with
    | nil => rfl
    | cons first others ih =>
        cases others with
        | nil => simp
        | cons second others =>
            rw [List.map_cons] at ih ⊢
            rw [List.map_cons, List.intercalate_cons_cons, List.intercalate_cons_cons,
              quote_append, quote_append, slash, ← ih]
  have start := quote_append ['/'] (['/'].intercalate relParts)
  rw [slash, ← joined] at start
  exact start.symm

/-- No query or fragment is cut off, and decoding gives the path back. -/
theorem unquote_selfTestTarget (relParts : List Name) :
    unquote (pathPart (selfTestTarget relParts)) = some ('/' :: ['/'].intercalate relParts) := by
  rw [selfTestTarget_eq]
  generalize '/' :: ['/'].intercalate relParts = path
  have quoted (c : Char) (mem : c ∈ quote path) : c ≠ '?' ∧ c ≠ '#' := by
    have isQuoted := quote_chars mem
    simp only [Percent.isQuoted, Bool.and_eq_true, bne_iff_ne] at isQuoted
    exact ⟨isQuoted.1.2, isQuoted.2⟩
  have whole : pathPart (quote path) = quote path := by
    have noQuery : (quote path).takeWhile (· ≠ '?') = quote path :=
      List.takeWhile_eq_self_iff.mpr fun c mem => by simp [(quoted c mem).1]
    have noFragment : (quote path).takeWhile (· ≠ '#') = quote path :=
      List.takeWhile_eq_self_iff.mpr fun c mem => by simp [(quoted c mem).2]
    rw [pathPart, noQuery, noFragment]
  rw [whole, unquote_quote]

theorem segments_selfTestTarget {relParts : List Name} (nonempty : relParts ≠ [])
    (proper : ∀ name ∈ relParts, Proper name) :
    (('/' :: ['/'].intercalate relParts).splitOn '/').filter
      (fun segment => segment ≠ [] ∧ segment ≠ ['.']) = relParts := by
  have split : ('/' :: ['/'].intercalate relParts).splitOn '/' = [] :: relParts := by
    have front := List.splitOn_append_cons_self_of_not_mem (List.not_mem_nil (a := '/'))
      (['/'].intercalate relParts)
    rw [List.nil_append] at front
    rw [front, List.splitOn_intercalate '/' (fun name mem => (proper name mem).noSlash) nonempty]
  rw [split, List.filter_cons_of_neg (by simp), List.filter_eq_self]
  intro name mem
  have plain := (proper name mem).toPlain
  simp [plain.nonempty, plain.notCurrent]

theorem notMem_intercalate {c : Char} {relParts : List Name} (different : c ≠ '/')
    (absent : ∀ name ∈ relParts, c ∉ name) : c ∉ ['/'].intercalate relParts := by
  induction relParts with
  | nil => simp
  | cons first others ih =>
      cases others with
      | nil => simpa using absent
      | cons second others =>
          rw [List.intercalate_cons_cons]
          have rest := ih fun name mem => absent name (List.mem_cons_of_mem _ mem)
          have start := absent first List.mem_cons_self
          simp [start, different, rest]

/-- A file that is reached without links is found under the target of the self-test. -/
theorem resolveWithinRoot_file {tree : Tree} {root : Path} {relParts : List Name}
    (nonempty : relParts ≠ []) (proper : ∀ name ∈ relParts, Proper name)
    (resolved : Resolved tree (root ++ relParts)) :
    resolveWithinRoot tree root (selfTestTarget relParts) = some (root ++ relParts) := by
  have noNul : '\x00' ∉ '/' :: ['/'].intercalate relParts := by
    have rest := notMem_intercalate (by decide) fun name mem => (proper name mem).noNul
    simp [rest]
  have noParent : ['.', '.'] ∉ relParts := fun mem => (proper _ mem).notParent rfl
  have below : root ∈ parents (root ++ relParts) :=
    mem_parents (List.prefix_append ..) (by simpa using nonempty)
  unfold resolveWithinRoot
  rw [unquote_selfTestTarget]
  dsimp only
  rw [if_neg noNul, segments_selfTestTarget nonempty proper, if_neg noParent,
    resolve_of_resolved resolved]
  dsimp only
  rw [if_neg fun outside => outside.2 below]

/-- A request is refused or answered from within the root; what must not be served is refused;
every file under the root that is reached without links is served under the target of the
self-test, and no two files share a target. -/
theorem resolveWithinRoot_serves (tree : Tree) (root : Path) (isRoot : Resolved tree root) :
    (∀ rawTarget found, resolveWithinRoot tree root rawTarget = some found →
      Resolved tree found ∧ root <+: found) ∧
    (∀ rawTarget, Refused (pathPart rawTarget) → resolveWithinRoot tree root rawTarget = none) ∧
    (∀ relParts, relParts ≠ [] → tree.isFile (root ++ relParts) = true →
      (∀ dir, dir <+: relParts → dir ≠ [] → tree.link (root ++ dir) = none) →
      resolveWithinRoot tree root (selfTestTarget relParts) = some (root ++ relParts)) ∧
    ∀ relParts others, relParts ≠ [] → others ≠ [] → tree.isFile (root ++ relParts) = true →
      tree.isFile (root ++ others) = true →
      (∀ dir, dir <+: relParts → dir ≠ [] → tree.link (root ++ dir) = none) →
      (∀ dir, dir <+: others → dir ≠ [] → tree.link (root ++ dir) = none) →
      selfTestTarget relParts = selfTestTarget others → relParts = others := by
  have served : ∀ relParts, relParts ≠ [] → tree.isFile (root ++ relParts) = true →
      (∀ dir, dir <+: relParts → dir ≠ [] → tree.link (root ++ dir) = none) →
      resolveWithinRoot tree root (selfTestTarget relParts) = some (root ++ relParts) := by
    intro relParts nonempty isFile noLink
    have proper : ∀ name ∈ relParts, Proper name := fun name mem =>
      tree.proper _ isFile name (List.mem_append_right root mem)
    refine resolveWithinRoot_file nonempty proper ⟨?_, ?_⟩
    · intro name mem
      rcases List.mem_append.mp mem with inRoot | below
      · exact isRoot.plain name inRoot
      · exact (proper name below).toPlain
    · intro dir before dirNonempty
      rcases List.prefix_or_prefix_of_prefix before (List.prefix_append root relParts) with
        inRoot | ⟨rest, rfl⟩
      · exact isRoot.noLink dir inRoot dirNonempty
      · cases rest with
        | nil =>
            rw [List.append_nil] at dirNonempty ⊢
            exact isRoot.noLink root (List.prefix_refl _) dirNonempty
        | cons name rest =>
            exact noLink _ ((List.prefix_append_right_inj root).mp before) (List.cons_ne_nil _ _)
  refine ⟨fun rawTarget found isFound => resolveWithinRoot_found isFound,
    fun rawTarget refused => resolveWithinRoot_refused tree root refused, served, ?_⟩
  intro relParts others nonempty othersNonempty isFile isOther noLink noOtherLink same
  have first := served relParts nonempty isFile noLink
  rw [same, served others othersNonempty isOther noOtherLink] at first
  exact (List.append_cancel_left (Option.some.inj first)).symm

/-- `/srv` with a file whose name has all that a target could trip over. -/
def oddTree : Tree where
  link path := if path = ["srv".toList, "up".toList] then some "..".toList else none
  isFile path := path = ["srv".toList, "%2e%2e?#a b".toList]
  maxLinks := 40
  proper path isFile name mem := by
    rw [decide_eq_true_eq] at isFile
    subst isFile
    rcases List.mem_pair.mp mem with rfl | rfl
    · exact ⟨⟨by decide, by decide, by decide⟩, by decide, by decide⟩
    · exact ⟨⟨by decide, by decide, by decide⟩, by decide, by decide⟩

theorem oddTree_root : Resolved oddTree ["srv".toList] := by
  refine ⟨?_, ?_⟩
  · intro name mem
    rw [List.mem_singleton.mp mem]
    exact ⟨by decide, by decide, by decide⟩
  · intro dir before nonempty
    have bounded := before.length_le
    have short : dir ≠ ["srv".toList, "up".toList] := by
      rintro rfl
      exact absurd bounded (by decide)
    exact if_neg short

theorem resolveWithinRoot_odd_name :
    resolveWithinRoot oddTree ["srv".toList] "/%252e%252e%3F%23a%20b".toList =
      some ["srv".toList, "%2e%2e?#a b".toList] := by
  have target : selfTestTarget ["%2e%2e?#a b".toList] = "/%252e%252e%3F%23a%20b".toList := by
    decide +kernel
  rw [← target]
  refine (resolveWithinRoot_serves oddTree _ oddTree_root).2.2.1 _ (by decide) (by decide) ?_
  intro dir before nonempty
  have single : dir = ["%2e%2e?#a b".toList] := by
    rcases List.prefix_concat_iff.mp (List.nil_append ["%2e%2e?#a b".toList] ▸ before) with
      whole | empty
    · exact whole
    · exact absurd (List.prefix_nil.mp empty) nonempty
  rw [single]
  decide

end Asmb8Ikvm.HttpOrigin
