import Asmb8Ikvm.Iso.Document
import Asmb8Ikvm.Iso.Prepare

/-!
# The disks an answer file names

What the guards of the role leave of the answer files. The installer reads the disks
from the table `disk-setup`: from the list of names or from the filter on properties.
A file that passes has exactly one of the two, and in it no wildcard, no placeholder and
nothing blank.
-/

namespace Asmb8Ikvm.Iso

open PyText Toml

section Statements

/-- A text that may stand for one particular disk. -/
structure Concrete (text : Text) : Prop where
  notBlank : strip text ≠ []
  noPlaceholder : ∀ word ∈ ["first", "any", "all", "auto", "default"],
    strip (lower text) ≠ word.toList
  noWildcard : '*' ∉ text ∧ '?' ∉ text

/-- The entries of a table of the document. -/
def entriesOf (name : String) (doc : List Table) : List (Path × Value) :=
  (doc.lookup name.toList).getD []

/-- The entries under a key, the key as a table of its own included. -/
def under (key : String) (entries : List (Path × Value)) : List (Path × Value) :=
  entries.filter fun entry => entry.1.head? = some key.toList

/-- The disks are named by a list of concrete names, none of them a path. -/
def ByList (entries : List (Path × Value)) : Prop :=
  ∃ disks, under "disk-list" entries = [(["disk-list".toList], .strings disks)] ∧ disks ≠ [] ∧
    ∀ disk ∈ disks, Concrete disk ∧ disk.head? ≠ some '/'

/-- The disks are named by properties with concrete values. -/
def ByFilter (entries : List (Path × Value)) : Prop :=
  under "filter" entries ≠ [] ∧
    ∀ entry ∈ under "filter" entries, ∃ text, entry.2 = .string text ∧ Concrete text

/-- The disks are named in one way only. -/
def NamesDisks (entries : List (Path × Value)) : Prop :=
  ByList entries ∧ under "filter" entries = [] ∨ ByFilter entries ∧ under "disk-list" entries = []

/-- The password of root is given in one form only. -/
def OnePassword (entries : List (Path × Value)) : Prop :=
  ∃ form text, form ∈ ["root-password", "root-password-hashed"] ∧ text ≠ [] ∧
    under "root-password" entries ++ under "root-password-hashed" entries =
      [([form.toList], .string text)]

end Statements

section Entries

variable {a : Answer}

theorem under_append (key : String) (entries others : List (Path × Value)) :
    under key (entries ++ others) = under key entries ++ under key others :=
  List.filter_append ..

theorem under_single (key name : String) (value : Value) :
    under key [([name.toList], value)] = if name = key then [([name.toList], value)] else [] := by
  unfold under
  by_cases same : name = key
  · simp [same]
  · simp [same, String.toList_inj]

theorem under_nil (key : String) : under key [] = [] :=
  rfl

theorem under_ite (key : String) (condition : Prop) [Decidable condition]
    (entries others : List (Path × Value)) :
    under key (if condition then entries else others) =
      if condition then under key entries else under key others :=
  apply_ite ..

theorem under_optionEntries (key table : String) (pairs : List (List Char × Scalar)) :
    under key (optionEntries table pairs) =
      if table = key then optionEntries table pairs else [] := by
  unfold under optionEntries
  split_ifs with same
  · refine List.filter_eq_self.mpr ?_
    intro entry mem
    rcases List.mem_map.mp mem with ⟨pair, -, rfl⟩
    simp [same]
  · refine List.filter_eq_nil_iff.mpr ?_
    intro entry mem
    rcases List.mem_map.mp mem with ⟨pair, -, rfl⟩
    simp [same, String.toList_inj]

theorem under_fileSystemOptions (key : String) (other : key ∉ ["zfs", "lvm", "btrfs", ""]) :
    under key (optionEntries (fileSystemOptions a).1 (fileSystemOptions a).2) = [] := by
  rw [under_optionEntries, if_neg]
  intro same
  rw [← same] at other
  exact other (fileSystemOptions_fst a)

theorem under_diskList (a : Answer) : under "disk-list" (diskEntries a) =
    if a.diskList.truthy then
      [(["disk-list".toList], .strings (a.diskList.elements.map Scalar.string))]
    else [] := by
  have options := under_fileSystemOptions (a := a) "disk-list" (by decide)
  simp only [diskEntries, targetEntries, stringEntry, under_append, under_ite, under_single,
    under_nil, under_optionEntries "disk-list" "filter", options, String.reduceEq, reduceIte,
    ite_self, List.append_nil, List.nil_append]

theorem under_diskFilter (a : Answer) : under "filter" (diskEntries a) =
    if a.diskFilter.truthy then optionEntries "filter" (printed a.diskFilter.pairs) else [] := by
  have options := under_fileSystemOptions (a := a) "filter" (by decide)
  simp only [diskEntries, targetEntries, stringEntry, under_append, under_ite, under_single,
    under_nil, under_optionEntries "filter" "filter", options, String.reduceEq, reduceIte,
    ite_self, List.append_nil, List.nil_append]

theorem under_cons_single (key name : String) (value : Value) (entries : List (Path × Value)) :
    under key (([name.toList], value) :: entries) =
      (if name = key then [([name.toList], value)] else []) ++ under key entries := by
  rw [← under_single, ← under_append]
  rfl

/-- The two forms of the password in the global table. -/
theorem under_rootPassword (a : Answer) :
    under "root-password" (globalEntries a) ++ under "root-password-hashed" (globalEntries a) =
      if a.rootPasswordHashed.truthy then [stringEntry "root-password-hashed" a.rootPasswordHashed]
      else if a.rootPassword.truthy then [stringEntry "root-password" a.rootPassword]
      else [] := by
  simp only [globalEntries, stringEntry, under_append, under_ite, under_cons_single,
    under_nil, String.reduceEq, reduceIte, ite_self, List.append_nil, List.nil_append]
  split_ifs <;> rfl

end Entries

section Guards

variable {vars : Vars}

theorem concrete_of_isConcrete {tokens : List String} {marks : List Char} {value : Scalar}
    (placeholders : ∀ word ∈ ["first", "any", "all", "auto", "default"], word ∈ tokens)
    (wildcards : '*' ∈ marks ∧ '?' ∈ marks) (passes : isConcrete tokens marks value = true) :
    value.isString = true ∧ Concrete value.string := by
  simp only [isConcrete, Bool.and_eq_true, Bool.not_eq_true', bne_iff_ne, List.any_eq_false,
    beq_iff_eq, decide_eq_true_eq] at passes
  rcases passes with ⟨⟨⟨isString, notBlank⟩, noToken⟩, noMark⟩
  refine ⟨isString, notBlank, ?_, ?_, ?_⟩
  · intro word mem same
    exact noToken word (placeholders word mem) same.symm
  · exact fun mem => noMark '*' mem wildcards.1
  · exact fun mem => noMark '?' mem wildcards.2

theorem concrete_of_concreteDisk {disk : Scalar} (passes : concreteDisk disk = true) :
    Concrete disk.string ∧ disk.string.head? ≠ some '/' := by
  simp only [concreteDisk, Bool.and_eq_true, bne_iff_ne] at passes
  exact ⟨(concrete_of_isConcrete (by decide) (by decide) passes.1).2, passes.2⟩

theorem concrete_of_concreteProperty {value : Scalar} (passes : concreteProperty value = true) :
    value.value = .string value.string ∧ Concrete value.string := by
  rcases concrete_of_isConcrete (by decide) (by decide) passes with ⟨isString, concrete⟩
  refine ⟨?_, concrete⟩
  cases value with
  | text value => rfl
  | none => cases isString
  | bool value => cases isString
  | int value => cases isString

theorem text_of_length {value : Scalar} {n : ℕ} (length : value.length = some n) :
    ∃ text, value = .text text ∧ text.length = n := by
  cases value with
  | text value => exact ⟨value, rfl, Option.some.inj length⟩
  | none => cases length
  | bool value => cases length
  | int value => cases length

theorem Scalar.truthy_of_length {value : Scalar} {n : ℕ} (length : value.length = some n) :
    value.truthy = (n != 0) := by
  rcases text_of_length length with ⟨text, rfl, rfl⟩
  cases text <;> rfl

theorem Variable.length_elements {value : Variable} {n : ℕ} (length : value.length = some n) :
    value.elements.length = n := by
  cases value with
  | scalar value =>
      rcases text_of_length length with ⟨text, rfl, rfl⟩
      exact List.length_map _
  | list values => exact Option.some.inj length
  | mapping dict => exact Option.some.inj length

theorem Variable.truthy_of_length {value : Variable} {n : ℕ} (length : value.length = some n) :
    value.truthy = (n != 0) := by
  have counted : (value.elements != []) = (n != 0) := by
    rw [← Variable.length_elements length]
    cases value.elements <;> rfl
  cases value with
  | scalar value => exact Scalar.truthy_of_length length
  | list values => exact counted
  | mapping dict => exact counted

theorem exactlyOne_iff {first second : Option ℕ} : exactlyOne first second = true ↔
    ∃ m n, first = some m ∧ second = some n ∧ (m ≠ 0 ∧ n = 0 ∨ m = 0 ∧ n ≠ 0) := by
  rcases first with _ | m <;> rcases second with _ | n
  · simp [exactlyOne]
  · simp [exactlyOne]
  · simp [exactlyOne]
  · cases m <;> cases n <;> simp [exactlyOne]

theorem byList {n : ℕ} (guards : ∀ guard ∈ answerGuards, guard.holds vars = true)
    (length : vars.answer.diskList.length = some n) (listed : n ≠ 0) :
    ByList (diskEntries vars.answer) := by
  have passes := guards .diskList (by decide)
  simp only [Guard.holds, Bool.or_eq_true, beq_iff_eq, length, Option.some.injEq, listed, false_or,
    Option.isSome_some, Bool.true_and, List.all_eq_true] at passes
  have truthy : vars.answer.diskList.truthy = true := by
    rw [Variable.truthy_of_length length]
    exact bne_iff_ne.mpr listed
  refine ⟨_, by rw [under_diskList, if_pos truthy], ?_, ?_⟩
  · rw [Ne, List.map_eq_nil_iff]
    refine List.ne_nil_of_length_pos ?_
    rw [Variable.length_elements length]
    exact Nat.pos_of_ne_zero listed
  · intro disk mem
    rcases List.mem_map.mp mem with ⟨element, memElement, rfl⟩
    exact concrete_of_concreteDisk (passes element memElement)

theorem elements_of_isMapping {filter : Variable} (isMapping : filter.isMapping = true) :
    filter.elements = filter.pairs.map Prod.fst := by
  cases filter with
  | mapping dict => rfl
  | scalar value => cases isMapping
  | list values => cases isMapping

theorem byFilter {n : ℕ} (guards : ∀ guard ∈ answerGuards, guard.holds vars = true)
    (length : vars.answer.diskFilter.length = some n) (filtered : n ≠ 0) :
    ByFilter (diskEntries vars.answer) := by
  have passes := guards .diskFilter (by decide)
  simp only [Guard.holds, Bool.or_eq_true, beq_iff_eq, length, Option.some.injEq, filtered,
    false_or, Bool.and_eq_true, List.all_eq_true] at passes
  rcases passes with ⟨⟨isMapping, -⟩, concrete⟩
  have truthy : vars.answer.diskFilter.truthy = true := by
    rw [Variable.truthy_of_length length]
    exact bne_iff_ne.mpr filtered
  have entries := under_diskFilter vars.answer
  rw [if_pos truthy] at entries
  refine ⟨?_, ?_⟩
  · rw [entries, optionEntries, printed, List.map_map, Ne, List.map_eq_nil_iff]
    refine List.ne_nil_of_length_pos ?_
    have counted := Variable.length_elements length
    rw [elements_of_isMapping isMapping, List.length_map] at counted
    rw [counted]
    exact Nat.pos_of_ne_zero filtered
  · intro entry mem
    rw [entries, optionEntries, printed, List.map_map] at mem
    rcases List.mem_map.mp mem with ⟨pair, memPair, rfl⟩
    exact ⟨_, concrete_of_concreteProperty (concrete pair memPair)⟩

/-- What passes the guards names its disks in one way, and every name is a concrete one. -/
theorem namesDisks (guards : ∀ guard ∈ answerGuards, guard.holds vars = true) :
    NamesDisks (diskEntries vars.answer) := by
  rcases exactlyOne_iff.mp (guards .oneMechanism (by decide)) with
    ⟨list, filter, isList, isFilter, ⟨listed, unfiltered⟩ | ⟨unlisted, filtered⟩⟩
  · refine .inl ⟨byList guards isList listed, ?_⟩
    rw [under_diskFilter, Variable.truthy_of_length isFilter, unfiltered]
    rfl
  · refine .inr ⟨byFilter guards isFilter filtered, ?_⟩
    rw [under_diskList, Variable.truthy_of_length isList, unlisted]
    rfl

theorem onePassword (guards : ∀ guard ∈ answerGuards, guard.holds vars = true) :
    OnePassword (globalEntries vars.answer) := by
  rcases exactlyOne_iff.mp (guards .onePassword (by decide)) with
    ⟨plain, hashed, isPlain, isHashed, choice⟩
  have forms := under_rootPassword vars.answer
  rw [Scalar.truthy_of_length isPlain, Scalar.truthy_of_length isHashed] at forms
  rcases text_of_length isPlain with ⟨password, isPassword, plainLength⟩
  rcases text_of_length isHashed with ⟨hash, isHash, hashLength⟩
  rcases choice with ⟨given, unhashed⟩ | ⟨unplain, given⟩
  · refine ⟨"root-password", password, by simp, ?_, ?_⟩
    · rintro rfl
      exact given plainLength.symm
    · rw [forms, unhashed, if_neg (by simp), if_pos (bne_iff_ne.mpr given), isPassword]
      rfl
  · refine ⟨"root-password-hashed", hash, by simp, ?_, ?_⟩
    · rintro rfl
      exact given hashLength.symm
    · rw [forms, if_pos (bne_iff_ne.mpr given), isHash]
      rfl

end Guards

end Asmb8Ikvm.Iso
