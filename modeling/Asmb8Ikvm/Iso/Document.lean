import Asmb8Ikvm.Iso.Answer
import Asmb8Ikvm.Lib.Toml

/-!
# What the installer reads

`document` is what the answer file is to say. The installer reads it as TOML, and no
string of a variable can change what it says: the file is read as the document, or not
at all. The latter happens when the template fails on the shape of a variable, when a
string holds a line break or another control character, and when two keys become one, as
`arc_max` and `arc-max` do. The template copies the keys of a mapping as they are, so
they have to be bare.
-/

namespace Asmb8Ikvm.Iso

open Toml

section Document

def Scalar.value : Scalar → Value
  | .bool value => .bool value
  | .int value => .int value
  | value => .string value.string

def stringEntry (key : String) (value : Scalar) : Path × Value :=
  ([key.toList], .string value.string)

def optionEntries (table : String) (pairs : List (List Char × Scalar)) : List (Path × Value) :=
  pairs.map fun pair => ([table.toList, pair.1], pair.2.value)

def globalEntries (a : Answer) : List (Path × Value) :=
  [stringEntry "keyboard" a.keyboard, stringEntry "country" a.country,
    stringEntry "fqdn" a.fqdn] ++
  (if a.mailto.truthy then [stringEntry "mailto" a.mailto] else []) ++
  [stringEntry "timezone" a.timezone] ++
  (if a.rootPasswordHashed.truthy then [stringEntry "root-password-hashed" a.rootPasswordHashed]
  else if a.rootPassword.truthy then [stringEntry "root-password" a.rootPassword]
  else []) ++
  [(["reboot-on-error".toList], a.rebootOnError.value), stringEntry "reboot-mode" a.rebootMode]

def networkEntries (a : Answer) : List (Path × Value) :=
  [stringEntry "source" a.networkSource] ++
  (if a.networkSource = .text "from-answer".toList then
    [stringEntry "cidr" a.networkCidr, stringEntry "dns" a.networkDns,
      stringEntry "gateway" a.networkGateway]
  else []) ++
  (if a.networkFilter.truthy then optionEntries "filter" (printed a.networkFilter.pairs) else [])

/-- The options of the chosen file system, with the table they belong to. -/
def fileSystemOptions (a : Answer) : String × List (List Char × Scalar) :=
  if a.diskFilesystem = .text "zfs".toList then ("zfs", kebabed a.diskZfs.pairs)
  else if a.diskFilesystem = .text "ext4".toList ∨ a.diskFilesystem = .text "xfs".toList then
    ("lvm", kebabed a.diskLvm.pairs)
  else if a.diskFilesystem = .text "btrfs".toList then ("btrfs", kebabed a.diskBtrfs.pairs)
  else ("", [])

/-- The file system and the disks it goes to. -/
def targetEntries (a : Answer) : List (Path × Value) :=
  [stringEntry "filesystem" a.diskFilesystem] ++
  (if a.diskList.truthy then
    [(["disk-list".toList], .strings (a.diskList.elements.map Scalar.string))]
  else []) ++
  (if a.diskFilter.truthy then
    optionEntries "filter" (printed a.diskFilter.pairs) ++
      [stringEntry "filter-match" a.diskFilterMatch]
  else [])

def diskEntries (a : Answer) : List (Path × Value) :=
  targetEntries a ++ optionEntries (fileSystemOptions a).1 (fileSystemOptions a).2

/-- What the answer file says. -/
def document (a : Answer) : List Table :=
  [("global".toList, globalEntries a), ("network".toList, networkEntries a),
    ("disk-setup".toList, diskEntries a)]

def tableLines (table : Table) : List Line :=
  .table table.1 :: table.2.map fun entry => .entry entry.1 entry.2

def answerLines (a : Answer) : List Line :=
  tableLines ("global".toList, globalEntries a) ++ [.blank] ++
  tableLines ("network".toList, networkEntries a) ++
  tableLines ("disk-setup".toList, diskEntries a)

/-- The keys the template copies need no quotation marks; it does not check them. -/
structure BareKeys (a : Answer) : Prop where
  network : ∀ pair ∈ printed a.networkFilter.pairs, BareKey pair.1
  filter : ∀ pair ∈ printed a.diskFilter.pairs, BareKey pair.1
  options : ∀ pair ∈ (fileSystemOptions a).2, BareKey pair.1

/-- What the file needs to be read. -/
structure Readable (a : Answer) : Prop where
  mappings : ∀ value ∈ itemised a, value.isMapping = true
  disks : a.diskList.truthy = true → a.diskList.length.isSome = true
  networkKeys :
    a.networkFilter.truthy = true → ((printed a.networkFilter.pairs).map Prod.fst).Nodup
  filterKeys : a.diskFilter.truthy = true → ((printed a.diskFilter.pairs).map Prod.fst).Nodup
  optionKeys : ((fileSystemOptions a).2.map Prod.fst).Nodup
  clean : ∀ table ∈ document a, ∀ entry ∈ table.2, entry.2.isClean = true

end Document

section Rendering

variable {a : Answer}

/-- The filters of the template escape a string the way TOML asks for. -/
theorem replace_replace (text : List Char) :
    replace '"' ['\\', '"'] (replace '\\' ['\\', '\\'] text) = escape text := by
  induction text with
  | nil => rfl
  | cons c text ih =>
      rw [escape_cons, ← ih, escapeChar]
      simp only [replace, List.flatMap_cons, List.flatMap_append]
      congr 1
      split_ifs with isBackslash isQuote
      · rw [isQuote] at isBackslash
        exact absurd isBackslash (by decide)
      · rfl
      · simp_all
      · simp_all

theorem tomlStr_eq (value : Scalar) : tomlStr value = (Value.string value.string).write := by
  rw [tomlStr, replace_replace]
  rfl

theorem tomlScalar_eq (value : Scalar) : tomlScalar value = value.value.write := by
  cases value with
  | none => exact tomlStr_eq _
  | bool value => cases value <;> rfl
  | int value => rfl
  | text value => exact tomlStr_eq _

theorem diskLoop_eq (disks : List Scalar) :
    diskLoop disks ++ [']'] = writeStrings (disks.map Scalar.string) := by
  fun_induction diskLoop disks with
  | case1 => rfl
  | case2 disk => rw [tomlStr_eq]; rfl
  | case3 disk others nonempty ih =>
      rcases others with _ | ⟨other, others⟩
      · exact absurd rfl nonempty
      · rw [List.append_assoc, ih, tomlStr_eq]
        simp [writeStrings, Value.write]

theorem assignment_eq (key : List Char) (value : Value) :
    assignment key value.write = (Line.entry [key] value).write := by
  simp [assignment, Line.write]

theorem assignment_dotted (table key : List Char) (value : Value) :
    assignment (table ++ '.' :: key) value.write = (Line.entry [table, key] value).write := by
  simp [assignment, Line.write]

/-- The entries of a table as they are written. -/
def writeEntries (entries : List (Path × Value)) : List Char :=
  entries.flatMap fun entry => (Line.entry entry.1 entry.2).write

theorem writeEntries_append (entries others : List (Path × Value)) :
    writeEntries (entries ++ others) = writeEntries entries ++ writeEntries others :=
  List.flatMap_append

theorem writeEntries_stringEntry (key : String) (value : Scalar) :
    writeEntries [stringEntry key value] = assignment key.toList (tomlStr value) := by
  rw [tomlStr_eq, assignment_eq]
  simp [writeEntries, stringEntry]

theorem optionLoop_eq (table : String) (intro : List Char)
    (same : intro = table.toList ++ ['.']) (pairs : List (List Char × Scalar)) :
    optionLoop intro pairs = writeEntries (optionEntries table pairs) := by
  rw [writeEntries, optionEntries, List.flatMap_map, optionLoop]
  congr 1
  funext pair
  rw [tomlScalar_eq, same, List.append_assoc, List.singleton_append, assignment_dotted]

theorem writeEntries_ite (condition : Prop) [Decidable condition]
    (entries others : List (Path × Value)) :
    writeEntries (if condition then entries else others) =
      if condition then writeEntries entries else writeEntries others :=
  apply_ite ..

theorem writeEntries_cons (entry : Path × Value) (entries : List (Path × Value)) :
    writeEntries (entry :: entries) = writeEntries [entry] ++ writeEntries entries := by
  simp [writeEntries]

theorem writeEntries_nil : writeEntries [] = [] :=
  rfl

theorem write_tableLines (name : Key) (entries : List (Path × Value)) :
    (tableLines (name, entries)).flatMap Line.write =
      '[' :: name ++ [']', '\n'] ++ writeEntries entries := by
  simp [tableLines, writeEntries, Line.write, List.flatMap_map]

theorem renderGlobal_eq (a : Answer) :
    renderGlobal a =
      (tableLines ("global".toList, globalEntries a)).flatMap Line.write ++ ['\n'] := by
  have reboot : writeEntries [(["reboot-on-error".toList], a.rebootOnError.value)] =
      assignment "reboot-on-error".toList (tomlScalar a.rebootOnError) := by
    rw [tomlScalar_eq, assignment_eq]
    simp [writeEntries]
  have header : "[global]\n".toList = '[' :: "global".toList ++ [']', '\n'] := rfl
  unfold renderGlobal globalEntries
  simp only [write_tableLines, header, writeEntries_append, writeEntries_ite,
    writeEntries_cons _ (_ :: _), writeEntries_stringEntry, writeEntries_nil, reboot,
    List.append_assoc]

theorem renderNetwork_eq (a : Answer) :
    renderNetwork a = (tableLines ("network".toList, networkEntries a)).flatMap Line.write := by
  have header : "[network]\n".toList = '[' :: "network".toList ++ [']', '\n'] := rfl
  unfold renderNetwork networkEntries
  simp only [write_tableLines, header, writeEntries_append, writeEntries_ite,
    writeEntries_cons _ (_ :: _), writeEntries_stringEntry, writeEntries_nil,
    ← optionLoop_eq "filter" "filter.".toList rfl, List.append_assoc]

theorem renderDiskSetup_eq (a : Answer) :
    renderDiskSetup a = (tableLines ("disk-setup".toList, diskEntries a)).flatMap Line.write := by
  have disks : writeEntries
      [(["disk-list".toList], .strings (a.diskList.elements.map Scalar.string))] =
      assignment "disk-list".toList ('[' :: diskLoop a.diskList.elements ++ [']']) := by
    rw [List.cons_append, diskLoop_eq]
    simp [writeEntries, assignment, Line.write, Value.write]
  have options : writeEntries (optionEntries (fileSystemOptions a).1 (fileSystemOptions a).2) =
      (if a.diskFilesystem = .text "zfs".toList then
        optionLoop "zfs.".toList (kebabed a.diskZfs.pairs)
      else []) ++
      (if a.diskFilesystem = .text "ext4".toList ∨ a.diskFilesystem = .text "xfs".toList then
        optionLoop "lvm.".toList (kebabed a.diskLvm.pairs)
      else []) ++
      (if a.diskFilesystem = .text "btrfs".toList then
        optionLoop "btrfs.".toList (kebabed a.diskBtrfs.pairs)
      else []) := by
    rw [optionLoop_eq "zfs" "zfs.".toList rfl,
      optionLoop_eq "lvm" "lvm.".toList rfl, optionLoop_eq "btrfs" "btrfs.".toList rfl,
      fileSystemOptions]
    by_cases zfs : a.diskFilesystem = .text "zfs".toList
    · rw [zfs]
      simp
    by_cases lvm : a.diskFilesystem = .text "ext4".toList ∨ a.diskFilesystem = .text "xfs".toList
    · rw [if_neg zfs, if_neg zfs, if_pos lvm, if_pos lvm]
      rcases lvm with lvm | lvm <;> rw [lvm] <;> simp
    · rw [if_neg zfs, if_neg zfs, if_neg lvm, if_neg lvm]
      split_ifs
      · rfl
      · rfl
  have header : "[disk-setup]\n".toList = '[' :: "disk-setup".toList ++ [']', '\n'] := rfl
  unfold renderDiskSetup diskEntries targetEntries
  simp only [write_tableLines, header, writeEntries_append, writeEntries_ite, options, disks,
    writeEntries_stringEntry, writeEntries_nil, ← optionLoop_eq "filter" "filter.".toList rfl,
    List.append_assoc]

/-- Where the template does not fail it writes the lines of the document. -/
theorem answerToml_eq (mappings : ∀ value ∈ itemised a, value.isMapping = true)
    (disks : a.diskList.truthy = true → a.diskList.length.isSome = true) :
    answerToml a = some ((answerLines a).flatMap Line.write) := by
  rw [answerToml, if_pos ⟨List.all_eq_true.mpr mappings, disks⟩, renderGlobal_eq, renderNetwork_eq,
    renderDiskSetup_eq, answerLines]
  simp only [List.flatMap_append, List.append_assoc]
  rfl

theorem answerToml_eq_none_iff :
    answerToml a = none ↔ (∃ value ∈ itemised a, value.isMapping = false) ∨
      a.diskList.truthy = true ∧ a.diskList.length = none := by
  unfold answerToml
  split_ifs with renders
  · simp only [false_iff]
    rintro (⟨value, mem, other⟩ | ⟨some, noLength⟩)
    · exact absurd (List.all_eq_true.mp renders.1 value mem) (by simp [other])
    · exact absurd (renders.2 some) (by simp [noLength])
  · simp only [true_iff]
    rw [not_and_or, Classical.not_imp, Option.not_isSome_iff_eq_none, List.all_eq_true] at renders
    simpa using renders

end Rendering

section Reading

variable {a : Answer}

theorem gather_entries (entries : List (Path × Value)) (lines : List Line) :
    gather ((entries.map fun entry => .entry entry.1 entry.2) ++ lines) =
      (entries ++ (gather lines).1, (gather lines).2) := by
  induction entries with
  | nil => rfl
  | cons entry entries ih =>
      rw [List.map_cons, List.cons_append, gather, ih]
      rfl

theorem gather_answerLines (a : Answer) : gather (answerLines a) = ([], document a) := by
  simp only [answerLines, tableLines, document, List.cons_append, List.append_assoc,
    List.nil_append, gather, gather_entries]
  have last := gather_entries (diskEntries a) []
  rw [List.append_nil] at last
  rw [last]
  simp [gather]

theorem isClean_answerLines : (answerLines a).all Line.isClean = true ↔
    ∀ table ∈ document a, ∀ entry ∈ table.2, entry.2.isClean = true := by
  simp [answerLines, tableLines, document, Line.isClean]

theorem pairwise_optionEntries (table : String) (pairs : List (List Char × Scalar)) :
    ((optionEntries table pairs).map Prod.fst).Pairwise Apart ↔ (pairs.map Prod.fst).Nodup := by
  rw [optionEntries, List.map_map, List.pairwise_map, List.Nodup, List.pairwise_map]
  simp only [Function.comp_apply, apart_cons_self, apart_singleton]

theorem path_of_mem_optionEntries {table : String} {pairs : List (List Char × Scalar)}
    {path : Path} (mem : path ∈ (optionEntries table pairs).map Prod.fst) :
    ∃ key, path = [table.toList, key] := by
  simp only [optionEntries, List.map_map, List.mem_map, Function.comp_apply] at mem
  rcases mem with ⟨pair, -, rfl⟩
  exact ⟨pair.1, rfl⟩

theorem globalEntries_consistent (a : Answer) :
    Table.Consistent ("global".toList, globalEntries a) := by
  unfold Table.Consistent globalEntries
  split_ifs <;> simp [stringEntry, Apart]

theorem networkEntries_consistent_iff (a : Answer) :
    Table.Consistent ("network".toList, networkEntries a) ↔
      (a.networkFilter.truthy = true → ((printed a.networkFilter.pairs).map Prod.fst).Nodup) := by
  unfold Table.Consistent networkEntries
  rw [List.map_append, List.pairwise_append]
  by_cases filter : a.networkFilter.truthy = true
  · rw [if_pos filter, imp_iff_right filter, pairwise_optionEntries, ← and_assoc, and_right_comm]
    refine and_iff_right ⟨?_, ?_⟩
    · split_ifs <;> simp [stringEntry, Apart]
    · intro path mem other memOptions
      rcases path_of_mem_optionEntries memOptions with ⟨key, rfl⟩
      split_ifs at mem <;> simp [stringEntry] at mem
      · rcases mem with rfl | rfl | rfl | rfl <;> simp [Apart]
      · rw [mem]
        simp [Apart]
  · rw [if_neg filter]
    refine iff_of_true ⟨?_, List.Pairwise.nil, ?_⟩ fun some => absurd some filter
    · split_ifs <;> simp [stringEntry, Apart]
    · intro path mem other memNone
      cases memNone

theorem fileSystemOptions_fst (a : Answer) :
    (fileSystemOptions a).1 ∈ ["zfs", "lvm", "btrfs", ""] := by
  unfold fileSystemOptions
  split_ifs <;> simp

theorem path_of_mem_targetEntries {path : Path} (mem : path ∈ (targetEntries a).map Prod.fst) :
    ∃ key rest, path = key.toList :: rest ∧
      key ∈ ["filesystem", "disk-list", "filter", "filter-match"] := by
  simp only [targetEntries, List.map_append, List.mem_append] at mem
  rcases mem with (fileSystem | list) | filter
  · exact ⟨"filesystem", [], List.mem_singleton.mp fileSystem, by simp⟩
  · split_ifs at list
    · exact ⟨"disk-list", [], List.mem_singleton.mp list, by simp⟩
    · cases list
  · split_ifs at filter
    · rw [List.map_append, List.mem_append] at filter
      rcases filter with option | match'
      · rcases path_of_mem_optionEntries option with ⟨key, same⟩
        exact ⟨"filter", [key], same, by simp⟩
      · exact ⟨"filter-match", [], List.mem_singleton.mp match', by simp⟩
    · cases filter

theorem filterEntries_consistent_iff (a : Answer) :
    ((optionEntries "filter" (printed a.diskFilter.pairs) ++
      [stringEntry "filter-match" a.diskFilterMatch]).map Prod.fst).Pairwise Apart ↔
        ((printed a.diskFilter.pairs).map Prod.fst).Nodup := by
  rw [List.map_append, List.pairwise_append, pairwise_optionEntries]
  refine and_iff_left ⟨List.pairwise_singleton .., ?_⟩
  intro path mem other memMatch
  rcases path_of_mem_optionEntries mem with ⟨option, rfl⟩
  rw [List.mem_singleton.mp memMatch]
  exact apart_cons (by simp)

theorem targetEntries_consistent_iff (a : Answer) :
    ((targetEntries a).map Prod.fst).Pairwise Apart ↔
      (a.diskFilter.truthy = true → ((printed a.diskFilter.pairs).map Prod.fst).Nodup) := by
  unfold targetEntries
  rw [List.map_append, List.pairwise_append]
  by_cases filter : a.diskFilter.truthy = true
  · rw [if_pos filter, filterEntries_consistent_iff, imp_iff_right filter, ← and_assoc,
      and_right_comm]
    refine and_iff_right ⟨?_, ?_⟩
    · split_ifs <;> simp [stringEntry, Apart]
    · intro path mem other memFilter
      have fromFront : path = ["filesystem".toList] ∨ path = ["disk-list".toList] := by
        split_ifs at mem
        · simpa [stringEntry] using mem
        · exact .inl (by simpa [stringEntry] using mem)
      have fromFilter : (∃ key, other = ["filter".toList, key]) ∨
          other = ["filter-match".toList] := by
        rw [List.map_append, List.mem_append] at memFilter
        rcases memFilter with option | matching
        · exact .inl (path_of_mem_optionEntries option)
        · exact .inr (List.mem_singleton.mp matching)
      rcases fromFront with rfl | rfl <;> rcases fromFilter with ⟨key, rfl⟩ | rfl <;>
        exact apart_cons (by simp)
  · rw [if_neg filter]
    refine iff_of_true ⟨?_, List.Pairwise.nil, ?_⟩ fun some => absurd some filter
    · split_ifs <;> simp [stringEntry, Apart]
    · intro path mem other memNone
      cases memNone

/-- The paths of the disks and of the file system lead nowhere into the options. -/
theorem diskEntries_consistent_iff (a : Answer) :
    Table.Consistent ("disk-setup".toList, diskEntries a) ↔
      (a.diskFilter.truthy = true → ((printed a.diskFilter.pairs).map Prod.fst).Nodup) ∧
        ((fileSystemOptions a).2.map Prod.fst).Nodup := by
  have heads := fileSystemOptions_fst a
  simp only [List.mem_cons, List.not_mem_nil, or_false] at heads
  unfold Table.Consistent diskEntries
  rw [List.map_append, List.pairwise_append, targetEntries_consistent_iff, pairwise_optionEntries]
  refine and_congr_right fun _ => and_iff_left ?_
  intro path mem other memOptions
  rcases path_of_mem_targetEntries mem with ⟨key, rest, rfl, known⟩
  rcases path_of_mem_optionEntries memOptions with ⟨option, rfl⟩
  refine apart_cons fun same => ?_
  rw [String.toList_inj] at same
  rw [same] at known
  rcases heads with head | head | head | head <;> rw [head] at known <;> simp at known

theorem keyed_optionEntries (table : String) {pairs : List (List Char × Scalar)}
    (bareTable : BareKey table.toList) (bare : ∀ pair ∈ pairs, BareKey pair.1) :
    ∀ entry ∈ optionEntries table pairs, (Line.entry entry.1 entry.2).Keyed := by
  intro entry mem
  simp only [optionEntries, List.mem_map] at mem
  rcases mem with ⟨pair, memPair, rfl⟩
  refine ⟨List.cons_ne_nil _ _, ?_⟩
  simp only [List.forall_mem_cons]
  exact ⟨bareTable, bare pair memPair, by simp⟩

theorem keyed_stringEntry {key : String} (value : Scalar) (bare : BareKey key.toList) :
    (Line.entry (stringEntry key value).1 (stringEntry key value).2).Keyed :=
  ⟨List.cons_ne_nil _ _, List.forall_mem_singleton.mpr bare⟩

theorem keyed_globalEntries (a : Answer) :
    ∀ entry ∈ globalEntries a, (Line.entry entry.1 entry.2).Keyed := by
  have bare : ∀ name ∈ ["keyboard", "country", "fqdn", "mailto", "timezone", "reboot-mode",
      "reboot-on-error", "root-password", "root-password-hashed"], BareKey name.toList := by
    simp [BareKey, isBare]
  intro entry mem
  simp only [globalEntries, List.mem_append] at mem
  rcases mem with (((identity | mailto) | timezone) | password) | reboot
  · simp only [List.mem_cons, List.not_mem_nil, or_false] at identity
    rcases identity with rfl | rfl | rfl <;> exact keyed_stringEntry _ (bare _ (by simp))
  · split_ifs at mailto
    · rw [List.mem_singleton.mp mailto]
      exact keyed_stringEntry _ (bare _ (by simp))
    · cases mailto
  · rw [List.mem_singleton.mp timezone]
    exact keyed_stringEntry _ (bare _ (by simp))
  · split_ifs at password
    · rw [List.mem_singleton.mp password]
      exact keyed_stringEntry _ (bare _ (by simp))
    · rw [List.mem_singleton.mp password]
      exact keyed_stringEntry _ (bare _ (by simp))
    · cases password
  · simp only [List.mem_cons, List.not_mem_nil, or_false] at reboot
    rcases reboot with rfl | rfl
    · exact ⟨List.cons_ne_nil _ _, List.forall_mem_singleton.mpr (bare "reboot-on-error" (by simp))⟩
    · exact keyed_stringEntry _ (bare _ (by simp))

theorem keyed_networkEntries (bare : BareKeys a) :
    ∀ entry ∈ networkEntries a, (Line.entry entry.1 entry.2).Keyed := by
  have names : ∀ name ∈ ["source", "cidr", "dns", "gateway", "filter"], BareKey name.toList := by
    simp [BareKey, isBare]
  have options := keyed_optionEntries "filter" (names _ (by simp)) bare.network
  intro entry mem
  simp only [networkEntries, List.mem_append] at mem
  rcases mem with (source | address) | option
  · rw [List.mem_singleton.mp source]
    exact keyed_stringEntry _ (names _ (by simp))
  · split_ifs at address
    · simp only [List.mem_cons, List.not_mem_nil, or_false] at address
      rcases address with rfl | rfl | rfl <;> exact keyed_stringEntry _ (names _ (by simp))
    · cases address
  · split_ifs at option
    · exact options entry option
    · cases option

theorem keyed_targetEntries (bare : BareKeys a) :
    ∀ entry ∈ targetEntries a, (Line.entry entry.1 entry.2).Keyed := by
  have options := keyed_optionEntries "filter" (by simp [BareKey, isBare]) bare.filter
  intro entry mem
  rw [targetEntries, List.mem_append, List.mem_append] at mem
  rcases mem with (fileSystem | list) | filter
  · rw [List.mem_singleton.mp fileSystem]
    exact keyed_stringEntry _ (by simp [BareKey, isBare])
  · split_ifs at list
    · rw [List.mem_singleton.mp list]
      simp [Line.Keyed, BareKey, isBare]
    · cases list
  · split_ifs at filter
    · rw [List.mem_append] at filter
      rcases filter with option | matching
      · exact options entry option
      · rw [List.mem_singleton.mp matching]
        exact keyed_stringEntry _ (by simp [BareKey, isBare])
    · cases filter

theorem keyed_fileSystemOptions (bare : BareKeys a) :
    ∀ entry ∈ optionEntries (fileSystemOptions a).1 (fileSystemOptions a).2,
      (Line.entry entry.1 entry.2).Keyed := by
  have options := bare.options
  unfold fileSystemOptions at options ⊢
  split_ifs at options ⊢
  · exact keyed_optionEntries "zfs" (by simp [BareKey, isBare]) options
  · exact keyed_optionEntries "lvm" (by simp [BareKey, isBare]) options
  · exact keyed_optionEntries "btrfs" (by simp [BareKey, isBare]) options
  · intro entry mem
    cases mem

theorem keyed_answerLines (bare : BareKeys a) : ∀ line ∈ answerLines a, line.Keyed := by
  have tableKeyed : ∀ (name : String) (entries : List (Path × Value)), BareKey name.toList →
      (∀ entry ∈ entries, (Line.entry entry.1 entry.2).Keyed) →
      ∀ line ∈ tableLines (name.toList, entries), line.Keyed := by
    intro name entries bareName keyed line mem
    rcases List.mem_cons.mp mem with rfl | mem
    · exact bareName
    · rcases List.mem_map.mp mem with ⟨entry, memEntry, rfl⟩
      exact keyed entry memEntry
  have disks : ∀ entry ∈ diskEntries a, (Line.entry entry.1 entry.2).Keyed := by
    intro entry mem
    exact (List.mem_append.mp mem).elim (keyed_targetEntries bare entry)
      (keyed_fileSystemOptions bare entry)
  intro line mem
  simp only [answerLines, List.mem_append, List.mem_singleton] at mem
  rcases mem with ((first | rfl) | second) | third
  · exact tableKeyed "global" _ (by simp [BareKey, isBare]) (keyed_globalEntries a) line first
  · trivial
  · exact tableKeyed "network" _ (by simp [BareKey, isBare]) (keyed_networkEntries bare) line second
  · exact tableKeyed "disk-setup" _ (by simp [BareKey, isBare]) disks line third

theorem consistent_document_iff (a : Answer) : Consistent (document a) ↔
    (a.networkFilter.truthy = true → ((printed a.networkFilter.pairs).map Prod.fst).Nodup) ∧
      (a.diskFilter.truthy = true → ((printed a.diskFilter.pairs).map Prod.fst).Nodup) ∧
        ((fileSystemOptions a).2.map Prod.fst).Nodup := by
  rw [← diskEntries_consistent_iff, ← networkEntries_consistent_iff]
  have names : ((document a).map Prod.fst).Nodup := by simp [document]
  constructor
  · intro consistent
    exact ⟨consistent.2 _ (by simp [document]), consistent.2 _ (by simp [document])⟩
  · rintro ⟨network, disks⟩
    refine ⟨names, ?_⟩
    simp only [document, List.forall_mem_cons, List.not_mem_nil, false_imp_iff, implies_true,
      and_true]
    exact ⟨globalEntries_consistent a, network, disks⟩

theorem answer_settled (bare : BareKeys a) :
    (Readable a → (answerToml a).bind Toml.read = some (document a)) ∧
      (¬Readable a → (answerToml a).bind Toml.read = none) := by
  have headed : (gather (answerLines a)).1 = [] := by rw [gather_answerLines]
  cases rendered : answerToml a with
  | none =>
      refine ⟨fun readable => ?_, fun _ => rfl⟩
      rw [answerToml_eq readable.mappings readable.disks] at rendered
      cases rendered
  | some content =>
      have renders : (∀ value ∈ itemised a, value.isMapping = true) ∧
          (a.diskList.truthy = true → a.diskList.length.isSome = true) := by
        by_contra fails
        have error : answerToml a = none := if_neg (by rwa [List.all_eq_true])
        rw [error] at rendered
        cases rendered
      have whole := read_write (keyed_answerLines bare) headed
      rw [gather_answerLines] at whole
      rw [answerToml_eq renders.1 renders.2] at rendered
      rw [Option.bind_some, ← Option.some.inj rendered, whole]
      have same : Readable a ↔
          (answerLines a).all Line.isClean = true ∧ Consistent (document a) := by
        rw [isClean_answerLines, consistent_document_iff]
        constructor
        · intro readable
          exact ⟨readable.clean, readable.networkKeys, readable.filterKeys, readable.optionKeys⟩
        · rintro ⟨clean, networkKeys, filterKeys, optionKeys⟩
          exact ⟨renders.1, renders.2, networkKeys, filterKeys, optionKeys, clean⟩
      constructor
      · intro readable
        rw [if_pos (same.mp readable)]
      · intro unreadable
        rw [if_neg fun both => unreadable (same.mpr both)]

/-- Whatever the variables hold, the answer file is read as the document they ask for or not at
all. -/
theorem answer_read (bare : BareKeys a) :
    (Readable a → (answerToml a).bind Toml.read = some (document a)) ∧
      (¬Readable a → (answerToml a).bind Toml.read = none) :=
  answer_settled bare

end Reading

section Sample

/-- A machine whose disk is named by a serial number with a quotation mark in it. The options of
the file systems that are not chosen may have any shape. -/
def sampleAnswer : Answer where
  keyboard := .text "en-us".toList
  country := .text "us".toList
  fqdn := .text "pve.example".toList
  mailto := .text []
  timezone := .text "Etc/UTC".toList
  rootPassword := .text []
  rootPasswordHashed := .text "$6$salt$hash".toList
  rebootOnError := .bool false
  rebootMode := .text "reboot".toList
  networkSource := .text "from-dhcp".toList
  networkCidr := .text []
  networkDns := .none
  networkGateway := .text []
  networkFilter := .list []
  diskFilesystem := .text "zfs".toList
  diskList := .list []
  diskFilter := .mapping ⟨[(.text "ID_SERIAL".toList, .text "S3\"Z8".toList)], by simp⟩
  diskFilterMatch := .text "any".toList
  diskZfs := .mapping ⟨[(.text "arc_max".toList, .int 512)], by simp⟩
  diskLvm := .scalar .none
  diskBtrfs := .mapping .empty

theorem sample_bareKeys : BareKeys sampleAnswer where
  network := by simp [sampleAnswer, Variable.pairs, printed]
  filter := by
    simp [sampleAnswer, Variable.pairs, printed, Scalar.print, Scalar.string, Toml.BareKey,
      Toml.isBare]
  options := by
    simp [sampleAnswer, fileSystemOptions, Variable.pairs, kebabed, kebab, replace, Scalar.string,
      Toml.BareKey, Toml.isBare]

theorem sample_readable : Readable sampleAnswer where
  mappings := by decide
  disks := by decide
  networkKeys := by simp [sampleAnswer, Variable.pairs, printed]
  filterKeys := by simp [sampleAnswer, Variable.pairs, printed]
  optionKeys := by simp [sampleAnswer, fileSystemOptions, Variable.pairs, kebabed]
  clean := by decide

theorem answer_read_serial :
    (answerToml sampleAnswer).bind Toml.read = some (document sampleAnswer) :=
  (answer_read sample_bareKeys).1 sample_readable

end Sample

end Asmb8Ikvm.Iso
