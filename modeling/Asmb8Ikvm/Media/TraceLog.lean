import Asmb8Ikvm.Lib.Json
import Asmb8Ikvm.Media.Daemon

/-!
# The trace log on disk

The lines the daemon writes for the requests it serves, and
`read_trace_summary`, which reads them back and keeps the first and the last
ones. The log may have been cut off by a crash while its last line was being
written. The text of an entry is ASCII, so a position in the text is a position
in the file.

A line without its closing brace is not JSON and is passed over; the line that
only lacks its line break is read.
-/

namespace Asmb8Ikvm.Media

open Iusb

/-- The code points of a text. -/
def codes (text : String) : List ℕ :=
  text.toList.map Char.toNat

/-- The dictionary the daemon writes. -/
def TraceEntry.json (entry : TraceEntry) : Json :=
  .object [(codes "opcode", .string (codes entry.opcode)), (codes "lba", .int entry.lba),
    (codes "blocks", .int entry.blocks)]

/-- `json.dumps(entry) + "\n"`. -/
def TraceEntry.line (entry : TraceEntry) : List Char :=
  entry.json.dumps ++ ['\n']

/-- The log. -/
def traceLog (entries : List TraceEntry) : List Char :=
  entries.flatMap TraceEntry.line

/-- What a text file in universal newlines mode makes of line ends. -/
def universalNewlines : List Char → List Char
  | [] => []
  | '\r' :: '\n' :: rest => '\n' :: universalNewlines rest
  | c :: rest => (if c = '\r' then '\n' else c) :: universalNewlines rest

/-- The lines of a text, with their line breaks. -/
def fileLines : List Char → List (List Char)
  | [] => []
  | c :: rest =>
      if c = '\n' then ['\n'] :: fileLines rest
      else
        match fileLines rest with
        | [] => [[c]]
        | line :: lines => (c :: line) :: lines

/-- The result of `read_trace_summary`. -/
structure TraceSummary where
  readTraceHead : List Json
  readTraceTail : List Json
  readTraceDropped : ℕ

/-- The variables of its loop. -/
structure TraceScan where
  head : List Json := []
  tail : List Json := []
  total : ℕ := 0

/-- `tail.append(entry)` for a deque of bounded length. -/
def appendBounded (limit : ℕ) (tail : List Json) (entry : Json) : List Json :=
  (tail ++ [entry]).rtake limit

/-- The entry of a line, if it is one. -/
def lineEntry (rawLine : List Char) : Option Json :=
  let line := PyText.strip rawLine
  if line = [] then none
  else
    match Json.loads line with
    | some (.object members) => some (.object members)
    | _ => none

section Reading

variable (headLimit tailLimit : ℕ)

def addEntry (scan : TraceScan) (entry : Json) : TraceScan :=
  let total := scan.total + 1
  if total ≤ headLimit then { scan with head := scan.head ++ [entry], total }
  else { scan with tail := appendBounded tailLimit scan.tail entry, total }

/-- The body of the loop of `read_trace_summary`. -/
def scanLine (scan : TraceScan) (rawLine : List Char) : TraceScan :=
  match lineEntry rawLine with
  | none => scan
  | some entry => addEntry headLimit tailLimit scan entry

/-- `read_trace_summary` of a log with this content, or of a log that does not exist. -/
def readTraceSummary : Option (List Char) → TraceSummary
  | none => { readTraceHead := [], readTraceTail := [], readTraceDropped := 0 }
  | some content =>
      let scan := (fileLines (universalNewlines content)).foldl (scanLine headLimit tailLimit) {}
      { readTraceHead := scan.head
        readTraceTail := scan.tail
        readTraceDropped := scan.total - headLimit - tailLimit }

/-- The summary has the first entries, the last ones of the others, and the number of those
between them. -/
structure TraceSummary.Splits (summary : TraceSummary) (entries : List Json) : Prop where
  head : summary.readTraceHead = entries.take (min entries.length headLimit)
  tail : summary.readTraceTail =
    (entries.drop summary.readTraceHead.length).rtake
      (min (entries.length - summary.readTraceHead.length) tailLimit)
  count : summary.readTraceHead.length + summary.readTraceTail.length +
    summary.readTraceDropped = entries.length

end Reading

section Scan

variable {headLimit tailLimit : ℕ}

theorem length_rtake {α : Type*} (n : ℕ) (list : List α) :
    (list.rtake n).length = min n list.length := by
  rw [List.rtake_eq_reverse_take_reverse, List.length_reverse, List.length_take,
    List.length_reverse]

theorem rtake_min {α : Type*} (n : ℕ) (list : List α) :
    list.rtake (min list.length n) = list.rtake n := by
  rw [List.rtake_eq_reverse_take_reverse, List.rtake_eq_reverse_take_reverse, List.reverse_inj,
    List.take_eq_take_iff, List.length_reverse]
  omega

theorem rtake_concat_rtake {α : Type*} (n : ℕ) (list : List α) (x : α) :
    (list.rtake n ++ [x]).rtake n = (list ++ [x]).rtake n := by
  simp only [List.rtake_eq_reverse_take_reverse, List.reverse_append, List.reverse_reverse,
    List.reverse_cons, List.reverse_nil, List.nil_append, List.singleton_append]
  rcases n with _ | n
  · rfl
  · simp [List.take_take]

/-- What the loop has after some entries. -/
theorem foldl_addEntry (entries : List Json) :
    entries.foldl (addEntry headLimit tailLimit) {} =
      { head := entries.take headLimit
        tail := (entries.drop headLimit).rtake tailLimit
        total := entries.length } := by
  induction entries using List.reverseRecOn with
  | nil => simp
  | append_singleton entries entry ih =>
      rw [List.foldl_append, ih, List.foldl_cons, List.foldl_nil, addEntry]
      dsimp only
      rw [List.length_append, List.length_singleton]
      split_ifs with early
      · rw [List.take_of_length_le (show entries.length ≤ headLimit by omega),
          List.take_of_length_le (by simpa using early),
          List.drop_of_length_le (show entries.length ≤ headLimit by omega),
          List.drop_of_length_le (by simpa using early)]
      · rw [List.take_append_of_le_length (by omega), List.drop_append_of_le_length (by omega),
          appendBounded, rtake_concat_rtake]

theorem foldl_scanLine (lines : List (List Char)) (scan : TraceScan) :
    lines.foldl (scanLine headLimit tailLimit) scan =
      (lines.filterMap lineEntry).foldl (addEntry headLimit tailLimit) scan := by
  induction lines generalizing scan with
  | nil => rfl
  | cons line lines ih =>
      rw [List.foldl_cons, ih, scanLine]
      cases isEntry : lineEntry line with
      | none => rw [List.filterMap_cons_none isEntry]
      | some entry => rw [List.filterMap_cons_some isEntry, List.foldl_cons]

/-- The entries of a log are split as they should be. -/
theorem readTraceSummary_splits {content : List Char} {entries : List Json}
    (read : (fileLines (universalNewlines content)).filterMap lineEntry = entries) :
    (readTraceSummary headLimit tailLimit (some content)).Splits headLimit tailLimit entries := by
  have scanned : readTraceSummary headLimit tailLimit (some content) =
      { readTraceHead := entries.take headLimit
        readTraceTail := (entries.drop headLimit).rtake tailLimit
        readTraceDropped := entries.length - headLimit - tailLimit } := by
    simp only [readTraceSummary, foldl_scanLine, read, foldl_addEntry]
  rw [scanned]
  have taken : entries.take headLimit = entries.take (min entries.length headLimit) := by
    rw [List.take_eq_take_iff]
    omega
  refine ⟨taken, ?_, ?_⟩
  · have others : entries.drop (entries.take headLimit).length = entries.drop headLimit := by
      rw [List.length_take]
      rcases Nat.le_total headLimit entries.length with long | short
      · rw [Nat.min_eq_left long]
      · rw [Nat.min_eq_right short, List.drop_length, List.drop_of_length_le short]
    have size : entries.length - (entries.take headLimit).length =
        (entries.drop headLimit).length := by
      rw [← others, List.length_drop]
    dsimp only
    rw [others, size, rtake_min]
  · simp only [List.length_take, length_rtake, List.length_drop]
    omega

end Scan

section Lines

theorem fileLines_append {line : List Char} (rest : List Char) (whole : '\n' ∉ line) :
    fileLines (line ++ '\n' :: rest) = (line ++ ['\n']) :: fileLines rest := by
  induction line with
  | nil => rfl
  | cons c line ih =>
      rw [List.mem_cons, not_or] at whole
      rw [List.cons_append, fileLines, if_neg (Ne.symm whole.1), ih whole.2]
      rfl

theorem fileLines_last {line : List Char} (whole : '\n' ∉ line) (nonempty : line ≠ []) :
    fileLines line = [line] := by
  induction line with
  | nil => exact absurd rfl nonempty
  | cons c line ih =>
      rw [List.mem_cons, not_or] at whole
      rw [fileLines, if_neg (Ne.symm whole.1)]
      rcases line with _ | ⟨d, line⟩
      · rfl
      · rw [ih whole.2 (List.cons_ne_nil _ _)]

theorem universalNewlines_eq {text : List Char} (noReturn : '\r' ∉ text) :
    universalNewlines text = text := by
  fun_induction universalNewlines text with
  | case1 => rfl
  | case2 rest ih => exact absurd (List.mem_cons_self ..) noReturn
  | case3 c rest _ ih =>
      rw [List.mem_cons, not_or] at noReturn
      rw [if_neg (Ne.symm noReturn.1), ih noReturn.2]

/-- The lines of a log that is cut off in or after its last line. -/
theorem fileLines_flatMap {α : Type*} {write : α → List Char} {items : List α} {last : List Char}
    (whole : ∀ item ∈ items, '\n' ∉ write item) :
    fileLines (items.flatMap (fun item => write item ++ ['\n']) ++ last) =
      items.map (fun item => write item ++ ['\n']) ++ fileLines last := by
  induction items with
  | nil => rfl
  | cons item items ih =>
      rw [List.forall_mem_cons] at whole
      rw [List.flatMap_cons, List.append_assoc, List.append_assoc, List.singleton_append,
        fileLines_append _ whole.1, ih whole.2]
      rfl

end Lines

section Entries

variable {req : Packet} {entry : TraceEntry}

/-- The characters between the braces of an entry. -/
def IsInner (c : Char) : Prop :=
  32 ≤ c.toNat ∧ c.toNat ≤ 122

instance : DecidablePred IsInner := fun _ => inferInstanceAs (Decidable (_ ∧ _))

theorem exists_opcode (traced : traceEntry req = some entry) :
    entry.opcode = "0x28" ∨ entry.opcode = "0xa8" := by
  unfold traceEntry at traced
  split at traced
  case h_1 => cases traced
  case h_2 op _ _ =>
    by_cases isRead : op = scsiRead10 ∨ op = scsiRead12
    · rw [if_pos isRead] at traced
      cases traced
      rcases isRead with rfl | rfl
      · exact .inl (show "0x" ++ PyText.hex2 scsiRead10 = "0x28" by decide)
      · exact .inr (show "0x" ++ PyText.hex2 scsiRead12 = "0xa8" by decide)
    · rw [if_neg isRead] at traced
      cases traced

theorem flat_members (traced : traceEntry req = some entry) :
    Json.Flat [(codes "opcode", .string (codes entry.opcode)), (codes "lba", .int entry.lba),
      (codes "blocks", .int entry.blocks)] := by
  have names : (∀ code ∈ codes "opcode", Json.IsPlain code) ∧
      (∀ code ∈ codes "lba", Json.IsPlain code) ∧ ∀ code ∈ codes "blocks", Json.IsPlain code := by
    decide
  have opcode : ∀ code ∈ codes entry.opcode, Json.IsPlain code := by
    rcases exists_opcode traced with same | same
    · rw [same]
      decide
    · rw [same]
      decide
  intro member mem
  simp only [List.mem_cons, List.not_mem_nil, or_false] at mem
  rcases mem with rfl | rfl | rfl
  · exact ⟨names.1, .string opcode⟩
  · exact ⟨names.2.1, .int _⟩
  · exact ⟨names.2.2, .int _⟩

theorem isInner_dumpsString {text : List ℕ}
    (plain : ∀ code ∈ text, Json.IsPlain code ∧ code ≤ 122) :
    ∀ c ∈ Json.dumpsString text, IsInner c := by
  intro c mem
  simp only [Json.dumpsString, List.mem_cons, List.mem_append, List.mem_flatMap,
    List.not_mem_nil, or_false] at mem
  rcases mem with rfl | ⟨code, inText, escaped⟩ | rfl
  · decide
  · rw [Json.escapeCode_of_plain (plain code inText).1, List.mem_singleton] at escaped
    rw [IsInner, escaped, Json.toNat_ofNat_of_plain (plain code inText).1]
    exact ⟨(plain code inText).1.1, (plain code inText).2⟩
  · decide

theorem isInner_dumpsInt (n : ℕ) : ∀ c ∈ Json.dumpsInt n, IsInner c := by
  intro c mem
  have digit : c.isDigit = true := Nat.isDigit_of_mem_toDigits (by decide) (by decide) mem
  simp only [Char.isDigit, Bool.and_eq_true, decide_eq_true_eq, UInt32.le_iff_toNat_le] at digit
  have value : c.val.toNat = c.toNat := rfl
  have bounds : '0'.val.toNat = 48 ∧ '9'.val.toNat = 57 := by decide
  refine ⟨?_, ?_⟩
  · omega
  · omega

/-- The text of an entry is closed by the only brace of its kind. -/
theorem exists_inner (traced : traceEntry req = some entry) :
    ∃ inner, entry.json.dumps = '{' :: (inner ++ ['}']) ∧ ∀ c ∈ inner, IsInner c := by
  refine ⟨_, by rw [TraceEntry.json, Json.dumps], ?_⟩
  have names : (∀ code ∈ codes "opcode", Json.IsPlain code ∧ code ≤ 122) ∧
      (∀ code ∈ codes "lba", Json.IsPlain code ∧ code ≤ 122) ∧
      ∀ code ∈ codes "blocks", Json.IsPlain code ∧ code ≤ 122 := by
    decide
  have opcode : ∀ code ∈ codes entry.opcode, Json.IsPlain code ∧ code ≤ 122 := by
    rcases exists_opcode traced with same | same
    · rw [same]
      decide
    · rw [same]
      decide
  have marks : IsInner ',' ∧ IsInner ' ' ∧ IsInner ':' := by decide
  intro c mem
  simp only [Json.dumpsMembers, Json.dumpsMember, Json.dumps, List.mem_append, List.mem_cons] at mem
  rcases mem with (name | rfl | rfl | value) | rfl | rfl | (name | rfl | rfl | value) | rfl | rfl |
    name | rfl | rfl | value
  · exact isInner_dumpsString names.1 c name
  · exact marks.2.2
  · exact marks.2.1
  · exact isInner_dumpsString opcode c value
  · exact marks.1
  · exact marks.2.1
  · exact isInner_dumpsString names.2.1 c name
  · exact marks.2.2
  · exact marks.2.1
  · exact isInner_dumpsInt _ c value
  · exact marks.1
  · exact marks.2.1
  · exact isInner_dumpsString names.2.2 c name
  · exact marks.2.2
  · exact marks.2.1
  · exact isInner_dumpsInt _ c value

end Entries

section Recovery

variable {req : Packet} {entry : TraceEntry} {headLimit tailLimit : ℕ}

theorem not_mem_dumps (traced : traceEntry req = some entry) :
    '\n' ∉ entry.json.dumps ∧ '\r' ∉ entry.json.dumps := by
  obtain ⟨inner, layout, isInner⟩ := exists_inner traced
  have printed : ∀ c ∈ entry.json.dumps, 32 ≤ c.toNat := by
    intro c mem
    rw [layout, List.mem_cons, List.mem_append, List.mem_singleton] at mem
    rcases mem with rfl | inside | rfl
    · decide
    · exact (isInner c inside).1
    · decide
  exact ⟨fun mem => absurd (printed _ mem) (by decide),
    fun mem => absurd (printed _ mem) (by decide)⟩

/-- A line that is complete up to its line break is read. -/
theorem lineEntry_dumps {trail : List Char} (traced : traceEntry req = some entry)
    (trails : ∀ c ∈ trail, PyText.isSpace c = true) :
    lineEntry (entry.json.dumps ++ trail) = some entry.json := by
  obtain ⟨inner, layout, -⟩ := exists_inner traced
  have stripped : PyText.strip ([] ++ (entry.json.dumps ++ trail)) = entry.json.dumps := by
    refine PyText.strip_append (by simp) trails ?_ ?_ ?_
    · rw [layout]
      exact List.cons_ne_nil _ _
    · rw [layout]
      rintro c ⟨⟩
      decide
    · rw [layout, ← List.cons_append, List.getLast?_concat]
      rintro c ⟨⟩
      decide
  have loaded : Json.loads entry.json.dumps = some entry.json := by
    rw [TraceEntry.json]
    exact Json.loads_dumps (flat_members traced) (List.cons_ne_nil _ _)
  have solid : entry.json.dumps ≠ [] := by
    rw [layout]
    exact List.cons_ne_nil _ _
  rw [List.nil_append] at stripped
  rw [lineEntry, stripped, if_neg solid, loaded]
  rfl

/-- A line that is cut off is passed over. -/
theorem lineEntry_take {size : ℕ} (traced : traceEntry req = some entry)
    (torn : size < entry.json.dumps.length) : lineEntry (entry.json.dumps.take size) = none := by
  obtain ⟨inner, layout, isInner⟩ := exists_inner traced
  have unclosed : '}' ∉ inner := fun mem => absurd (isInner _ mem) (by decide)
  rcases size with _ | size
  · rfl
  · have part : entry.json.dumps.take (size + 1) = '{' :: inner.take size := by
      rw [layout, List.length_cons, List.length_append, List.length_singleton] at torn
      rw [layout, List.take_succ_cons, List.take_append_of_le_length (by omega)]
    obtain ⟨lead, trail, split, leads, trails, -, -, nothing⟩ :=
      PyText.exists_strip (entry.json.dumps.take (size + 1))
    rw [lineEntry]
    rw [part] at split nothing ⊢
    generalize PyText.strip ('{' :: inner.take size) = stripped at split nothing ⊢
    have noLead : lead = [] := by
      rcases lead with _ | ⟨c, lead⟩
      · rfl
      · rw [List.cons_append, List.cons.injEq] at split
        rw [← split.1] at leads
        exact absurd (leads '{' (List.mem_cons_self ..)) (by decide)
    rw [noLead, List.nil_append] at split
    rcases stripped with _ | ⟨c, stripped⟩
    · rw [nothing rfl] at split
      cases split
    · rw [List.cons_append, List.cons.injEq] at split
      rcases split with ⟨rfl, split⟩
      have inside : '}' ∉ stripped := by
        intro mem
        exact unclosed (List.mem_of_mem_take (split ▸ List.mem_append_left _ mem))
      rw [if_neg (List.cons_ne_nil _ _), Json.loads_eq_none inside]

/-- The entries of the requests the daemon has served. -/
def loggedEntries (requests : List Packet) : List TraceEntry :=
  requests.filterMap traceEntry

theorem exists_request {requests : List Packet} (logged : entry ∈ loggedEntries requests) :
    ∃ req, traceEntry req = some entry := by
  rcases List.mem_filterMap.mp logged with ⟨req, -, traced⟩
  exact ⟨req, traced⟩

/-- The lines of a log that is cut off in its last line. -/
theorem filterMap_fileLines {entries : List TraceEntry}
    (traced : ∀ entry ∈ entries, ∃ req, traceEntry req = some entry) (last : List Char) :
    (fileLines (traceLog entries ++ last)).filterMap lineEntry =
      entries.map TraceEntry.json ++ (fileLines last).filterMap lineEntry := by
  have whole : ∀ entry ∈ entries, '\n' ∉ entry.json.dumps := by
    intro entry mem
    obtain ⟨req, isEntry⟩ := traced entry mem
    exact (not_mem_dumps isEntry).1
  have lines : fileLines (traceLog entries ++ last) =
      entries.map TraceEntry.line ++ fileLines last := fileLines_flatMap whole
  have heads : (entries.map TraceEntry.line).filterMap lineEntry =
      entries.map TraceEntry.json := by
    rw [List.filterMap_map, ← List.filterMap_eq_map]
    refine List.filterMap_congr fun entry mem => ?_
    obtain ⟨req, isEntry⟩ := traced entry mem
    rw [Function.comp_apply, Function.comp_apply, TraceEntry.line]
    exact lineEntry_dumps isEntry (by simp [PyText.isSpace])
  rw [lines, List.filterMap_append, heads]

theorem filterMap_fileLines_take (traced : traceEntry req = some entry) (size : ℕ) :
    (fileLines (entry.line.take size)).filterMap lineEntry = [] ∨
      (fileLines (entry.line.take size)).filterMap lineEntry = [entry.json] := by
  have noBreak := (not_mem_dumps traced).1
  rcases Nat.lt_or_ge entry.json.dumps.length size with complete | part
  · have all : entry.line.take size = entry.json.dumps ++ '\n' :: [] := by
      rw [TraceEntry.line, List.take_of_length_le]
      rw [List.length_append, List.length_singleton]
      omega
    right
    rw [all, fileLines_append [] noBreak]
    exact List.filterMap_cons_some (lineEntry_dumps traced (by simp [PyText.isSpace]))
  · have cut : entry.line.take size = entry.json.dumps.take size := by
      rw [TraceEntry.line, List.take_append_of_le_length part]
    rw [cut]
    rcases List.eq_nil_or_concat (entry.json.dumps.take size) with nothing | ⟨_, _, something⟩
    · left
      rw [nothing]
      rfl
    · have single : fileLines (entry.json.dumps.take size) = [entry.json.dumps.take size] := by
        refine fileLines_last (fun mem => noBreak (List.mem_of_mem_take mem)) ?_
        rw [something]
        simp
      rw [single]
      rcases part.lt_or_eq with torn | whole
      · left
        exact List.filterMap_cons_none (lineEntry_take traced torn)
      · right
        rw [whole, List.take_length]
        have read : lineEntry (entry.json.dumps ++ []) = some entry.json :=
          lineEntry_dumps traced (by simp)
        rw [List.append_nil] at read
        exact List.filterMap_cons_some read

theorem not_mem_traceLog {entries : List TraceEntry}
    (traced : ∀ entry ∈ entries, ∃ req, traceEntry req = some entry) :
    '\r' ∉ traceLog entries := by
  intro mem
  rcases List.mem_flatMap.mp mem with ⟨entry, inLog, inLine⟩
  obtain ⟨req, isEntry⟩ := traced entry inLog
  rw [TraceEntry.line, List.mem_append] at inLine
  rcases inLine with inText | isBreak
  · exact (not_mem_dumps isEntry).2 inText
  · exact absurd isBreak (by decide)

/-- A log that is cut off in its last line, or behind one of the last two, is read up to that
line. -/
theorem readTraceSummary_take (headLimit tailLimit : ℕ) (requests : List Packet) (cut : ℕ)
    (behind : (traceLog (loggedEntries requests).dropLast).length ≤ cut) :
    ∃ m, (m = (loggedEntries requests).length - 1 ∨ m = (loggedEntries requests).length) ∧
      (readTraceSummary headLimit tailLimit
        (some ((traceLog (loggedEntries requests)).take cut))).Splits headLimit tailLimit
          (((loggedEntries requests).take m).map TraceEntry.json) := by
  have traced : ∀ entry ∈ loggedEntries requests, ∃ req, traceEntry req = some entry :=
    fun entry => exists_request
  generalize loggedEntries requests = entries at behind traced ⊢
  have noReturn : '\r' ∉ (traceLog entries).take cut :=
    fun mem => not_mem_traceLog traced (List.mem_of_mem_take mem)
  have plain := universalNewlines_eq noReturn
  rcases List.eq_nil_or_concat entries with rfl | ⟨before, last, rfl⟩
  · refine ⟨0, .inr rfl, readTraceSummary_splits ?_⟩
    rw [plain, show traceLog [] = [] from rfl, List.take_nil]
    rfl
  · rw [List.concat_eq_append] at *
    rw [List.dropLast_concat] at behind
    obtain ⟨req, isEntry⟩ := traced last (by simp)
    obtain ⟨size, rfl⟩ := Nat.exists_eq_add_of_le behind
    have content : (traceLog (before ++ [last])).take ((traceLog before).length + size) =
        traceLog before ++ last.line.take size := by
      have appended : traceLog (before ++ [last]) = traceLog before ++ last.line := by
        rw [traceLog, List.flatMap_append, List.flatMap_singleton]
        rfl
      rw [appended, List.take_length_add_append]
    have lines := filterMap_fileLines (fun entry mem => traced entry (List.mem_append_left _ mem))
      (last.line.take size)
    rw [content] at plain ⊢
    rcases filterMap_fileLines_take isEntry size with torn | read
    · refine ⟨before.length, .inl ?_, readTraceSummary_splits ?_⟩
      · rw [List.length_append, List.length_singleton, Nat.add_sub_cancel]
      · rw [plain, lines, torn, List.append_nil, List.take_left]
    · refine ⟨(before ++ [last]).length, .inr rfl, readTraceSummary_splits ?_⟩
      rw [plain, lines, read, List.take_length, List.map_append, List.map_singleton]

/-- A `READ(10)` and a `READ(12)` of one block. -/
def twoReads : List Packet :=
  [{ header := {}, payload := List.replicate opcodeOffset 0 ++ [0x28, 0, 0, 0, 0, 16, 0, 0, 1, 0] },
    { header := {}, payload := List.replicate opcodeOffset 0 ++
        [0xA8, 0, 0, 0, 0, 17, 0, 0, 0, 1, 0, 0] }]

theorem readTraceSummary_take_twoReads :
    (traceLog (loggedEntries twoReads).dropLast).length ≤ 60 ∧
      ∃ m, (m = (loggedEntries twoReads).length - 1 ∨ m = (loggedEntries twoReads).length) ∧
        (readTraceSummary 1 1 (some ((traceLog (loggedEntries twoReads)).take 60))).Splits 1 1
          (((loggedEntries twoReads).take m).map TraceEntry.json) :=
  have behind : (traceLog (loggedEntries twoReads).dropLast).length ≤ 60 := by decide
  ⟨behind, readTraceSummary_take 1 1 twoReads 60 behind⟩

end Recovery

end Asmb8Ikvm.Media
