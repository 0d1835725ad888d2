import Asmb8Ikvm.Lib.Numerals

/-!
# Range headers

`parse_range_header` of `http_origin.py`, and the grammar of a single byte range
it is to follow. The code leaves the numbers to `int`, strips what follows the
unit, and compares the first position with the size before it looks at the last
one. The two agree on a header unless one of these shows.
-/

namespace Asmb8Ikvm.HttpOrigin

open PyText

/-- The exception of the same name. -/
inductive RangeNotSatisfiable where
  | raised
deriving DecidableEq, Repr

/-- The field `end`, which is inclusive, is called `last` here. -/
structure ByteRange where
  start : ℤ
  last : ℤ
deriving DecidableEq, Repr

def bytesUnit : List Char :=
  "bytes=".toList

/-- `parse_range_header` behind the unit and the dash. -/
def parseRange (table : CharTable) (startText endText : List Char) (size : ℕ) :
    Except RangeNotSatisfiable (Option ByteRange) :=
  if startText = [] ∧ endText = [] then .ok none
  else if startText = [] then
    match int table endText with
    | none => .ok none
    | some suffixLength =>
        if suffixLength ≤ 0 ∨ size = 0 then .error .raised
        else .ok (some { start := max 0 (size - suffixLength), last := size - 1 })
  else
    match int table startText with
    | none => .ok none
    | some start =>
        if start < 0 ∨ size = 0 ∨ size ≤ start then .error .raised
        else if endText = [] then .ok (some { start, last := size - 1 })
        else
          match int table endText with
          | none => .ok none
          | some last =>
              if last < start then .ok none
              else .ok (some { start, last := min last (size - 1) })

def parseRangeHeader (table : CharTable) (value : Option (List Char)) (size : ℕ) :
    Except RangeNotSatisfiable (Option ByteRange) :=
  match value with
  | none => .ok none
  | some value =>
      if value = [] then .ok none
      else if ',' ∈ value then .ok none
      else if ¬ bytesUnit <+: value then .ok none
      else
        let spec := strip (value.drop bytesUnit.length)
        if '-' ∉ spec then .ok none
        else
          let (startText, endText) := partition '-' spec
          parseRange table startText endText size

/-- What a single byte range of the grammar says. -/
inductive RangeSpec where
  | openEnded (first : ℕ)
  | closed (first last : ℕ)
  | suffix (length : ℕ)
deriving DecidableEq, Repr

/-- `1*DIGIT`, with its value. -/
def digits (text : List Char) : Option ℕ :=
  if text ≠ [] ∧ text.all Char.isDigit then some (Nat.ofDigitChars 10 text 0) else none

/-- `1*DIGIT "-" [1*DIGIT]` or `"-" 1*DIGIT`, without the dash. -/
def specOf (first last : List Char) : Option RangeSpec :=
  if first = [] then (digits last).map .suffix
  else
    match digits first with
    | none => none
    | some start => if last = [] then some (.openEnded start) else (digits last).map (.closed start)

/-- The range of a header, if the header is in the grammar. -/
def rangeSpec (value : List Char) : Option RangeSpec :=
  if bytesUnit <+: value ∧ '-' ∈ value.drop bytesUnit.length then
    let (first, last) := partition '-' (value.drop bytesUnit.length)
    specOf first last
  else none

/-- The answer to a range of the grammar. -/
def RangeSpec.answer (size : ℕ) : RangeSpec → Except RangeNotSatisfiable (Option ByteRange)
  | .openEnded first =>
      if size ≤ first then .error .raised else .ok (some { start := first, last := size - 1 })
  | .closed first last =>
      if last < first then .ok none
      else if size ≤ first then .error .raised
      else .ok (some { start := first, last := min last (size - 1) })
  | .suffix length =>
      if length = 0 ∨ size = 0 then .error .raised
      else .ok (some { start := (size - length : ℕ), last := size - 1 })

/-- The classification of a header: a range of the grammar gets its answer, and everything else is
ignored. -/
def Classifies (table : CharTable) (value : List Char) (size : ℕ) : Prop :=
  parseRangeHeader table (some value) size =
    match rangeSpec value with
    | some spec => spec.answer size
    | none => .ok none

/-- A range of the grammar that gets its answer: the numbers that count are short enough to be
read, and the first position of a range that is ignored is too long for that or lies in the
file. -/
def RangeSpec.ReadsRight (startText endText : List Char) (size : ℕ) : RangeSpec → Prop
  | .openEnded _ => startText.length ≤ maxStrDigits
  | .suffix _ => endText.length ≤ maxStrDigits
  | .closed first last =>
      if last < first then maxStrDigits < startText.length ∨ first < size
      else startText.length ≤ maxStrDigits ∧ (endText.length ≤ maxStrDigits ∨ size ≤ first)

/-- A text outside the grammar that is ignored: a number in it cannot be read, or its first
position lies in the file and its last one before it. -/
def Unread (table : CharTable) (startText endText : List Char) (size : ℕ) : Prop :=
  if startText = [] then int table endText = none
  else ∀ start ∈ int table startText,
    start < size ∧ endText ≠ [] ∧ ∀ last ∈ int table endText, last < start

/-- A header the code reads as the grammar does. -/
def ReadsRight (table : CharTable) (value : List Char) (size : ℕ) : Prop :=
  let (startText, endText) := partition '-' (strip (value.drop bytesUnit.length))
  match rangeSpec value with
  | some spec => spec.ReadsRight startText endText size
  | none => ',' ∉ value → bytesUnit <+: value → '-' ∈ value → Unread table startText endText size

section Grammar

variable {table : CharTable} {value text first last : List Char} {spec : RangeSpec} {size : ℕ}

theorem digits_eq_some {n : ℕ} (isNumber : digits text = some n) :
    text ≠ [] ∧ (∀ c ∈ text, c.isDigit = true) ∧ n = Nat.ofDigitChars 10 text 0 := by
  unfold digits at isNumber
  split_ifs at isNumber with plain
  cases isNumber
  exact ⟨plain.1, List.all_eq_true.mp plain.2, rfl⟩

/-- A number of the grammar is read unless it is too long. -/
theorem int_of_digits {n : ℕ} (isNumber : digits text = some n) :
    int table text = if maxStrDigits < text.length then none else some (n : ℤ) := by
  obtain ⟨nonempty, plain, rfl⟩ := digits_eq_some isNumber
  exact int_digits nonempty plain

/-- The three forms of a range. -/
theorem specOf_eq_some (isSpec : specOf first last = some spec) :
    (∃ start, digits first = some start ∧ last = [] ∧ spec = .openEnded start) ∨
      (∃ start stop, digits first = some start ∧ digits last = some stop ∧
        spec = .closed start stop) ∨
      ∃ length, first = [] ∧ digits last = some length ∧ spec = .suffix length := by
  unfold specOf at isSpec
  by_cases isSuffix : first = []
  · rw [if_pos isSuffix] at isSpec
    rcases Option.map_eq_some_iff.mp isSpec with ⟨length, isNumber, rfl⟩
    exact .inr (.inr ⟨length, isSuffix, isNumber, rfl⟩)
  · rw [if_neg isSuffix] at isSpec
    split at isSpec
    case h_1 => cases isSpec
    case h_2 start isNumber =>
      split_ifs at isSpec with isOpen
      · cases isSpec
        exact .inl ⟨start, isNumber, isOpen, rfl⟩
      · rcases Option.map_eq_some_iff.mp isSpec with ⟨stop, isNumber', rfl⟩
        exact .inr (.inl ⟨start, stop, isNumber, isNumber', rfl⟩)

theorem isDigit_of_specOf (isSpec : specOf first last = some spec) :
    (∀ c ∈ first, c.isDigit = true) ∧ ∀ c ∈ last, c.isDigit = true := by
  rcases specOf_eq_some isSpec with ⟨start, isFirst, rfl, -⟩ | ⟨start, stop, isFirst, isLast, -⟩ |
    ⟨length, rfl, isLast, -⟩
  · exact ⟨(digits_eq_some isFirst).2.1, by simp⟩
  · exact ⟨(digits_eq_some isFirst).2.1, (digits_eq_some isLast).2.1⟩
  · exact ⟨by simp, (digits_eq_some isLast).2.1⟩

theorem isSpace_of_isDigit {c : Char} (digit : c.isDigit = true) : isSpace c = false := by
  simp only [Char.isDigit, Bool.and_eq_true, decide_eq_true_eq, UInt32.le_iff_toNat_le] at digit
  have value : c.val.toNat = c.toNat := rfl
  have bounds : '0'.val.toNat = 48 ∧ '9'.val.toNat = 57 := by decide
  simp only [isSpace, Bool.or_eq_false_iff, Bool.and_eq_false_iff, decide_eq_false_iff_not,
    beq_eq_false_iff_ne]
  omega

theorem strip_eq_self (nonempty : text ≠ []) (solid : ∀ c ∈ text, isSpace c = false) :
    strip text = text := by
  have stripped : strip ([] ++ (text ++ [])) = text :=
    strip_append (by simp) (by simp) nonempty
      (fun c mem => solid c (List.mem_of_mem_head? mem))
      (fun c mem => solid c (List.mem_of_getLast? mem))
  rwa [List.nil_append, List.append_nil] at stripped

/-- A header of the grammar is stripped of nothing and has no comma. -/
theorem plain_of_specOf (isSpec : specOf first last = some spec) :
    ',' ∉ bytesUnit ++ (first ++ '-' :: last) ∧
      strip (first ++ '-' :: last) = first ++ '-' :: last := by
  have plain := isDigit_of_specOf isSpec
  have chars : ∀ c ∈ first ++ '-' :: last, isSpace c = false ∧ c ≠ ',' := by
    intro c mem
    have digit : c.isDigit = true ∨ c = '-' := by
      rw [List.mem_append, List.mem_cons] at mem
      rcases mem with front | rfl | back
      · exact .inl (plain.1 c front)
      · exact .inr rfl
      · exact .inl (plain.2 c back)
    rcases digit with digit | rfl
    · refine ⟨isSpace_of_isDigit digit, ?_⟩
      rintro rfl
      cases digit
    · exact ⟨by decide, by decide⟩
  refine ⟨?_, strip_eq_self (by simp) fun c mem => (chars c mem).1⟩
  rw [List.mem_append, not_or]
  exact ⟨by decide, fun mem => (chars _ mem).2 rfl⟩

theorem rangeSpec_eq_some (isSpec : rangeSpec value = some spec) :
    ∃ first last, value = bytesUnit ++ (first ++ '-' :: last) ∧ '-' ∉ first ∧
      specOf first last = some spec := by
  unfold rangeSpec at isSpec
  split_ifs at isSpec with shaped
  rcases shaped with ⟨⟨raw, rfl⟩, dash⟩
  rw [List.drop_left] at dash isSpec
  obtain ⟨first, last, rfl, absent, parted⟩ := exists_partition dash
  rw [parted] at isSpec
  exact ⟨first, last, rfl, absent, isSpec⟩

end Grammar

section Classification

variable {table : CharTable} {value startText endText : List Char} {spec : RangeSpec} {size : ℕ}

theorem parseRangeHeader_of_unread (unread : ¬ (',' ∉ value ∧ bytesUnit <+: value ∧ '-' ∈ value)) :
    parseRangeHeader table (some value) size = .ok none := by
  unfold parseRangeHeader
  dsimp only
  split_ifs with empty several unit dash
  · rfl
  · rfl
  · exfalso
    refine unread ⟨several, unit, ?_⟩
    obtain ⟨lead, trail, split, -⟩ := exists_strip (value.drop bytesUnit.length)
    have inside : '-' ∈ value.drop bytesUnit.length := by
      rw [split]
      exact List.mem_append_right _ (List.mem_append_left _ dash)
    exact List.mem_of_mem_drop inside
  · rfl
  · rfl

theorem parseRangeHeader_of_read (single : ',' ∉ value) (unit : bytesUnit <+: value)
    (dash : '-' ∈ value) :
    parseRangeHeader table (some value) size =
      parseRange table (partition '-' (strip (value.drop bytesUnit.length))).1
        (partition '-' (strip (value.drop bytesUnit.length))).2 size ∧
      '-' ∉ (partition '-' (strip (value.drop bytesUnit.length))).1 := by
  rcases unit with ⟨raw, rfl⟩
  rw [List.drop_left]
  have inside : '-' ∈ strip raw := by
    obtain ⟨lead, trail, split, leads, trails, -⟩ := exists_strip raw
    have inRaw : '-' ∈ raw := by
      rcases List.mem_append.mp dash with inUnit | inRaw
      · exact absurd inUnit (by decide)
      · exact inRaw
    rw [split, List.mem_append, List.mem_append] at inRaw
    rcases inRaw with inLead | inside | inTrail
    · exact absurd (leads _ inLead) (by decide)
    · exact inside
    · exact absurd (trails _ inTrail) (by decide)
  have nonempty : bytesUnit ++ raw ≠ [] := by
    rintro empty
    cases empty
  obtain ⟨before, after, -, absent, parted⟩ := exists_partition inside
  refine ⟨?_, by rw [parted]; exact absent⟩
  rw [parseRangeHeader]
  dsimp only
  rw [if_neg nonempty, if_neg single, if_neg (not_not.mpr (List.prefix_append _ _)), List.drop_left,
    if_neg (not_not.mpr inside)]

theorem parseRangeHeader_of_specOf (isSpec : specOf startText endText = some spec)
    (absent : '-' ∉ startText) :
    parseRangeHeader table (some (bytesUnit ++ (startText ++ '-' :: endText))) size =
      parseRange table startText endText size := by
  obtain ⟨single, stripped⟩ := plain_of_specOf isSpec
  have dash : '-' ∈ bytesUnit ++ (startText ++ '-' :: endText) := by simp
  obtain ⟨parsed, -⟩ := parseRangeHeader_of_read single (List.prefix_append _ _) dash
  rw [parsed, List.drop_left, stripped, partition_append absent]

/-- When a text with a dash is ignored. -/
theorem parseRange_eq_none (unsigned : '-' ∉ startText) :
    parseRange table startText endText size = .ok none ↔
      Unread table startText endText size := by
  have noNumber : int table [] = none := by
    rfl
  unfold parseRange Unread
  by_cases isSuffix : startText = []
  · rw [if_pos isSuffix, if_pos isSuffix]
    by_cases nothing : endText = []
    · rw [if_pos ⟨isSuffix, nothing⟩, nothing, noNumber]
      exact ⟨fun _ => rfl, fun _ => rfl⟩
    · rw [if_neg fun both => nothing both.2]
      cases int table endText with
      | none => exact ⟨fun _ => rfl, fun _ => rfl⟩
      | some suffixLength =>
          dsimp only
          refine ⟨fun ignored => ?_, fun unread => nomatch unread⟩
          split_ifs at ignored
          cases ignored
  · rw [if_neg fun both => isSuffix both.1, if_neg isSuffix, if_neg isSuffix]
    cases isStart : int table startText with
    | none => exact ⟨fun _ => by simp, fun _ => rfl⟩
    | some start =>
        have positive := int_nonneg unsigned isStart
        simp only [Option.mem_def, Option.some.injEq, forall_eq']
        by_cases beyond : start < 0 ∨ size = 0 ∨ (size : ℤ) ≤ start
        · rw [if_pos beyond]
          refine ⟨fun raised => ?_, fun inFile => ?_⟩
          · cases raised
          · exfalso
            have below := inFile.1
            omega
        · rw [if_neg beyond]
          have below : start < size := by omega
          by_cases isOpen : endText = []
          · rw [if_pos isOpen]
            exact ⟨fun found => (nomatch found), fun closed => absurd isOpen closed.2.1⟩
          · rw [if_neg isOpen]
            cases int table endText with
            | none => exact ⟨fun _ => ⟨below, isOpen, by simp⟩, fun _ => rfl⟩
            | some last =>
                dsimp only
                split_ifs with backwards
                · exact ⟨fun _ => ⟨below, isOpen, by simpa using backwards⟩, fun _ => rfl⟩
                · refine ⟨fun found => (nomatch found), fun ordered => ?_⟩
                  exact absurd (ordered.2.2 last rfl) backwards

/-- When a range of the grammar gets its answer. -/
theorem parseRange_eq_answer (isSpec : specOf startText endText = some spec) :
    parseRange table startText endText size = spec.answer size ↔
      spec.ReadsRight startText endText size := by
  unfold parseRange
  rcases specOf_eq_some isSpec with ⟨first, isFirst, rfl, rfl⟩ |
    ⟨first, last, isFirst, isLast, rfl⟩ | ⟨length, rfl, isLength, rfl⟩
  · have nonempty := (digits_eq_some isFirst).1
    rw [if_neg fun both => nonempty both.1, if_neg nonempty, int_of_digits isFirst,
      RangeSpec.answer, RangeSpec.ReadsRight]
    by_cases long : maxStrDigits < startText.length
    · rw [if_pos long]
      dsimp only
      refine ⟨fun same => ?_, fun short => absurd short (by omega)⟩
      split_ifs at same
      cases same
    · rw [if_neg long]
      refine ⟨fun _ => by omega, fun _ => ?_⟩
      dsimp only
      rw [if_pos rfl]
      by_cases beyond : size ≤ first
      · rw [if_pos beyond, if_pos (by omega)]
      · rw [if_neg beyond, if_neg (by omega)]
  · have nonempty := (digits_eq_some isFirst).1
    have nonempty' := (digits_eq_some isLast).1
    rw [if_neg fun both => nonempty both.1, if_neg nonempty, int_of_digits isFirst,
      int_of_digits isLast, RangeSpec.answer, RangeSpec.ReadsRight]
    by_cases long : maxStrDigits < startText.length
    · rw [if_pos long]
      dsimp only
      by_cases backwards : last < first
      · rw [if_pos backwards, if_pos backwards]
        exact ⟨fun _ => .inl long, fun _ => rfl⟩
      · rw [if_neg backwards, if_neg backwards]
        refine ⟨fun same => ?_, fun short => absurd short.1 (by omega)⟩
        split_ifs at same
        cases same
    · rw [if_neg long]
      dsimp only
      by_cases beyond : size ≤ first
      · rw [if_pos (by omega)]
        by_cases backwards : last < first
        · rw [if_pos backwards, if_pos backwards]
          refine ⟨fun same => ?_, fun inFile => ?_⟩
          · cases same
          · exfalso
            omega
        · rw [if_neg backwards, if_neg backwards, if_pos beyond]
          exact ⟨fun _ => ⟨by omega, .inr beyond⟩, fun _ => rfl⟩
      · rw [if_neg (by omega), if_neg nonempty']
        by_cases backwards : last < first
        · rw [if_pos backwards, if_pos backwards]
          refine ⟨fun _ => .inr (by omega), fun _ => ?_⟩
          split_ifs
          · rfl
          · dsimp only
            rw [if_pos (by omega)]
        · rw [if_neg backwards, if_neg backwards, if_neg beyond]
          by_cases long' : maxStrDigits < endText.length
          · rw [if_pos long']
            refine ⟨fun same => ?_, fun short => ?_⟩
            · cases same
            · exfalso
              omega
          · rw [if_neg long']
            dsimp only
            rw [if_neg (by omega)]
            exact ⟨fun _ => ⟨by omega, .inl (by omega)⟩, fun _ => rfl⟩
  · have nonempty := (digits_eq_some isLength).1
    rw [if_neg fun both => nonempty both.2, if_pos rfl, int_of_digits isLength,
      RangeSpec.answer, RangeSpec.ReadsRight]
    by_cases long : maxStrDigits < endText.length
    · rw [if_pos long]
      dsimp only
      refine ⟨fun same => ?_, fun short => absurd short (by omega)⟩
      split_ifs at same
      cases same
    · rw [if_neg long]
      refine ⟨fun _ => by omega, fun _ => ?_⟩
      dsimp only
      by_cases nothing : length = 0 ∨ size = 0
      · rw [if_pos nothing, if_pos (by omega)]
      · rw [if_neg nothing, if_neg (by omega),
        show max 0 ((size : ℤ) - length) = (size - length : ℕ)
          by omega]

/-- When a header is classified as the grammar has it. -/
theorem classifies_iff (table : CharTable) (value : List Char) (size : ℕ) :
    Classifies table value size ↔ ReadsRight table value size := by
  unfold Classifies ReadsRight
  dsimp only
  cases isSpec : rangeSpec value with
  | none =>
      dsimp only
      by_cases read : ',' ∉ value ∧ bytesUnit <+: value ∧ '-' ∈ value
      · obtain ⟨parsed, unsigned⟩ := parseRangeHeader_of_read read.1 read.2.1 read.2.2
        rw [parsed, parseRange_eq_none unsigned]
        exact ⟨fun ignored _ _ _ => ignored, fun ignored => ignored read.1 read.2.1 read.2.2⟩
      · rw [parseRangeHeader_of_unread read]
        exact ⟨fun _ single unit dash => absurd ⟨single, unit, dash⟩ read, fun _ => rfl⟩
  | some spec =>
      obtain ⟨first, last, rfl, absent, isSpec⟩ := rangeSpec_eq_some isSpec
      rw [parseRangeHeader_of_specOf isSpec absent, List.drop_left, (plain_of_specOf isSpec).2,
        partition_append absent]
      exact parseRange_eq_answer isSpec

/-- A range that ends before it starts is not ignored when it starts behind the file. -/
theorem not_classifies_backwards : ¬ Classifies asciiTable "bytes=10-5".toList 10 := by
  unfold Classifies
  decide +kernel

end Classification

section Bounds

variable {table : CharTable} {startText endText : List Char} {byteRange : ByteRange} {size : ℕ}

/-- The bounds of a range in a file. -/
structure ByteRange.InFile (byteRange : ByteRange) (size : ℕ) : Prop where
  start_nonneg : 0 ≤ byteRange.start
  start_le : byteRange.start ≤ byteRange.last
  last_lt : byteRange.last < size

theorem parseRange_inFile
    (found : parseRange table startText endText size = .ok (some byteRange)) :
    byteRange.InFile size := by
  unfold parseRange at found
  by_cases nothing : startText = [] ∧ endText = []
  · rw [if_pos nothing] at found
    cases found
  · rw [if_neg nothing] at found
    by_cases isSuffix : startText = []
    · rw [if_pos isSuffix] at found
      split at found
      case h_1 => cases found
      case h_2 suffixLength _ =>
        split_ifs at found with unsatisfiable
        cases found
        exact ⟨le_max_left _ _, by dsimp only; omega, by dsimp only; omega⟩
    · rw [if_neg isSuffix] at found
      split at found
      case h_1 => cases found
      case h_2 start _ =>
        by_cases beyond : start < 0 ∨ size = 0 ∨ size ≤ start
        · rw [if_pos beyond] at found
          cases found
        · rw [if_neg beyond] at found
          by_cases isOpen : endText = []
          · rw [if_pos isOpen] at found
            cases found
            exact ⟨by dsimp only; omega, by dsimp only; omega, by dsimp only; omega⟩
          · rw [if_neg isOpen] at found
            split at found
            case h_1 => cases found
            case h_2 last _ =>
              by_cases backwards : last < start
              · rw [if_pos backwards] at found
                cases found
              · rw [if_neg backwards] at found
                cases found
                exact ⟨by dsimp only; omega, by dsimp only; omega, by dsimp only; omega⟩

/-- The ranges that are served lie in the file. -/
theorem parseRangeHeader_inFile {value : Option (List Char)}
    (found : parseRangeHeader table value size = .ok (some byteRange)) :
    byteRange.InFile size := by
  rcases value with _ | value
  · cases found
  · by_cases read : ',' ∉ value ∧ bytesUnit <+: value ∧ '-' ∈ value
    · rw [(parseRangeHeader_of_read read.1 read.2.1 read.2.2).1] at found
      exact parseRange_inFile found
    · rw [parseRangeHeader_of_unread read] at found
      cases found

/-- The header of the range between two positions. -/
def rangeText (first last : ℕ) : List Char :=
  bytesUnit ++ (Nat.toDigits 10 first ++ '-' :: Nat.toDigits 10 last)

theorem digits_toDigits (n : ℕ) : digits (Nat.toDigits 10 n) = some n := by
  have plain : ∀ c ∈ Nat.toDigits 10 n, c.isDigit = true := fun c mem =>
    Nat.isDigit_of_mem_toDigits (by decide) (by decide) mem
  rw [digits, if_pos ⟨Nat.toDigits_ne_nil, List.all_eq_true.mpr plain⟩,
    Nat.ofDigitChars_toDigits (show 1 < 10 by decide) (show 10 ≤ 10 by decide)]

theorem length_toDigits_le {n : ℕ} (small : n < 2 ^ 63) :
    (Nat.toDigits 10 n).length ≤ maxStrDigits := by
  have short : (Nat.toDigits 10 n).length ≤ 19 :=
    (Nat.length_toDigits_le_iff (by decide) (by decide)).mpr (by omega)
  exact short.trans (by decide)

/-- A range between two positions of a file is served. -/
theorem parseRangeHeader_rangeText {first last : ℕ} (ordered : first ≤ last) (inFile : last < size)
    (small : size < 2 ^ 63) :
    parseRangeHeader table (some (rangeText first last)) size =
      .ok (some { start := first, last }) := by
  have absent : '-' ∉ Nat.toDigits 10 first := fun mem =>
    absurd (Nat.isDigit_of_mem_toDigits (by decide) (by decide) mem) (by decide)
  have nonempty : Nat.toDigits 10 last ≠ [] := Nat.toDigits_ne_nil
  have isSpec : specOf (Nat.toDigits 10 first) (Nat.toDigits 10 last) =
      some (.closed first last) := by
    rw [specOf, if_neg Nat.toDigits_ne_nil, digits_toDigits, digits_toDigits]
    dsimp only
    rw [if_neg nonempty]
    rfl
  have reads : (RangeSpec.closed first last).ReadsRight (Nat.toDigits 10 first)
      (Nat.toDigits 10 last) size := by
    rw [RangeSpec.ReadsRight, if_neg (by omega)]
    exact ⟨length_toDigits_le (by omega), .inl (length_toDigits_le (by omega))⟩
  rw [rangeText, parseRangeHeader_of_specOf isSpec absent,
    (parseRange_eq_answer isSpec).mpr reads, RangeSpec.answer, if_neg (by omega),
    if_neg (by omega), min_eq_left (by omega)]

end Bounds

end Asmb8Ikvm.HttpOrigin
