import Asmb8Ikvm.Asp.Webvar

/-!
# The WEBVAR format

What a body of this format looks like, as a relation between values and texts:
any white space between the parts, strings in either quotes with the escapes
that Python and JavaScript share. `parseWebvar` inverts the format.
-/

namespace Asmb8Ikvm

open PyText Regex

namespace Webvar

/-- The values of the fields of a record. -/
inductive Value where
  | int (value : ℤ)
  | str (text : String)

abbrev Record := List (String × Value)

def Value.literal : Value → Literal
  | .int value => .int value
  | .str text => .str text

def Record.literal (record : Record) : List (Literal × Literal) :=
  record.map fun entry => (.str entry.1, entry.2.literal)

def isBlank (text : List Char) : Bool :=
  text.all isSpace

def hexDigitValue (c : Char) : Option ℕ :=
  if '0' ≤ c ∧ c ≤ '9' then some (c.toNat - 48)
  else if 'a' ≤ c ∧ c ≤ 'f' then some (c.toNat - 87)
  else if 'A' ≤ c ∧ c ≤ 'F' then some (c.toNat - 55)
  else none

def hexValue (digits : List Char) : Option ℕ :=
  (digits.mapM hexDigitValue).map fun values => values.foldl (fun n value => 16 * n + value) 0

/-- The character for what stands behind a backslash. -/
def unescape : List Char → Option Char
  | ['\\'] => some '\\'
  | ['\''] => some '\''
  | ['"'] => some '"'
  | ['n'] => some '\n'
  | ['r'] => some '\r'
  | ['t'] => some '\t'
  | ['b'] => some '\x08'
  | ['f'] => some '\x0c'
  | ['v'] => some '\x0b'
  | ['x', a, b] => (hexValue [a, b]).map Char.ofNat
  | ['u', a, b, c, d] => (hexValue [a, b, c, d]).map Char.ofNat
  | _ => none

/-- The characters between the quotes of a string literal. -/
inductive RendersChars (quote : Char) : List Char → List Char → Prop
  | nil : RendersChars quote [] []
  | plain {c : Char} {chars text : List Char} (notQuote : c ≠ quote) (notBackslash : c ≠ '\\')
      (notBreak : c ≠ '\n' ∧ c ≠ '\r') (tail : RendersChars quote chars text) :
      RendersChars quote (c :: chars) (c :: text)
  | escape {c : Char} {code chars text : List Char} (isCode : unescape code = some c)
      (tail : RendersChars quote chars text) :
      RendersChars quote (c :: chars) ('\\' :: (code ++ text))

/-- A string literal. -/
inductive RendersString : String → List Char → Prop
  | quoted {quote : Char} {value : String} {inner : List Char}
      (isQuote : quote = '\'' ∨ quote = '"') (chars : RendersChars quote value.toList inner) :
      RendersString value (quote :: (inner ++ [quote]))

inductive RendersValue : Value → List Char → Prop
  | int (value : ℤ) : RendersValue (.int value) (toString value).toList
  | str {value : String} {text : List Char} (isString : RendersString value text) :
      RendersValue (.str value) text

inductive RendersEntry : String × Value → List Char → Prop
  | mk {key : String} {value : Value} {keyText valueText left right : List Char}
      (isKey : RendersString key keyText) (isValue : RendersValue value valueText)
      (blank : isBlank left = true) (blank' : isBlank right = true) :
      RendersEntry (key, value) (keyText ++ (left ++ ':' :: (right ++ valueText)))

/-- Items with white space around them and commas between them. -/
inductive RendersItems {β : Type} (renders : β → List Char → Prop) : List β → List Char → Prop
  | nil {left : List Char} (blank : isBlank left = true) : RendersItems renders [] left
  | last {item : β} {left text right : List Char} (blank : isBlank left = true)
      (isItem : renders item text) (blank' : isBlank right = true) :
      RendersItems renders [item] (left ++ (text ++ right))
  | cons {item next : β} {items : List β} {left text right tail : List Char}
      (blank : isBlank left = true) (isItem : renders item text) (blank' : isBlank right = true)
      (others : RendersItems renders (next :: items) tail) :
      RendersItems renders (item :: next :: items) (left ++ (text ++ (right ++ ',' :: tail)))

inductive RendersRecord : Record → List Char → Prop
  | mk {record : Record} {inner : List Char} (entries : RendersItems RendersEntry record inner) :
      RendersRecord record ('{' :: (inner ++ ['}']))

/-- The array: the records and the empty object at the end. -/
inductive RendersArray : List Record → List Char → Prop
  | mk {records : List Record} {inner : List Char}
      (items : RendersItems RendersRecord (records ++ [[]]) inner) :
      RendersArray records ('[' :: (inner ++ [']']))

/-- The parts of a body. -/
structure Body (table : CharTable) where
  banner : List Char
  name : List Char
  beforeEquals : List Char
  opening : List Char
  struct : List Char
  beforeColon : List Char
  afterColon : List Char
  records : List Record
  array : List Char
  between : List Char
  statusBefore : List Char
  statusAfter : List Char
  status : ℤ
  trailer : List Char
  banner_plain : ¬ "WEBVAR_JSONVAR_".toList <:+: banner
  name_nonempty : name ≠ []
  name_isWord : ∀ c ∈ name, table.isWord c = true
  opening_plain : ¬ "WEBVAR_STRUCTNAME_".toList <:+: opening
  struct_nonempty : struct ≠ []
  struct_isWord : ∀ c ∈ struct, table.isWord c = true
  blank : ∀ gap ∈ [beforeEquals, beforeColon, afterColon, statusBefore, statusAfter],
    isBlank gap = true
  isArray : RendersArray records array
  between_plain : search (hapiStatusRe table) none between = none
  trailer_plain : ∀ c ∈ trailer.head?, isDigit table c = false

variable {table : CharTable}

/-- The rendered body. -/
def Body.text (body : Body table) : List Char :=
  body.banner ++ ("WEBVAR_JSONVAR_".toList ++ (body.name ++ (body.beforeEquals ++ '=' ::
    (body.opening ++ ("WEBVAR_STRUCTNAME_".toList ++ (body.struct ++ (body.beforeColon ++ ':' ::
    (body.afterColon ++ (body.array ++ (body.between ++ ("HAPI_STATUS".toList ++
    (body.statusBefore ++ ':' :: (body.statusAfter ++ ((toString body.status).toList ++
    body.trailer))))))))))))))

/-- What the body says. -/
def Body.response (body : Body table) : WebVarResponse where
  variableName := String.ofList body.name
  structName := String.ofList body.struct
  records := body.records.map Record.literal
  hapiStatus := body.status

section Scan

/-- The scan passes over the text and is where it was. -/
def Passed (text : List Char) : Prop :=
  ∀ (depth : ℤ) (rest : List Char),
    scanFrom '[' ']' depth none false (text ++ rest) =
      (scanFrom '[' ']' depth none false rest).map fun found => (text ++ found.1, found.2)

theorem passed_nil : Passed [] := by
  intro depth rest
  simp

theorem Passed.append {left right : List Char} (first : Passed left) (second : Passed right) :
    Passed (left ++ right) := by
  intro depth rest
  rw [List.append_assoc, first, second, Option.map_map]
  simp only [Function.comp_def, List.append_assoc]

/-- Characters the scan has no use for outside strings. -/
def isBare (c : Char) : Bool :=
  !(c == '\'' || c == '"' || c == '[' || c == ']')

theorem Passed.cons {c : Char} {text : List Char} (bare : isBare c = true) (tail : Passed text) :
    Passed (c :: text) := by
  intro depth rest
  simp only [isBare, Bool.not_eq_true', Bool.or_eq_false_iff, beq_eq_false_iff_ne] at bare
  rw [List.cons_append, scanFrom, if_neg (by tauto), if_neg (by tauto), if_neg (by tauto), tail,
    pass, Option.map_map]
  rfl

theorem passed_of_bare {text : List Char} (bare : ∀ c ∈ text, isBare c = true) : Passed text := by
  induction text with
  | nil => exact passed_nil
  | cons c text ih =>
      rw [List.forall_mem_cons] at bare
      exact Passed.cons bare.1 (ih bare.2)

theorem passed_of_blank {text : List Char} (blank : isBlank text = true) : Passed text := by
  refine passed_of_bare ?_
  intro c mem
  have space := List.all_eq_true.mp blank c mem
  cases bare : isBare c with
  | true => rfl
  | false =>
      simp only [isBare, Bool.not_eq_false', Bool.or_eq_true, beq_iff_eq] at bare
      rcases bare with ((rfl | rfl) | rfl) | rfl <;> cases space

theorem toList_toString_int (value : ℤ) : (toString value).toList =
    if value < 0 then '-' :: Nat.toDigits 10 value.natAbs else Nat.toDigits 10 value.natAbs := by
  cases value with
  | ofNat n => simp [toString, Int.repr]
  | negSucc n => simp [toString, Int.repr]

theorem isBare_digit {c : Char} (isDigit : c.isDigit = true) : isBare c = true := by
  cases bare : isBare c with
  | true => rfl
  | false =>
      simp only [isBare, Bool.not_eq_false', Bool.or_eq_true, beq_iff_eq] at bare
      rcases bare with ((rfl | rfl) | rfl) | rfl <;> cases isDigit

theorem passed_int (value : ℤ) : Passed (toString value).toList := by
  have digits : ∀ c ∈ Nat.toDigits 10 value.natAbs, isBare c = true := fun c mem =>
    isBare_digit (Nat.isDigit_of_mem_toDigits (by decide) (by decide) mem)
  rw [toList_toString_int]
  split_ifs
  · exact Passed.cons (by decide) (passed_of_bare digits)
  · exact passed_of_bare digits

theorem hexDigitValue_plain {c : Char} {value : ℕ} (isDigit : hexDigitValue c = some value) :
    c ≠ '\\' ∧ c ≠ '\'' ∧ c ≠ '"' := by
  refine ⟨?_, ?_, ?_⟩ <;> rintro rfl <;> cases isDigit

theorem plain_of_mapM {digits : List Char} {values : List ℕ}
    (mapped : digits.mapM hexDigitValue = some values) :
    ∀ d ∈ digits, d ≠ '\\' ∧ d ≠ '\'' ∧ d ≠ '"' := by
  induction digits generalizing values with
  | nil => simp
  | cons digit digits ih =>
      rw [List.mapM_cons] at mapped
      cases first : hexDigitValue digit with
      | none =>
          rw [first] at mapped
          cases mapped
      | some value =>
          cases others : digits.mapM hexDigitValue with
          | none =>
              rw [first, others] at mapped
              cases mapped
          | some values' =>
              rw [List.forall_mem_cons]
              exact ⟨hexDigitValue_plain first, ih others⟩

/-- What stands behind a backslash: one character, then none that the scan of a string looks
at. -/
theorem unescape_shape {code : List Char} {c : Char} (isCode : unescape code = some c) :
    ∃ first tail, code = first :: tail ∧ ∀ d ∈ tail, d ≠ '\\' ∧ d ≠ '\'' ∧ d ≠ '"' := by
  have hex : ∀ digits : List Char, ∀ d : Char, (hexValue digits).map Char.ofNat = some d →
      ∀ d ∈ digits, d ≠ '\\' ∧ d ≠ '\'' ∧ d ≠ '"' := by
    intro digits d isValue
    rw [Option.map_eq_some_iff] at isValue
    rcases isValue with ⟨value, isValue, -⟩
    rw [hexValue, Option.map_eq_some_iff] at isValue
    rcases isValue with ⟨values, mapped, -⟩
    exact plain_of_mapM mapped
  unfold unescape at isCode
  split at isCode
  case h_10 a b => exact ⟨'x', [a, b], rfl, hex _ _ isCode⟩
  case h_11 a b c d => exact ⟨'u', [a, b, c, d], rfl, hex _ _ isCode⟩
  case h_12 => cases isCode
  all_goals exact ⟨_, [], rfl, by simp⟩

/-- The scan passes over the rest of a string. -/
theorem scanFrom_chars {quote : Char} (isQuote : quote = '\'' ∨ quote = '"')
    {chars text : List Char} (renders : RendersChars quote chars text) (depth : ℤ)
    (rest : List Char) :
    scanFrom '[' ']' depth (some quote) false (text ++ quote :: rest) =
      (scanFrom '[' ']' depth none false rest).map fun found =>
        (text ++ quote :: found.1, found.2) := by
  have notBackslash : quote ≠ '\\' := by
    rcases isQuote with rfl | rfl <;> decide
  have passPlain : ∀ {tail : List Char} (more : List Char),
      (∀ d ∈ tail, d ≠ '\\' ∧ d ≠ '\'' ∧ d ≠ '"') →
      scanFrom '[' ']' depth (some quote) false (tail ++ more) =
        (scanFrom '[' ']' depth (some quote) false more).map fun found =>
          (tail ++ found.1, found.2) := by
    intro tail more plain
    induction tail with
    | nil => simp
    | cons d tail ih =>
        rw [List.forall_mem_cons] at plain
        have notQuote : d ≠ quote := by
          rcases isQuote with rfl | rfl
          · exact plain.1.2.1
          · exact plain.1.2.2
        rw [List.cons_append, scanFrom, if_neg plain.1.1, if_neg notQuote, ih plain.2, pass,
          Option.map_map]
        rfl
  induction renders with
  | nil =>
      rw [List.nil_append, scanFrom, if_neg notBackslash, if_pos rfl]
      rfl
  | plain notQuote notBackslash' _ _ ih =>
      rw [List.cons_append, scanFrom, if_neg notBackslash', if_neg notQuote, ih, pass,
        Option.map_map]
      rfl
  | escape isCode _ ih =>
      rcases unescape_shape isCode with ⟨first, tail, rfl, plain⟩
      rw [List.cons_append, scanFrom, if_pos rfl, List.cons_append, List.cons_append, scanFrom,
        List.append_assoc, passPlain _ plain, ih, pass, pass, Option.map_map, Option.map_map,
        Option.map_map]
      simp only [Function.comp_def, List.cons_append, List.append_assoc]

theorem RendersString.passed {value : String} {text : List Char}
    (renders : RendersString value text) : Passed text := by
  intro depth rest
  cases renders with
  | quoted isQuote chars =>
      rw [List.cons_append, List.append_assoc, scanFrom, if_pos isQuote, List.singleton_append,
        scanFrom_chars isQuote chars, pass, Option.map_map]
      simp only [Function.comp_def, List.cons_append, List.append_assoc, List.nil_append]

theorem RendersValue.passed {value : Value} {text : List Char} (renders : RendersValue value text) :
    Passed text := by
  cases renders with
  | int value => exact passed_int value
  | str isString => exact isString.passed

theorem RendersEntry.passed {entry : String × Value} {text : List Char}
    (renders : RendersEntry entry text) : Passed text := by
  cases renders with
  | mk isKey isValue blank blank' =>
      refine isKey.passed.append ((passed_of_blank blank).append ?_)
      exact Passed.cons (by decide) ((passed_of_blank blank').append isValue.passed)

theorem RendersItems.passed {β : Type} {renders : β → List Char → Prop} {items : List β}
    {text : List Char} (each : ∀ item text, renders item text → Passed text)
    (isList : RendersItems renders items text) : Passed text := by
  induction isList with
  | nil blank => exact passed_of_blank blank
  | last blank isItem blank' =>
      exact (passed_of_blank blank).append ((each _ _ isItem).append (passed_of_blank blank'))
  | cons blank isItem blank' _ ih =>
      refine (passed_of_blank blank).append ((each _ _ isItem).append ?_)
      exact (passed_of_blank blank').append (Passed.cons (by decide) ih)

theorem RendersRecord.passed {record : Record} {text : List Char}
    (renders : RendersRecord record text) : Passed text := by
  cases renders with
  | mk entries =>
      refine Passed.cons (by decide) ((entries.passed fun _ _ => RendersEntry.passed).append ?_)
      exact Passed.cons (by decide) passed_nil

theorem RendersArray.starts {records : List Record} {array : List Char}
    (renders : RendersArray records array) : ∃ inner, array = '[' :: inner := by
  cases renders with
  | mk items => exact ⟨_, rfl⟩

/-- The scan finds the end of the array. -/
theorem RendersArray.scanMatchingBracket {records : List Record} {array : List Char}
    (renders : RendersArray records array) (rest : List Char) :
    scanMatchingBracket (array ++ rest) '[' ']' = some (array, rest) := by
  cases renders with
  | mk items =>
      have inner := items.passed fun _ _ => RendersRecord.passed
      rw [Webvar.scanMatchingBracket, if_neg (by simp), List.cons_append, List.append_assoc,
        scanFrom, if_neg (by decide), if_pos rfl, inner, List.singleton_append, scanFrom,
        if_neg (by decide), if_neg (by decide), if_pos rfl, if_pos (by omega), Option.map_some,
        pass, Option.map_some]

end Scan

section Searches

variable {expr : Expr} {prev : Option Char} {groups : ℕ → List Char}

/-- No match starts before the first place where the word stands that every match starts
with. -/
theorem search_marker {first : Char} {others : List Char} (unique : first ∉ others)
    {left : List Char} (absent : ¬ (first :: others) <:+: left) (right : List Char)
    (starts : right.head? = some first) :
    search (.seq (.word (first :: others) fun a b => a == b) expr) prev (left ++ right) =
      (search (.seq (.word (first :: others) fun a b => a == b) expr) (lastChar prev left)
        right).map fun found => (left ++ found.1, found.2) := by
  refine search_append_of_silent left right prev ?_
  rintro front glyph back rfl
  rw [matchAt_none_iff]
  intro taken rest groups split ways
  rcases ways with ⟨word, tail, _, rfl, ⟨spells, -⟩, -⟩
  rw [spells_beq_iff, map_char] at spells
  subst spells
  rcases right with _ | ⟨first', right⟩
  · cases starts
  · have same : first' = first := by simpa using starts
    subst same
    simp only [List.cons_append, List.append_assoc, List.cons.injEq] at split
    rcases split with ⟨rfl, split⟩
    rcases List.append_eq_append_iff.mp split with ⟨others', rfl, behind⟩ | ⟨back', rfl, -⟩
    · rcases others' with _ | ⟨first'', others'⟩
      · exact absent ⟨front, [], by simp⟩
      · rw [List.cons_append, List.cons.injEq] at behind
        rcases behind with ⟨rfl, -⟩
        exact unique (by simp)
    · exact absent ⟨front, back', by simp⟩

theorem isSpace_of_blank {gap : List Char} (blank : isBlank gap = true) :
    ∀ c ∈ gap, isSpace c = true :=
  List.all_eq_true.mp blank

/-- A declaration is matched as a whole. -/
theorem matchAt_declaration {marker : String} {sep : Char} {name gap : List Char}
    (nonempty : name ≠ []) (isName : ∀ c ∈ name, table.isWord c = true)
    (blank : isBlank gap = true) (sepNotWord : table.isWord sep = false)
    (sepNotSpace : isSpace sep = false) (rest : List Char) :
    matchAt (declarationRe table marker sep) prev
        (marker.toList ++ (name ++ (gap ++ sep :: rest))) =
      some ⟨some sep, rest, Function.update (fun _ => []) 1 name⟩ := by
  have spaces := isSpace_of_blank blank
  have notWord : ∀ c ∈ (gap ++ sep :: rest).head?, table.isWord c = false := by
    intro c isHead
    rcases gap with _ | ⟨space, gap⟩
    · rw [List.nil_append, List.head?_cons, Option.mem_some_iff] at isHead
      rwa [← isHead]
    · rw [List.cons_append, List.head?_cons, Option.mem_some_iff] at isHead
      rw [← isHead]
      exact table.isWord_of_space (spaces space (List.mem_cons_self ..))
  simp only [matchAt, declarationRe, Expr.chain]
  refine head?_results_seq ⟨lastChar prev marker.toList, name ++ (gap ++ sep :: rest),
      fun _ => []⟩ ?_
    (head?_results_seq ⟨lastChar (lastChar prev marker.toList) name, gap ++ sep :: rest,
      Function.update (fun _ => []) 1 name⟩ ?_
    (head?_results_seq ⟨lastChar (lastChar (lastChar prev marker.toList) name) gap, sep :: rest,
      Function.update (fun _ => []) 1 name⟩ ?_ ?_))
  · rw [exactly, results_word_spelled (spells_beq_iff.mpr (map_char _)), List.head?_cons]
  · refine head?_results_group ?_
    exact head?_results_many isName notWord (List.length_pos_iff.mpr nonempty)
  · exact head?_results_many spaces (by simpa using sepNotSpace) (Nat.zero_le _)
  · have spells : Spells (fun a b => a == b) [sep] [sep] := spells_beq_iff.mpr rfl
    have step := @results_word_spelled Char _
      (lastChar (lastChar (lastChar prev marker.toList) name) gap)
      (Function.update (fun _ => []) 1 name) [sep] rest _ _ spells
    rw [List.singleton_append] at step
    rw [step]
    rfl

/-- The search finds the declaration behind text without its marker. -/
theorem search_declaration {marker : String} {first : Char} {others : List Char}
    (marker_eq : marker.toList = first :: others) (unique : first ∉ others)
    {sep : Char} {left name gap : List Char} (absent : ¬ marker.toList <:+: left)
    (nonempty : name ≠ []) (isName : ∀ c ∈ name, table.isWord c = true)
    (blank : isBlank gap = true) (sepNotWord : table.isWord sep = false)
    (sepNotSpace : isSpace sep = false) (rest : List Char) :
    search (declarationRe table marker sep) prev
        (left ++ (marker.toList ++ (name ++ (gap ++ sep :: rest)))) =
      some (left, ⟨some sep, rest, Function.update (fun _ => []) 1 name⟩) := by
  have found := @matchAt_declaration table (lastChar prev left) marker sep name gap nonempty isName
    blank sepNotWord sepNotSpace rest
  have skipped := @search_marker (Expr.chain (.group 1 (.some table.isWord))
    [.many isSpace, Expr.word [sep] fun a b => a == b]) prev first others unique left
    (by rwa [← marker_eq]) (marker.toList ++ (name ++ (gap ++ sep :: rest)))
    (by simp [marker_eq])
  rw [declarationRe, Expr.chain, exactly, marker_eq]
  rw [declarationRe, Expr.chain, exactly, marker_eq] at found
  rw [marker_eq] at skipped
  rw [skipped, search_of_matchAt found]
  simp

theorem isDigit_ascii {c : Char} (ascii : c.toNat < 128) : isDigit table c = c.isDigit := by
  rw [isDigit, table.digit_ascii c ascii]
  cases c.isDigit <;> rfl

theorem ascii_digit {c : Char} (digit : c.isDigit = true) : c.toNat < 128 := by
  simp only [Char.isDigit, Bool.and_eq_true, decide_eq_true_eq, UInt32.le_iff_toNat_le] at digit
  exact Nat.lt_of_le_of_lt digit.2 (by decide)

theorem digits_toDigits (n : ℕ) : ∀ c ∈ Nat.toDigits 10 n, isDigit table c = true := by
  intro c mem
  have digit := Nat.isDigit_of_mem_toDigits (by decide) (by decide) mem
  rw [isDigit_ascii (ascii_digit digit), digit]

/-- The number of the status is matched as a whole. -/
theorem head?_results_number (status : ℤ) {trailer : List Char}
    (ends : ∀ c ∈ trailer.head?, isDigit table c = false) :
    (results (.seq (.opt fun c => c == '-') (.some (isDigit table)))
        ⟨prev, (toString status).toList ++ trailer, groups⟩).head? =
      some ⟨lastChar prev (toString status).toList, trailer, groups⟩ := by
  have positive := List.length_pos_iff.mpr (Nat.toDigits_ne_nil (n := status.natAbs) (b := 10))
  rw [toList_toString_int]
  split_ifs with negative
  · refine head?_results_seq ⟨some '-', Nat.toDigits 10 status.natAbs ++ trailer, groups⟩ ?_ ?_
    · rw [List.cons_append, results_opt_cons rfl]
      rfl
    · exact head?_results_many (digits_toDigits _) ends positive
  · refine head?_results_seq ⟨prev, Nat.toDigits 10 status.natAbs ++ trailer, groups⟩ ?_
      (head?_results_many (digits_toDigits _) ends positive)
    rw [Expr.opt, results_run_of_head, List.head?_cons]
    intro c isHead
    have digit : isDigit table c = true := by
      refine @digits_toDigits table status.natAbs c ?_
      cases digits : Nat.toDigits 10 status.natAbs with
      | nil => exact absurd digits Nat.toDigits_ne_nil
      | cons first others =>
          rw [digits, List.cons_append, List.head?_cons, Option.mem_some_iff] at isHead
          rw [← isHead]
          exact List.mem_cons_self ..
    cases dash : (char c == '-') with
    | false => rfl
    | true =>
        have same : c = '-' := by simpa using dash
        rw [same, isDigit_ascii (by decide)] at digit
        cases digit

theorem head?_number (status : ℤ) (trailer : List Char) :
    ∃ c, ((toString status).toList ++ trailer).head? = some c ∧ isSpace c = false := by
  rw [toList_toString_int]
  split_ifs
  · exact ⟨'-', rfl, by decide⟩
  · cases digits : Nat.toDigits 10 status.natAbs with
    | nil => exact absurd digits Nat.toDigits_ne_nil
    | cons first others =>
        refine ⟨first, rfl, ?_⟩
        have digit : first.isDigit = true :=
          Nat.isDigit_of_mem_toDigits (n := status.natAbs) (b := 10) (by decide) (by decide)
            (by rw [digits]; exact List.mem_cons_self ..)
        cases space : isSpace first with
        | false => rfl
        | true =>
            have notAlnum := asciiTable.isAlnum_space first space
            rw [asciiTable.isAlnum_ascii first (ascii_digit digit)] at notAlnum
            simp [Char.isAlphanum, digit] at notAlnum

/-- The status field is matched as a whole. -/
theorem matchAt_status {left right : List Char} (blank : isBlank left = true)
    (blank' : isBlank right = true) (status : ℤ) {trailer : List Char}
    (ends : ∀ c ∈ trailer.head?, isDigit table c = false) :
    ∃ last, matchAt (hapiStatusRe table) prev ("HAPI_STATUS".toList ++ (left ++ ':' ::
        (right ++ ((toString status).toList ++ trailer)))) =
      some ⟨last, trailer, Function.update (fun _ => []) 1 (toString status).toList⟩ := by
  rcases head?_number status trailer with ⟨first, isHead, notSpace⟩
  let marked := lastChar prev "HAPI_STATUS".toList
  let number := (toString status).toList
  refine ⟨lastChar (lastChar (some ':') right) number, ?_⟩
  simp only [matchAt, hapiStatusRe, Expr.chain]
  refine head?_results_seq ⟨marked, left ++ ':' :: (right ++ (number ++ trailer)), fun _ => []⟩ ?_
    (head?_results_seq ⟨lastChar marked left, ':' :: (right ++ (number ++ trailer)),
      fun _ => []⟩ ?_
    (head?_results_seq ⟨some ':', right ++ (number ++ trailer), fun _ => []⟩ ?_
    (head?_results_seq ⟨lastChar (some ':') right, number ++ trailer, fun _ => []⟩ ?_ ?_)))
  · rw [exactly, results_word_spelled (spells_beq_iff.mpr (map_char _)), List.head?_cons]
  · exact head?_results_many (isSpace_of_blank blank) (by simp; decide) (Nat.zero_le _)
  · have step := @results_word_spelled Char _ (lastChar marked left) (fun _ => []) [':']
      (right ++ (number ++ trailer)) (fun a b => a == b) ":".toList (spells_beq_iff.mpr (by simp))
    rw [List.singleton_append] at step
    rw [exactly, step]
    rfl
  · refine head?_results_many (isSpace_of_blank blank') ?_ (Nat.zero_le _)
    rw [isHead]
    simpa using notSpace
  · exact head?_results_group (head?_results_number status ends)

theorem statusMarker_eq : "HAPI_STATUS".toList = 'H' :: "API_STATUS".toList := by decide

/-- A match of the status field has one `H`, the first character. -/
theorem status_ways {taken rest : List Char}
    (ways : Ways (hapiStatusRe table) prev (fun _ => []) taken rest groups) :
    ∃ tail, taken = 'H' :: tail ∧ ∀ c ∈ tail, c ≠ 'H' := by
  simp only [hapiStatusRe, Expr.chain, Ways, exactly, ways_many, ways_opt, ways_some,
    spells_beq_iff, map_char] at ways
  rcases ways with ⟨word, _, _, rfl, ⟨rfl, rfl⟩, left, _, _, rfl, ⟨spaces, rfl⟩, colon, _, _, rfl,
    ⟨rfl, rfl⟩, right, _, _, rfl, ⟨spaces', rfl⟩, _, ⟨sign, digits, _, rfl, ⟨isSign, rfl⟩,
    ⟨isDigits, -⟩, rfl⟩, rfl⟩
  have notSpace : ∀ gap : List Char, (∀ c ∈ gap, isSpace c = true) → ∀ c ∈ gap, c ≠ 'H' := by
    rintro gap spaces c mem rfl
    exact absurd (spaces _ mem) (by decide)
  have marker : ∀ c ∈ "API_STATUS".toList, c ≠ 'H' := by simp
  refine ⟨"API_STATUS".toList ++ (left ++ (":".toList ++ (right ++ (sign ++ digits)))), ?_, ?_⟩
  · rw [statusMarker_eq, List.cons_append]
  · simp only [List.forall_mem_append]
    refine ⟨marker, notSpace left spaces, by simp, notSpace right spaces', ?_, ?_⟩
    · rcases isSign with rfl | ⟨c, isSign, rfl⟩
      · simp
      · have isDash : c = '-' := by simpa using isSign
        simp [isDash]
    · rintro c mem rfl
      have digit := isDigits _ mem
      rw [char_eq, isDigit_ascii (by decide)] at digit
      cases digit

/-- No match starts in text without a status field when the field follows. -/
theorem search_status {between : List Char}
    (plain : search (hapiStatusRe table) none between = none) {left right : List Char}
    (blank : isBlank left = true) (blank' : isBlank right = true) (status : ℤ)
    {trailer : List Char} (ends : ∀ c ∈ trailer.head?, isDigit table c = false) :
    ∃ last, search (hapiStatusRe table) none (between ++ ("HAPI_STATUS".toList ++ (left ++ ':' ::
        (right ++ ((toString status).toList ++ trailer))))) =
      some (between,
        ⟨last, trailer, Function.update (fun _ => []) 1 (toString status).toList⟩) := by
  rcases @matchAt_status table (lastChar none between) left right blank blank' status trailer
    ends with ⟨last, found⟩
  refine ⟨last, ?_⟩
  rw [search_append_of_silent between _ none, search_of_matchAt found]
  · simp
  · rintro front glyph back rfl
    rw [matchAt_none_iff]
    intro taken rest groups split ways
    have inside : ∃ behind, glyph :: back = taken ++ behind := by
      rcases status_ways ways with ⟨tail, rfl, plain'⟩
      rw [statusMarker_eq] at split
      simp only [List.cons_append, List.cons.injEq] at split
      rcases split with ⟨rfl, split⟩
      rcases append_eq_append_cons (P := fun c => c ≠ 'H') split.symm plain' (by simp) with
        ⟨behind, rfl, -⟩
      exact ⟨behind, rfl⟩
    rcases inside with ⟨behind, inside⟩
    have unmatched := @matchAt_of_search_none Char _ _ _ _ plain front (glyph :: back) rfl
    rw [matchAt_none_iff] at unmatched
    refine unmatched taken behind groups inside ?_
    simpa only [hapiStatusRe, Expr.chain, Ways, exactly, ways_many, ways_opt, ways_some] using ways

end Searches

section Results

theorem foldl_toDigits (n : ℕ) :
    (Nat.toDigits 10 n).foldl (fun n c => 10 * n + (table.digit c).getD 0) 0 = n := by
  have value := Nat.ofDigitChars_ten_toDigits (n := n)
  rw [Nat.ofDigitChars_eq_foldl] at value
  conv_rhs => rw [← value]
  refine List.foldl_ext _ _ _ ?_
  intro m c mem
  have digit := Nat.isDigit_of_mem_toDigits (n := n) (b := 10) (by decide) (by decide) mem
  rw [table.digit_ascii c (ascii_digit digit), if_pos digit]
  rfl

theorem length_toDigits_iff (n : ℕ) :
    maxStrDigits < (Nat.toDigits 10 n).length ↔ ¬ n < 10 ^ maxStrDigits := by
  rw [← Nat.not_le, Nat.length_toDigits_le_iff (by decide) (by decide)]

/-- `int` inverts the decimal form of a number that is not too long for it. -/
theorem int_toString (status : ℤ) :
    Webvar.int table (toString status).toList = .ok status ↔
      status.natAbs < 10 ^ maxStrDigits := by
  have notDash : (Nat.toDigits 10 status.natAbs).head? ≠ some '-' := by
    intro isDash
    have digit := Nat.isDigit_of_mem_toDigits (n := status.natAbs) (b := 10) (by decide)
      (by decide) (List.mem_of_head? isDash)
    cases digit
  rw [← not_iff_not, ← length_toDigits_iff, toList_toString_int]
  simp only [Webvar.int]
  by_cases negative : status < 0
  · have value : (-(status.natAbs : ℤ)) = status := by omega
    simp only [if_pos negative, List.head?_cons, if_true, List.tail_cons, foldl_toDigits, value]
    split_ifs with long <;> simp [long]
  · have value : (status.natAbs : ℤ) = status := by omega
    simp only [if_neg negative, if_neg notDash, foldl_toDigits, value]
    split_ifs with long <;> simp [long]

theorem dropSentinel_append (records : List (List (Literal × Literal))) :
    dropSentinel (records ++ [[]]) = records := by
  simp [dropSentinel]

theorem mapM_asDict (records : List (List (Literal × Literal))) :
    (records.map Literal.dict).mapM asDict = some records := by
  induction records with
  | nil => rfl
  | cons record records ih =>
      rw [List.map_cons, List.mapM_cons, ih]
      rfl

theorem isSpace_of_strip {text : List Char} (empty : strip text = []) :
    ∀ c ∈ text, isSpace c = true := by
  rw [strip, List.reverse_eq_nil_iff, List.dropWhile_eq_nil_iff] at empty
  have dropped : text.dropWhile isSpace = [] := by
    cases behind : text.dropWhile isSpace with
    | nil => rfl
    | cons c rest =>
        have notSpace := List.head?_dropWhile_not isSpace text
        rw [behind] at notSpace
        have space := empty c (by simp [behind])
        rw [List.head?_cons] at notSpace
        simp [space] at notSpace
  exact List.dropWhile_eq_nil_iff.mp dropped

/-- `parse_webvar` of a body finds all its parts; only the conversion of the status may fail. -/
theorem parseWebvar_body (literalEval : String → Option Literal) (body : Body table)
    (endpoint operation : Option String)
    (inverts : literalEval (String.ofList body.array) =
      some (.list ((body.records ++ [[]]).map fun record => .dict (Record.literal record)))) :
    parseWebvar table literalEval (String.ofList body.text) endpoint operation =
      (Webvar.int table (toString body.status).toList).map fun hapiStatus =>
        { body.response with hapiStatus } := by
  have blank := body.blank
  simp only [List.forall_mem_cons] at blank
  rcases blank with ⟨blankEquals, blankColon, blankArray, blankBefore, blankAfter, -⟩
  have notBlank : strip body.text ≠ [] := by
    intro empty
    have space := isSpace_of_strip empty 'W' (by simp [Body.text])
    exact absurd space (by decide)
  have equals : table.isWord '=' = false := by
    rw [table.isWord_ascii (by decide)]
    decide
  have colon : table.isWord ':' = false := by
    rw [table.isWord_ascii (by decide)]
    decide
  have jsonvar : "WEBVAR_JSONVAR_".toList = 'W' :: "EBVAR_JSONVAR_".toList := by decide
  have structname : "WEBVAR_STRUCTNAME_".toList = 'W' :: "EBVAR_STRUCTNAME_".toList := by decide
  have nameFound : search (jsonvarRe table) none body.text = _ :=
    search_declaration jsonvar (by decide) body.banner_plain body.name_nonempty body.name_isWord
      blankEquals equals (by decide) _
  have structFound := @search_declaration table (some '=') "WEBVAR_STRUCTNAME_" _ _ structname
    (by decide) ':' body.opening body.struct body.beforeColon body.opening_plain
    body.struct_nonempty body.struct_isWord blankColon colon (by decide)
  rcases body.isArray.starts with ⟨inner, array_eq⟩
  have arrayOn : ∀ rest, (body.afterColon ++ (body.array ++ rest)).dropWhile isSpace =
      body.array ++ rest := by
    intro rest
    rw [List.dropWhile_append_of_pos (isSpace_of_blank blankArray), array_eq]
    rfl
  have opened : ∀ rest, (body.array ++ rest).head? = some '[' := by
    intro rest
    rw [array_eq]
    rfl
  have scanned := body.isArray.scanMatchingBracket
  rcases search_status body.between_plain blankBefore blankAfter body.status body.trailer_plain with
    ⟨last, statusFound⟩
  have records : asRecords (.list ((body.records ++ [[]]).map fun record =>
      .dict (Record.literal record))) = some (body.records.map Record.literal ++ [[]]) := by
    have mapped := mapM_asDict ((body.records ++ [[]]).map Record.literal)
    rw [List.map_map] at mapped
    rw [asRecords]
    refine mapped.trans ?_
    rw [List.map_append]
    rfl
  simp only [parseWebvar, String.toList_ofList, if_neg notBlank, nameFound, structnameRe]
  rw [structFound]
  simp only [arrayOn, opened, scanned, inverts, records, statusFound]
  rw [if_neg (by simp), Function.update_self, Function.update_self, Function.update_self,
    dropSentinel_append]
  cases Webvar.int table (toString body.status).toList <;> rfl

theorem parsed_iff_int (literalEval : String → Option Literal) (body : Body table)
    (endpoint operation : Option String)
    (inverts : literalEval (String.ofList body.array) =
      some (.list ((body.records ++ [[]]).map fun record => .dict (Record.literal record)))) :
    parseWebvar table literalEval (String.ofList body.text) endpoint operation =
        .ok body.response ↔
      Webvar.int table (toString body.status).toList = .ok body.status := by
  rw [parseWebvar_body literalEval body endpoint operation inverts]
  cases Webvar.int table (toString body.status).toList with
  | error exn => simp [Except.map]
  | ok hapiStatus => simp [Except.map, Body.response]

end Results

end Webvar

open Webvar

/-- `parse_webvar` inverts the format, for every status that `int` converts. -/
theorem parseWebvar_text (table : CharTable) (literalEval : String → Option Literal)
    (body : Body table) (endpoint operation : Option String)
    (inverts : literalEval (String.ofList body.array) =
      some (.list ((body.records ++ [[]]).map fun record => .dict (Record.literal record)))) :
    parseWebvar table literalEval (String.ofList body.text) endpoint operation =
        .ok body.response ↔
      body.status.natAbs < 10 ^ maxStrDigits := by
  rw [parsed_iff_int literalEval body endpoint operation inverts, int_toString]

/-- A record whose value has a bracket and a quote in it. -/
def sampleRecord : Record :=
  [(String.ofList ['K'], .str (String.ofList [']', '\'']))]

def sampleArray : List Char :=
  "[\x7b'K': ']\\''\x7d,\x7b\x7d]".toList

theorem rendersArray_sample : RendersArray [sampleRecord] sampleArray := by
  have key : RendersString (String.ofList ['K']) "'K'".toList := by
    refine @RendersString.quoted '\'' _ ['K'] (.inl rfl) ?_
    rw [String.toList_ofList]
    exact .plain (by decide) (by decide) (by decide) .nil
  have value : RendersString (String.ofList [']', '\'']) "']\\''".toList := by
    refine @RendersString.quoted '\'' _ [']', '\\', '\''] (.inl rfl) ?_
    rw [String.toList_ofList]
    exact .plain (by decide) (by decide) (by decide)
      (@RendersChars.escape '\'' '\'' ['\''] [] [] rfl .nil)
  have entry : RendersEntry (String.ofList ['K'], .str (String.ofList [']', '\'']))
      "'K': ']\\''".toList :=
    @RendersEntry.mk _ _ "'K'".toList "']\\''".toList [] [' '] key (.str value) (by decide)
      (by decide)
  have record : RendersRecord sampleRecord "\x7b'K': ']\\''\x7d".toList :=
    .mk (@RendersItems.last _ _ _ [] _ [] (by decide) entry (by decide))
  have sentinel : RendersRecord [] "\x7b\x7d".toList :=
    .mk (@RendersItems.nil _ _ [] (by decide))
  have items : RendersItems RendersRecord ([sampleRecord] ++ [[]])
      "\x7b'K': ']\\''\x7d,\x7b\x7d".toList :=
    @RendersItems.cons _ _ _ _ _ [] _ [] _ (by decide) record (by decide)
      (@RendersItems.last _ _ _ [] _ [] (by decide) sentinel (by decide))
  exact .mk items

def sampleBody (status : ℤ) : Body asciiTable where
  banner := "// banner\n".toList
  name := ['L', 'O', 'G']
  beforeEquals := [' ']
  opening := "\n\x7b ".toList
  struct := ['L', 'O', 'G']
  beforeColon := [' ']
  afterColon := ['\n']
  records := [sampleRecord]
  array := sampleArray
  between := ",\n".toList
  statusBefore := []
  statusAfter := []
  status := status
  trailer := ['\x7d', ';']
  banner_plain := by decide +kernel
  name_nonempty := by decide +kernel
  name_isWord := List.all_eq_true.mp (by decide)
  opening_plain := by decide +kernel
  struct_nonempty := by decide +kernel
  struct_isWord := List.all_eq_true.mp (by decide)
  blank := by decide +kernel
  isArray := rendersArray_sample
  between_plain := by decide +kernel
  trailer_plain := by
    rintro c ⟨⟩
    decide

/-- `ast.literal_eval` as far as the sample goes. -/
def sampleEval (text : String) : Option Literal :=
  if text = String.ofList sampleArray then
    some (.list [.dict (Record.literal sampleRecord), .dict []])
  else none

theorem sampleEval_inverts (status : ℤ) :
    sampleEval (String.ofList (sampleBody status).array) =
      some (.list (((sampleBody status).records ++ [[]]).map fun record =>
        .dict (Record.literal record))) := by
  have same : (sampleBody status).array = sampleArray := rfl
  rw [sampleEval, same, if_pos rfl]
  rfl

theorem parseWebvar_text_sample :
    parseWebvar asciiTable sampleEval (String.ofList (sampleBody (-7)).text) none none =
        .ok (sampleBody (-7)).response ↔
      (sampleBody (-7)).status.natAbs < 10 ^ maxStrDigits :=
  parseWebvar_text asciiTable sampleEval (sampleBody (-7)) none none (sampleEval_inverts (-7))

/-- A status with one digit more than `int` converts. -/
theorem parseWebvar_long_status :
    ¬ ∀ (table : CharTable) (literalEval : String → Option Literal) (body : Body table)
      (endpoint operation : Option String),
      literalEval (String.ofList body.array) = some (.list ((body.records ++ [[]]).map
        fun record => .dict (Record.literal record))) →
      parseWebvar table literalEval (String.ofList body.text) endpoint operation =
        .ok body.response := by
  intro holds
  have parsed := holds asciiTable sampleEval (sampleBody ((10 ^ maxStrDigits : ℕ) : ℤ)) none none
    (sampleEval_inverts _)
  rw [parsed_iff_int _ _ _ _ (sampleEval_inverts _), int_toString] at parsed
  change Int.natAbs ((10 ^ maxStrDigits : ℕ) : ℤ) < 10 ^ maxStrDigits at parsed
  rw [Int.natAbs_natCast] at parsed
  exact lt_irrefl _ parsed

end Asmb8Ikvm
