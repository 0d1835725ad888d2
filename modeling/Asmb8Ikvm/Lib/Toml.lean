import Asmb8Ikvm.Lib.Numerals

/-!
# A fragment of TOML

A document is a list of tables, each named by one bare key, with entries under dotted bare
keys. The values are booleans, decimal integers, basic strings and arrays of basic strings
on one line. `read` reads such a document the way TOML 1.0 does and gives nothing for a
text outside of the fragment: comments, other forms of keys and values and escapes by code
point are left out.

Strings are written with the quotation mark and the backslash escaped and nothing else.
`parse_write` says what that is worth: the written lines are read back as they were meant,
or, as soon as one string holds a control character, not at all. No string can be read as
anything but itself.
-/

namespace Toml

abbrev Key := List Char

abbrev Path := List Key

inductive Value where
  | bool (value : Bool)
  | int (value : ℤ)
  | string (text : List Char)
  | strings (texts : List (List Char))
deriving DecidableEq, Repr

inductive Line where
  | blank
  | table (name : Key)
  | entry (path : Path) (value : Value)
deriving DecidableEq, Repr

/-- A table with its entries. -/
abbrev Table := Key × List (Path × Value)

/-- The characters that may not stand in a string as they are. -/
def isControl (c : Char) : Bool :=
  (c.toNat < 32 && c != '\t') || c.toNat == 127

/-- The characters of a bare key. -/
def isBare (c : Char) : Bool :=
  c.isAlphanum || c == '_' || c == '-'

def isBlank (c : Char) : Bool :=
  c == ' ' || c == '\t'

section Reading

/-- The character behind a backslash. -/
def unescape (c : Char) : Option Char :=
  if c = 'b' then some (Char.ofNat 8)
  else if c = 't' then some '\t'
  else if c = 'n' then some '\n'
  else if c = 'f' then some (Char.ofNat 12)
  else if c = 'r' then some '\r'
  else if c = '"' then some '"'
  else if c = '\\' then some '\\'
  else none

/-- A basic string behind its opening quotation mark, and what follows it. -/
def readString : List Char → Option (List Char × List Char)
  | [] => none
  | '"' :: rest => some ([], rest)
  | '\\' :: [] => none
  | '\\' :: mark :: rest => do
      let c ← unescape mark
      let (text, rest) ← readString rest
      return (c :: text, rest)
  | c :: rest =>
      if isControl c then none
      else do
        let (text, rest) ← readString rest
        return (c :: text, rest)

/-- An array of strings behind its opening bracket; a comma may follow the last one. -/
def readStrings : ℕ → List Char → Option (List (List Char) × List Char)
  | 0, _ => none
  | fuel + 1, text =>
      match text.dropWhile isBlank with
      | ']' :: rest => some ([], rest)
      | '"' :: rest => do
          let (first, rest) ← readString rest
          match rest.dropWhile isBlank with
          | ']' :: rest => return ([first], rest)
          | ',' :: rest => do
              let (others, rest) ← readStrings fuel rest
              return (first :: others, rest)
          | _ => none
      | _ => none

/-- A decimal integer. Zeros may not lead. -/
def readInt (word : List Char) : Option ℤ :=
  let (negative, digits) := PyText.splitSign word
  if digits = [] ∨ ¬ digits.all Char.isDigit ∨ (digits.head? = some '0' ∧ digits ≠ ['0']) then none
  else
    let value : ℕ := Nat.ofDigitChars 10 digits 0
    some (if negative then -(value : ℤ) else value)

/-- The characters of a value that is neither a string nor an array. -/
def isWord (c : Char) : Bool :=
  isBare c || c == '+'

def readValue : List Char → Option (Value × List Char)
  | '"' :: rest => (readString rest).map fun (text, rest) => (.string text, rest)
  | '[' :: rest => (readStrings rest.length rest).map fun (texts, rest) => (.strings texts, rest)
  | text =>
      let word := text.takeWhile isWord
      let rest := text.dropWhile isWord
      if word = "true".toList then some (.bool true, rest)
      else if word = "false".toList then some (.bool false, rest)
      else (readInt word).map fun value => (.int value, rest)

/-- A dotted key, without blanks around the dots. -/
def readPath (text : List Char) : Option (Path × List Char) :=
  let inPath := fun c => isBare c || c == '.'
  let path := (text.takeWhile inPath).splitOn '.'
  if path.any List.isEmpty then none else some (path, text.dropWhile inPath)

def endLine (text : List Char) : Option (List Char) :=
  match text.dropWhile isBlank with
  | [] => some []
  | '\n' :: rest => some rest
  | _ => none

def readHeader (text : List Char) : Option (Line × List Char) :=
  let name := text.takeWhile isBare
  match text.dropWhile isBare with
  | ']' :: rest => if name = [] then none else (endLine rest).map fun rest => (.table name, rest)
  | _ => none

def readEntry (text : List Char) : Option (Line × List Char) := do
  let (path, rest) ← readPath text
  match rest.dropWhile isBlank with
  | '=' :: rest => do
      let (value, rest) ← readValue (rest.dropWhile isBlank)
      let rest ← endLine rest
      return (.entry path value, rest)
  | _ => none

def readLine (text : List Char) : Option (Line × List Char) :=
  match text.dropWhile isBlank with
  | [] => some (.blank, [])
  | '\n' :: rest => some (.blank, rest)
  | '[' :: rest => readHeader rest
  | text => readEntry text

def parseLines : ℕ → List Char → Option (List Line)
  | _, [] => some []
  | 0, _ => none
  | fuel + 1, text => do
      let (line, rest) ← readLine text
      let lines ← parseLines fuel rest
      return line :: lines

/-- The lines of a text. A line takes at least one character. -/
def parse (text : List Char) : Option (List Line) :=
  parseLines text.length text

/-- The entries before the first header, and the tables. -/
def gather : List Line → List (Path × Value) × List Table
  | [] => ([], [])
  | .blank :: lines => gather lines
  | .entry path value :: lines => ((path, value) :: (gather lines).1, (gather lines).2)
  | .table name :: lines => ([], (name, (gather lines).1) :: (gather lines).2)

/-- Neither path leads through the other. -/
def Apart (path other : Path) : Prop :=
  ¬ path <+: other ∧ ¬ other <+: path

/-- A table defines no key twice and none both as a value and as a table of its own. -/
def Table.Consistent (table : Table) : Prop :=
  (table.2.map Prod.fst).Pairwise Apart

/-- The tables of a document that is well formed. -/
def Consistent (tables : List Table) : Prop :=
  (tables.map Prod.fst).Nodup ∧ ∀ table ∈ tables, table.Consistent

instance (path other : Path) : Decidable (Apart path other) :=
  inferInstanceAs (Decidable (_ ∧ _))

instance (table : Table) : Decidable table.Consistent :=
  inferInstanceAs (Decidable (List.Pairwise _ _))

instance (tables : List Table) : Decidable (Consistent tables) :=
  inferInstanceAs (Decidable (_ ∧ _))

/-- The tables of a document. -/
def read (text : List Char) : Option (List Table) := do
  let lines ← parse text
  let (loose, tables) := gather lines
  if loose = [] ∧ Consistent tables then some tables else none

end Reading

section Writing

def escapeChar (c : Char) : List Char :=
  if c = '"' then ['\\', '"'] else if c = '\\' then ['\\', '\\'] else [c]

def escape (text : List Char) : List Char :=
  text.flatMap escapeChar

def quote (text : List Char) : List Char :=
  '"' :: escape text ++ ['"']

/-- An array behind its opening bracket. -/
def writeStrings : List (List Char) → List Char
  | [] => [']']
  | [text] => quote text ++ [']']
  | text :: other :: texts => quote text ++ ',' :: ' ' :: writeStrings (other :: texts)

def Value.write : Value → List Char
  | .bool true => "true".toList
  | .bool false => "false".toList
  | .int value => (toString value).toList
  | .string text => quote text
  | .strings texts => '[' :: writeStrings texts

def Line.write : Line → List Char
  | .blank => ['\n']
  | .table name => '[' :: name ++ [']', '\n']
  | .entry path value => ['.'].intercalate path ++ ' ' :: '=' :: ' ' :: value.write ++ ['\n']

end Writing

/-- No control character but the tab. -/
def isClean (text : List Char) : Bool :=
  text.all fun c => !isControl c

def Value.isClean : Value → Bool
  | .bool _ => true
  | .int _ => true
  | .string text => Toml.isClean text
  | .strings texts => texts.all Toml.isClean

def Line.isClean : Line → Bool
  | .blank => true
  | .table _ => true
  | .entry _ value => value.isClean

/-- A key that needs no quotation marks. -/
def BareKey (key : Key) : Prop :=
  key ≠ [] ∧ ∀ c ∈ key, isBare c = true

/-- The keys of the line need no quotation marks. -/
def Line.Keyed : Line → Prop
  | .blank => True
  | .table name => BareKey name
  | .entry path _ => path ≠ [] ∧ ∀ key ∈ path, BareKey key

section Strings

theorem isControl_quote : isControl '"' = false := by decide

theorem isControl_backslash : isControl '\\' = false := by decide

theorem escape_cons (c : Char) (text : List Char) :
    escape (c :: text) = escapeChar c ++ escape text := by
  rw [escape, List.flatMap_cons, escape]

theorem isClean_cons (c : Char) (text : List Char) :
    isClean (c :: text) = (!isControl c && isClean text) := by
  rw [isClean, List.all_cons, isClean]

theorem readString_cons {c : Char} (noQuote : c ≠ '"') (noBackslash : c ≠ '\\')
    (rest : List Char) :
    readString (c :: rest) =
      if isControl c then none
      else do
        let (text, rest) ← readString rest
        return (c :: text, rest) := by
  rw [readString]
  · exact noQuote
  · exact fun same _ => noBackslash same
  · exact fun _ _ same _ => noBackslash same

/-- An escaped string ends where it was meant to end. -/
theorem readString_escape (text rest : List Char) :
    readString (escape text ++ '"' :: rest) = if isClean text then some (text, rest) else none := by
  induction text with
  | nil => rfl
  | cons c text ih =>
      rw [escape_cons, isClean_cons, List.append_assoc]
      by_cases isQuote : c = '"'
      · subst isQuote
        change (do
          let c ← some '"'
          let (text, rest) ← readString (escape text ++ '"' :: rest)
          return (c :: text, rest)) = _
        rw [ih, isControl_quote, Bool.not_false, Bool.true_and]
        split_ifs <;> rfl
      by_cases isBackslash : c = '\\'
      · subst isBackslash
        change (do
          let c ← some '\\'
          let (text, rest) ← readString (escape text ++ '"' :: rest)
          return (c :: text, rest)) = _
        rw [ih, isControl_backslash, Bool.not_false, Bool.true_and]
        split_ifs <;> rfl
      rw [escapeChar, if_neg isQuote, if_neg isBackslash, List.singleton_append,
        readString_cons isQuote isBackslash, ih]
      cases control : isControl c with
      | true => rfl
      | false =>
          rw [if_neg Bool.false_ne_true, Bool.not_false, Bool.true_and]
          split_ifs <;> rfl

theorem readStrings_writeStrings (texts : List (List Char)) (rest : List Char) {fuel : ℕ}
    (enough : texts.length < fuel) :
    readStrings fuel (writeStrings texts ++ rest) =
      if texts.all isClean then some (texts, rest) else none := by
  induction texts generalizing fuel with
  | nil =>
      obtain ⟨fuel, rfl⟩ : ∃ n, fuel = n + 1 := ⟨fuel - 1, by omega⟩
      rfl
  | cons text texts ih =>
      obtain ⟨fuel, rfl⟩ : ∃ n, fuel = n + 1 := ⟨fuel - 1, by omega⟩
      rw [List.length_cons, Nat.add_lt_add_iff_right] at enough
      rcases texts with _ | ⟨other, texts⟩
      · have first : writeStrings [text] ++ rest =
            '"' :: (escape text ++ '"' :: (']' :: rest)) := by
          simp [writeStrings, quote]
        rw [first]
        change (do
          let (first, rest) ← readString (escape text ++ '"' :: (']' :: rest))
          match rest.dropWhile isBlank with
          | ']' :: rest => return ([first], rest)
          | ',' :: rest => do
              let (others, rest) ← readStrings fuel rest
              return (first :: others, rest)
          | _ => none) = _
        rw [readString_escape, List.all_cons, List.all_nil, Bool.and_true]
        split_ifs <;> rfl
      · have first : writeStrings (text :: other :: texts) ++ rest =
            '"' :: (escape text ++
              '"' :: (',' :: ' ' :: (writeStrings (other :: texts) ++ rest))) := by
          simp [writeStrings, quote]
        rw [first]
        change (do
          let (first, rest) ← readString
            (escape text ++ '"' :: (',' :: ' ' :: (writeStrings (other :: texts) ++ rest)))
          match rest.dropWhile isBlank with
          | ']' :: rest => return ([first], rest)
          | ',' :: rest => do
              let (others, rest) ← readStrings fuel rest
              return (first :: others, rest)
          | _ => none) = _
        have skipped : readStrings fuel (' ' :: (writeStrings (other :: texts) ++ rest)) =
            readStrings fuel (writeStrings (other :: texts) ++ rest) := by
          cases fuel with
          | zero => rfl
          | succ fuel => rfl
        rw [readString_escape, List.all_cons]
        cases clean : isClean text with
        | false => rfl
        | true =>
            change (do
              let (others, rest) ← readStrings fuel (' ' :: (writeStrings (other :: texts) ++ rest))
              return (text :: others, rest)) = _
            rw [skipped, ih enough, Bool.true_and]
            split_ifs <;> rfl

theorem length_lt_writeStrings (texts : List (List Char)) :
    texts.length < (writeStrings texts).length := by
  fun_induction writeStrings texts with
  | case1 => exact Nat.zero_lt_one
  | case2 text => simp [quote]
  | case3 text other texts ih =>
      simp only [List.length_append, List.length_cons, quote] at ih ⊢
      omega

end Strings

section Words

theorem isWord_digit {c : Char} (digit : c.isDigit = true) : isWord c = true := by
  simp [isWord, isBare, Char.isAlphanum, digit]

/-- No zero leads a positive number. -/
theorem head?_toDigits {n : ℕ} (positive : 0 < n) : (Nat.toDigits 10 n).head? ≠ some '0' := by
  induction n using Nat.strongRecOn with
  | _ n ih =>
      rw [Nat.toDigits_eq_if (by decide)]
      split_ifs with small
      · interval_cases n <;> decide
      · have nonempty : Nat.toDigits 10 (n / 10) ≠ [] :=
          List.ne_nil_of_length_pos Nat.length_toDigits_pos
        rw [List.head?_append_of_ne_nil _ nonempty]
        exact ih (n / 10) (by omega) (by omega)

theorem toDigits_plain {n : ℕ} :
    ¬ (Nat.toDigits 10 n = [] ∨ ¬ (Nat.toDigits 10 n).all Char.isDigit ∨
      ((Nat.toDigits 10 n).head? = some '0' ∧ Nat.toDigits 10 n ≠ ['0'])) := by
  rintro (empty | (other | ⟨zero, long⟩))
  · exact List.ne_nil_of_length_pos Nat.length_toDigits_pos empty
  · exact other (List.all_eq_true.mpr fun c mem =>
      Nat.isDigit_of_mem_toDigits (by decide) (by decide) mem)
  · rcases Nat.eq_zero_or_pos n with rfl | positive
    · exact long rfl
    · exact head?_toDigits positive zero

theorem toList_int (value : ℤ) : (toString value).toList =
    if value < 0 then '-' :: Nat.toDigits 10 value.natAbs else Nat.toDigits 10 value.natAbs := by
  cases value with
  | ofNat n => simp [toString, Int.repr]
  | negSucc n => simp [toString, Int.repr]

theorem readInt_toString (value : ℤ) : readInt (toString value).toList = some value := by
  have digits : ∀ c ∈ Nat.toDigits 10 value.natAbs, c.isDigit = true := fun c mem =>
    Nat.isDigit_of_mem_toDigits (by decide) (by decide) mem
  rw [toList_int, readInt]
  split_ifs with negative
  · rw [show PyText.splitSign ('-' :: Nat.toDigits 10 value.natAbs) =
      (true, Nat.toDigits 10 value.natAbs) from rfl]
    dsimp only
    rw [if_neg toDigits_plain, Nat.ofDigitChars_ten_toDigits, if_pos rfl]
    congr 1
    omega
  · rw [PyText.splitSign_digits digits]
    dsimp only
    rw [if_neg toDigits_plain, Nat.ofDigitChars_ten_toDigits, if_neg Bool.false_ne_true]
    congr 1
    omega

theorem isWord_toString (value : ℤ) : ∀ c ∈ (toString value).toList, isWord c = true := by
  have digits : ∀ c ∈ Nat.toDigits 10 value.natAbs, isWord c = true := fun c mem =>
    isWord_digit (Nat.isDigit_of_mem_toDigits (by decide) (by decide) mem)
  rw [toList_int]
  split_ifs
  · exact List.forall_mem_cons.mpr ⟨by decide, digits⟩
  · exact digits

/-- The number is not taken for another kind of value. -/
theorem exists_toString (value : ℤ) :
    ∃ c word, (toString value).toList = c :: word ∧ c ≠ '"' ∧ c ≠ '[' ∧ c ≠ 't' ∧ c ≠ 'f' := by
  rw [toList_int]
  split_ifs
  · exact ⟨'-', _, rfl, by decide⟩
  · rcases shape : Nat.toDigits 10 value.natAbs with _ | ⟨c, word⟩
    · exact absurd shape (List.ne_nil_of_length_pos Nat.length_toDigits_pos)
    · have digit : c.isDigit = true := by
        refine Nat.isDigit_of_mem_toDigits (n := value.natAbs) (b := 10) (by decide) (by decide) ?_
        rw [shape]
        exact List.mem_cons_self ..
      refine ⟨c, word, rfl, ?_, ?_, ?_, ?_⟩ <;> rintro rfl <;> cases digit

end Words

section Paths

variable {key other : Key} {path rest : Path}

theorem apart_cons (differ : key ≠ other) : Apart (key :: path) (other :: rest) :=
  ⟨fun isPrefix => differ (List.cons_prefix_cons.mp isPrefix).1,
    fun isPrefix => differ (List.cons_prefix_cons.mp isPrefix).1.symm⟩

theorem apart_cons_self : Apart (key :: path) (key :: rest) ↔ Apart path rest := by
  simp [Apart]

theorem apart_singleton : Apart [key] [other] ↔ key ≠ other := by
  refine ⟨?_, apart_cons⟩
  rintro ⟨noPrefix, -⟩ rfl
  exact noPrefix List.prefix_rfl

end Paths

section Lines

variable {line : Line}

/-- A word up to the end of the line. -/
theorem takeWhile_word {word : List Char} {p : Char → Bool}
    (inside : ∀ c ∈ word, p c = true) (stop : Char) (outside : p stop = false)
    (rest : List Char) :
    (word ++ stop :: rest).takeWhile p = word ∧
      (word ++ stop :: rest).dropWhile p = stop :: rest := by
  rw [List.takeWhile_append_of_pos inside, List.dropWhile_append_of_pos inside,
    List.takeWhile_cons_of_neg (by rw [outside]; exact Bool.false_ne_true),
    List.dropWhile_cons_of_neg (by rw [outside]; exact Bool.false_ne_true), List.append_nil]
  exact ⟨rfl, rfl⟩

theorem readValue_int (value : ℤ) (rest : List Char) :
    readValue ((toString value).toList ++ '\n' :: rest) = some (.int value, '\n' :: rest) := by
  rcases exists_toString value with ⟨c, word, shape, noQuote, noBracket, noTrue, noFalse⟩
  have whole := takeWhile_word (isWord_toString value) '\n' (by decide) rest
  have isNumber := readInt_toString value
  rw [shape] at whole isNumber ⊢
  have others : c :: word ≠ "true".toList ∧ c :: word ≠ "false".toList :=
    ⟨fun same => noTrue (List.cons.inj same).1, fun same => noFalse (List.cons.inj same).1⟩
  rw [List.cons_append] at whole ⊢
  unfold readValue
  split
  · exact absurd (List.cons.inj ‹_›).1 noQuote
  · exact absurd (List.cons.inj ‹_›).1 noBracket
  · rw [whole.1, whole.2]
    dsimp only
    rw [if_neg others.1, if_neg others.2, isNumber]
    rfl

/-- A written value is read as itself or not at all. -/
theorem readValue_write (value : Value) (rest : List Char) :
    readValue (value.write ++ '\n' :: rest) =
      if value.isClean then some (value, '\n' :: rest) else none := by
  cases value with
  | bool value => cases value <;> rfl
  | int value => exact readValue_int value rest
  | string text =>
      change readValue ('"' :: (escape text ++ ['"']) ++ '\n' :: rest) =
        if isClean text then _ else _
      rw [List.cons_append, List.append_assoc, List.singleton_append]
      change (readString _).map _ = _
      rw [readString_escape]
      split_ifs <;> rfl
  | strings texts =>
      change (readStrings _ (writeStrings texts ++ '\n' :: rest)).map _ =
        if texts.all isClean then _ else _
      have enough := length_lt_writeStrings texts
      rw [readStrings_writeStrings texts]
      · split_ifs <;> rfl
      · change texts.length < (writeStrings texts ++ '\n' :: rest).length
        rw [List.length_append]
        omega

theorem mem_intercalate {c sep : Char} {path : Path} (mem : c ∈ [sep].intercalate path) :
    c = sep ∨ ∃ key ∈ path, c ∈ key := by
  induction path with
  | nil => cases mem
  | cons key path ih =>
      rcases path with _ | ⟨other, path⟩
      · exact .inr ⟨key, List.mem_cons_self .., by simpa using mem⟩
      · simp only [List.intercalate_cons_cons, List.mem_append, List.mem_singleton] at mem
        rcases mem with (inKey | atSep) | further
        · exact .inr ⟨key, List.mem_cons_self .., inKey⟩
        · exact .inl atSep
        · rcases ih further with atSep | ⟨key', mem', inKey⟩
          · exact .inl atSep
          · exact .inr ⟨key', List.mem_cons_of_mem _ mem', inKey⟩

theorem readPath_intercalate {path : Path} (nonempty : path ≠ [])
    (bare : ∀ key ∈ path, BareKey key) (rest : List Char) :
    readPath (['.'].intercalate path ++ ' ' :: rest) = some (path, ' ' :: rest) := by
  have inPath : ∀ c ∈ ['.'].intercalate path, (isBare c || c == '.') = true := by
    intro c mem
    rcases mem_intercalate mem with rfl | ⟨key, memKey, inKey⟩
    · decide
    · rw [(bare key memKey).2 c inKey, Bool.true_or]
  have whole := takeWhile_word inPath ' ' (by decide) rest
  have split : (['.'].intercalate path).splitOn '.' = path := by
    refine List.splitOn_intercalate '.' ?_ nonempty
    intro key mem dot
    exact absurd ((bare key mem).2 '.' dot) (by decide)
  have noEmpty : ¬ path.any List.isEmpty = true := by
    simp only [List.any_eq_true, List.isEmpty_iff, not_exists, not_and]
    exact fun key mem => (bare key mem).1
  unfold readPath
  dsimp only
  rw [whole.1, whole.2, split, if_neg noEmpty]

theorem head_intercalate {path : Path} (nonempty : path ≠ [])
    (bare : ∀ key ∈ path, BareKey key) :
    ∃ c tail, ['.'].intercalate path = c :: tail ∧ isBare c = true := by
  rcases path with _ | ⟨key, path⟩
  · exact absurd rfl nonempty
  · rcases key with _ | ⟨c, key⟩
    · exact absurd rfl (bare [] (List.mem_cons_self ..)).1
    · have first : isBare c = true := (bare _ (List.mem_cons_self ..)).2 c (List.mem_cons_self ..)
      exact ⟨c, _, List.intercalate_cons_cons_left, first⟩

theorem readEntry_write {path : Path} (nonempty : path ≠ []) (bare : ∀ key ∈ path, BareKey key)
    (value : Value) (rest : List Char) :
    readEntry (['.'].intercalate path ++ ' ' :: '=' :: ' ' :: (value.write ++ '\n' :: rest)) =
      if value.isClean then some (.entry path value, rest) else none := by
  have blank : (' ' :: (value.write ++ '\n' :: rest)).dropWhile isBlank =
      (value.write ++ '\n' :: rest).dropWhile isBlank := rfl
  have solid : (value.write ++ '\n' :: rest).dropWhile isBlank = value.write ++ '\n' :: rest := by
    cases value with
    | bool value => cases value <;> rfl
    | int value =>
        rcases exists_toString value with ⟨c, word, shape, -⟩
        have first := isWord_toString value c (by rw [shape]; exact List.mem_cons_self ..)
        have noBlank : isBlank c = false := by
          cases blank : isBlank c with
          | false => rfl
          | true =>
              simp only [isBlank, Bool.or_eq_true, beq_iff_eq] at blank
              rcases blank with rfl | rfl <;> cases first
        change ((toString value).toList ++ '\n' :: rest).dropWhile isBlank =
          (toString value).toList ++ '\n' :: rest
        rw [shape, List.cons_append,
          List.dropWhile_cons_of_neg (by rw [noBlank]; exact Bool.false_ne_true)]
    | string text => rfl
    | strings texts => rfl
  unfold readEntry
  rw [readPath_intercalate nonempty bare]
  change (do
    let (value, rest) ← readValue ((' ' :: (value.write ++ '\n' :: rest)).dropWhile isBlank)
    let rest ← endLine rest
    return (Line.entry path value, rest)) = _
  rw [blank, solid, readValue_write]
  split_ifs <;> rfl

/-- A written line is read as itself or not at all. -/
theorem readLine_write (keyed : line.Keyed) (rest : List Char) :
    readLine (line.write ++ rest) = if line.isClean then some (line, rest) else none := by
  cases line with
  | blank => rfl
  | table name =>
      have whole := takeWhile_word keyed.2 ']' (by decide) ('\n' :: rest)
      have shape : (Line.table name).write ++ rest = '[' :: (name ++ ']' :: '\n' :: rest) := by
        simp [Line.write]
      rw [shape]
      change readHeader (name ++ ']' :: '\n' :: rest) = some (.table name, rest)
      unfold readHeader
      dsimp only
      rw [whole.1, whole.2]
      simp only [if_neg keyed.1]
      rfl
  | entry path value =>
      have shape : (Line.entry path value).write ++ rest =
          ['.'].intercalate path ++ ' ' :: '=' :: ' ' :: (value.write ++ '\n' :: rest) := by
        simp [Line.write]
      rcases head_intercalate keyed.1 keyed.2 with ⟨c, tail, split, bare⟩
      have entry := readEntry_write keyed.1 keyed.2 value rest
      have others : isBlank c = false ∧ c ≠ '\n' ∧ c ≠ '[' := by
        refine ⟨?_, ?_, ?_⟩
        · cases blank : isBlank c with
          | false => rfl
          | true =>
              simp only [isBlank, Bool.or_eq_true, beq_iff_eq] at blank
              rcases blank with rfl | rfl <;> cases bare
        · rintro rfl
          cases bare
        · rintro rfl
          cases bare
      rw [shape]
      rw [split, List.cons_append] at entry ⊢
      unfold readLine
      rw [List.dropWhile_cons_of_neg (by rw [others.1]; exact Bool.false_ne_true)]
      split
      · cases ‹c :: _ = []›
      · exact absurd (List.cons.inj ‹_›).1 others.2.1
      · exact absurd (List.cons.inj ‹_›).1 others.2.2
      · exact entry

theorem write_ne_nil (line : Line) : line.write ≠ [] := by
  cases line <;> simp [Line.write]

theorem parseLines_write {lines : List Line} (keyed : ∀ line ∈ lines, line.Keyed) {fuel : ℕ}
    (enough : lines.length ≤ fuel) :
    parseLines fuel (lines.flatMap Line.write) =
      if lines.all Line.isClean then some lines else none := by
  induction lines generalizing fuel with
  | nil => cases fuel <;> rfl
  | cons line lines ih =>
      rw [List.length_cons] at enough
      obtain ⟨fuel, rfl⟩ : ∃ n, fuel = n + 1 := ⟨fuel - 1, by omega⟩
      rw [Nat.add_le_add_iff_right] at enough
      rw [List.forall_mem_cons] at keyed
      have nonempty : line.write ++ lines.flatMap Line.write ≠ [] := by simp [write_ne_nil]
      rw [List.flatMap_cons, parseLines, readLine_write keyed.1, List.all_cons]
      · cases line.isClean with
        | false => rfl
        | true =>
            rw [if_pos rfl, Option.bind_eq_bind, Option.bind_some]
            dsimp only
            rw [ih keyed.2 enough, Bool.true_and]
            split_ifs <;> rfl
      · exact nonempty

theorem length_le_write (lines : List Line) : lines.length ≤ (lines.flatMap Line.write).length := by
  induction lines with
  | nil => exact le_rfl
  | cons line lines ih =>
      have positive := List.length_pos_of_ne_nil (write_ne_nil line)
      rw [List.flatMap_cons, List.length_append, List.length_cons]
      omega

/-- What is written is read as it was meant or not at all. -/
theorem parse_write {lines : List Line} (keyed : ∀ line ∈ lines, line.Keyed) :
    parse (lines.flatMap Line.write) = if lines.all Line.isClean then some lines else none :=
  parseLines_write keyed (length_le_write lines)

theorem read_write {lines : List Line} (keyed : ∀ line ∈ lines, line.Keyed)
    (headed : (gather lines).1 = []) :
    read (lines.flatMap Line.write) =
      if lines.all Line.isClean ∧ Consistent (gather lines).2 then some (gather lines).2
      else none := by
  unfold read
  rw [parse_write keyed]
  by_cases clean : lines.all Line.isClean = true
  · rw [if_pos clean, Option.bind_eq_bind, Option.bind_some]
    simp only [headed, true_and, clean]
  · rw [if_neg clean, if_neg fun both => clean both.1]
    rfl

end Lines

end Toml
