import Asmb8Ikvm.Lib.Bytes

/-!
# Text operations of the Python standard library

The few operations on strings and on the printed form of byte strings that error
texts and packet fields are made of: ASCII encoding and decoding, stripping of
white space, lower case, search, hexadecimal formatting and the `repr` of a byte
string.
-/

namespace PyText

/-- The characters `str.isspace` accepts. -/
def isSpace (c : Char) : Bool :=
  let code := c.toNat
  (9 ≤ code && code ≤ 13) || (28 ≤ code && code ≤ 32) || code == 0x85 || code == 0xA0 ||
    code == 0x1680 || (0x2000 ≤ code && code ≤ 0x200A) || code == 0x2028 || code == 0x2029 ||
    code == 0x202F || code == 0x205F || code == 0x3000

/-- What regular expressions ask the Unicode database: `str.isalnum` and the value of a
decimal digit. Every table agrees with ASCII, a digit is alphanumeric and white space is
not. -/
structure CharTable where
  isAlnum : Char → Bool
  digit : Char → Option ℕ
  isAlnum_ascii : ∀ c, c.toNat < 128 → isAlnum c = c.isAlphanum
  digit_ascii : ∀ c, c.toNat < 128 →
    digit c = if c.isDigit then some (c.toNat - 48) else none
  isAlnum_digit : ∀ c, (digit c).isSome → isAlnum c
  isAlnum_space : ∀ c, isSpace c → isAlnum c = false

/-- The class `\w`. -/
def CharTable.isWord (table : CharTable) (c : Char) : Bool :=
  table.isAlnum c || c == '_'

/-- The lower case of a character as far as it matters to a comparison with ASCII text; the
dotted capital I and the Kelvin sign have an ASCII lower case. -/
def foldCase (c : Char) : Char :=
  if c.toNat = 0x130 then 'i' else if c.toNat = 0x212A then 'k' else c.toLower

/-- Whether a character matches an ASCII letter of an expression with IGNORECASE: the
dotless i and the long s do as well. -/
def sameLetter (letter c : Char) : Bool :=
  foldCase c == foldCase letter || (foldCase letter == 'i' && c.toNat == 0x131) ||
    (foldCase letter == 's' && c.toNat == 0x17F)

/-- `[a-z]` with IGNORECASE. -/
def isLetter (c : Char) : Bool :=
  (foldCase c).isLower || c.toNat == 0x131 || c.toNat == 0x17F

/-- `str.strip()`. -/
def strip (text : List Char) : List Char :=
  ((text.dropWhile isSpace).reverse.dropWhile isSpace).reverse

/-- `str.lower()` of one character. Upper-case letters whose lower case is a single
character outside ASCII are left as they are. -/
def lowerChar (c : Char) : List Char :=
  if c.toNat = 0x130 then ['i', Char.ofNat 0x307]
  else if c.toNat = 0x212A then ['k']
  else [c.toLower]

/-- `str.lower()`. -/
def lower (text : List Char) : List Char :=
  text.flatMap lowerChar

/-- The truth value of an optional string: given and not empty. -/
def given : Option String → Bool
  | none => false
  | some text => text != ""

/-- `text or default`. -/
def orElse (text : Option String) (fallback : String) : String :=
  match text with
  | none => fallback
  | some text => if text = "" then fallback else text

/-- `needle in text`. -/
def isIn (needle text : List Char) : Bool :=
  decide (needle <:+: text)

/-- Every character of the text is an ASCII character. -/
def isAscii (text : String) : Bool :=
  text.toList.all fun c => c.toNat < 128

/-- `str.encode("ascii")`; `none` is the `UnicodeEncodeError`. -/
def encodeAscii (text : String) : Option Bytes :=
  if isAscii text then some (text.toList.map fun c => UInt8.ofNat c.toNat) else none

/-- `bytes.decode("ascii", errors="replace")`. -/
def decodeAsciiReplace (bytes : Bytes) : List Char :=
  bytes.map fun byte => if byte < 128 then Char.ofNat byte.toNat else '\uFFFD'

/-- The digit characters of `format(n, "x")` for `n < 16`. -/
def hexDigit (n : ℕ) : Char :=
  (Nat.toDigits 16 n).headD '0'

/-- `f"{byte:02x}"`. -/
def hex2 (byte : UInt8) : String :=
  String.ofList [hexDigit (byte.toNat / 16), hexDigit (byte.toNat % 16)]

/-- `f"{byte:02X}"`. -/
def hex2Upper (byte : UInt8) : String :=
  (hex2 byte).toUpper

/-- One byte inside `repr` of a byte string that is quoted with `quote`. -/
def reprByte (quote : UInt8) (byte : UInt8) : String :=
  if byte = 92 || byte = quote then "\\" ++ (Char.ofNat byte.toNat).toString
  else if byte = 9 then "\\t"
  else if byte = 10 then "\\n"
  else if byte = 13 then "\\r"
  else if byte < 32 || 127 ≤ byte then "\\x" ++ hex2 byte
  else (Char.ofNat byte.toNat).toString

/-- `repr` of a byte string: single quotes unless only single quotes occur in it. -/
def reprBytes (bytes : Bytes) : String :=
  let quote : UInt8 := if bytes.contains 39 && !bytes.contains 34 then 34 else 39
  let mark := (Char.ofNat quote.toNat).toString
  "b" ++ mark ++ String.join (bytes.map (reprByte quote)) ++ mark

/-- The table of a text that is all ASCII. -/
def asciiTable : CharTable where
  isAlnum := Char.isAlphanum
  digit c := if c.isDigit then some (c.toNat - 48) else none
  isAlnum_ascii _ _ := rfl
  digit_ascii _ _ := rfl
  isAlnum_digit c isDigit := by
    cases digit : c.isDigit with
    | true => simp [Char.isAlphanum, digit]
    | false => simp [digit] at isDigit
  isAlnum_space c space := by
    simp only [isSpace, Bool.or_eq_true, Bool.and_eq_true, decide_eq_true_eq, beq_iff_eq] at space
    simp only [Char.isAlphanum, Char.isAlpha, Char.isUpper, Char.isLower, Char.isDigit,
      Bool.or_eq_false_iff, Bool.and_eq_false_iff, decide_eq_false_iff_not, ge_iff_le,
      UInt32.le_iff_toNat_le]
    have letters : 'A'.val.toNat = 65 ∧ 'Z'.val.toNat = 90 ∧ 'a'.val.toNat = 97 ∧
        'z'.val.toNat = 122 ∧ '0'.val.toNat = 48 ∧ '9'.val.toNat = 57 := by decide
    have value : c.val.toNat = c.toNat := rfl
    omega

theorem CharTable.isWord_ascii (table : CharTable) {c : Char} (ascii : c.toNat < 128) :
    table.isWord c = (c.isAlphanum || c == '_') := by
  rw [CharTable.isWord, table.isAlnum_ascii c ascii]

theorem CharTable.isWord_of_space (table : CharTable) {c : Char} (space : isSpace c = true) :
    table.isWord c = false := by
  rw [CharTable.isWord, table.isAlnum_space c space, Bool.false_or, beq_eq_false_iff_ne]
  rintro rfl
  exact absurd space (by decide)

/-- Only letters have a letter for their lower case. -/
theorem eq_of_foldCase_eq {c d : Char} (same : foldCase c = d) (notLower : d.isLower = false) :
    c = d := by
  unfold foldCase at same
  split_ifs at same with dotted kelvin
  · subst same
    cases notLower
  · subst same
    cases notLower
  · subst same
    have upper : ¬ c.isUpper := by
      intro upper
      simp [Char.isAlpha, upper] at notLower
    exact (Char.toLower_eq_of_not_isUpper upper).symm

/-- A character that two ASCII letters match shows that they are the same letter. -/
theorem foldCase_eq_of_sameLetter {a b c : Char} (ascii : a.toNat < 128) (ascii' : b.toNat < 128)
    (same : sameLetter a c = true) (same' : sameLetter b c = true) : foldCase a = foldCase b := by
  have other : ∀ {letter d : Char}, letter.toNat < 128 → d = 'ı' ∨ d = 'ſ' →
      foldCase d ≠ foldCase letter := by
    rintro letter d plain (rfl | rfl) folded
    · rw [eq_of_foldCase_eq (c := letter) folded.symm (by decide)] at plain
      exact absurd plain (by decide)
    · rw [eq_of_foldCase_eq (c := letter) folded.symm (by decide)] at plain
      exact absurd plain (by decide)
  have dotless : ∀ {d : Char}, d.toNat = 0x131 → d = 'ı' := fun code => Char.toNat_inj.mp code
  have long : ∀ {d : Char}, d.toNat = 0x17F → d = 'ſ' := fun code => Char.toNat_inj.mp code
  simp only [sameLetter, Bool.or_eq_true, Bool.and_eq_true, beq_iff_eq] at same same'
  rcases same with (folded | ⟨letter, code⟩) | ⟨letter, code⟩ <;>
    rcases same' with (folded' | ⟨letter', code'⟩) | ⟨letter', code'⟩
  · exact folded.symm.trans folded'
  · exact absurd folded (other ascii (.inl (dotless code')))
  · exact absurd folded (other ascii (.inr (long code')))
  · exact absurd folded' (other ascii' (.inl (dotless code)))
  · exact letter.trans letter'.symm
  · omega
  · exact absurd folded' (other ascii' (.inr (long code)))
  · omega
  · exact letter.trans letter'.symm

section Factors

variable {w left right : List Char} {c : Char}

/-- A text that does not contain `c` does not lie across an occurrence of it. -/
theorem infix_append_cons (absent : c ∉ w) (occurs : w <:+: left ++ c :: right) :
    w <:+: left ∨ w <:+: right := by
  rcases occurs with ⟨front, back, split⟩
  rcases List.append_eq_append_iff.mp split with ⟨middle, rfl, -⟩ | ⟨middle, across, tail⟩
  · exact .inl ⟨front, middle, rfl⟩
  · rcases middle with _ | ⟨head, middle⟩
    · rw [List.append_nil] at across
      exact .inl ⟨front, [], by rw [List.append_nil, across]⟩
    · rw [List.cons_append, List.cons.injEq] at tail
      rcases tail with ⟨rfl, rfl⟩
      rcases List.append_eq_append_iff.mp across with ⟨inner, -, rfl⟩ | ⟨inner, -, rest⟩
      · exact absurd (List.mem_append_right _ (List.mem_cons_self ..)) absent
      · rcases inner with _ | ⟨head, inner⟩
        · rw [List.nil_append] at rest
          exact absurd (rest ▸ List.mem_cons_self ..) absent
        · rw [List.cons_append, List.cons.injEq] at rest
          rcases rest with ⟨rfl, rfl⟩
          exact .inr ⟨inner, back, rfl⟩

theorem infix_of_infix_cons (nonempty : w ≠ []) (absent : c ∉ w) (occurs : w <:+: c :: right) :
    w <:+: right := by
  rcases infix_append_cons absent (show w <:+: [] ++ c :: right from occurs) with
    nothing | inRight
  · exact absurd (List.infix_nil.mp nothing) nonempty
  · exact inRight

end Factors

section Strip

variable {lead text trail : List Char}

/-- White space is what `strip` takes away. -/
theorem exists_strip (text : List Char) :
    ∃ lead trail, text = lead ++ (strip text ++ trail) ∧ (∀ c ∈ lead, isSpace c = true) ∧
      (∀ c ∈ trail, isSpace c = true) ∧ (∀ c ∈ (strip text).head?, isSpace c = false) ∧
      (∀ c ∈ (strip text).getLast?, isSpace c = false) ∧ (strip text = [] → trail = []) := by
  have front := List.takeWhile_append_dropWhile (p := isSpace) (l := text)
  have head : ∀ c ∈ (text.dropWhile isSpace).head?, isSpace c = false := by
    intro c mem
    have stops := List.head?_dropWhile_not isSpace text
    rw [Option.mem_def.mp mem] at stops
    exact stops
  have behind := List.takeWhile_append_dropWhile (p := isSpace)
    (l := (text.dropWhile isSpace).reverse)
  have split : text.dropWhile isSpace =
      strip text ++ ((text.dropWhile isSpace).reverse.takeWhile isSpace).reverse := by
    have reversed := congrArg List.reverse behind
    rw [List.reverse_append, List.reverse_reverse] at reversed
    exact reversed.symm
  have trails : ∀ c ∈ ((text.dropWhile isSpace).reverse.takeWhile isSpace).reverse,
      isSpace c = true := by
    intro c mem
    exact List.mem_takeWhile_imp (List.mem_reverse.mp mem)
  refine ⟨text.takeWhile isSpace, _, by rw [← split, front], fun c => List.mem_takeWhile_imp,
    trails,
    ?_, ?_, ?_⟩
  · intro c mem
    apply head
    rw [split, Option.mem_def, List.head?_append, Option.mem_def.mp mem]
    rfl
  · intro c mem
    have stops := List.head?_dropWhile_not isSpace (text.dropWhile isSpace).reverse
    rw [strip, List.getLast?_reverse] at mem
    rw [Option.mem_def.mp mem] at stops
    exact stops
  · intro nothing
    rw [nothing, List.nil_append] at split
    rw [← split]
    cases first : text.dropWhile isSpace with
    | nil => rfl
    | cons c rest =>
        have space := trails c (by rw [← split, first]; exact List.mem_cons_self ..)
        rw [head c (by rw [first]; rfl)] at space
        cases space

theorem strip_append (leads : ∀ c ∈ lead, isSpace c = true)
    (trails : ∀ c ∈ trail, isSpace c = true) (nonempty : text ≠ [])
    (opens : ∀ c ∈ text.head?, isSpace c = false)
    (closes : ∀ c ∈ text.getLast?, isSpace c = false) :
    strip (lead ++ (text ++ trail)) = text := by
  have front : (lead ++ (text ++ trail)).dropWhile isSpace = text ++ trail := by
    rw [List.dropWhile_append_of_pos leads]
    obtain ⟨c, rest, rfl⟩ := List.exists_cons_of_ne_nil nonempty
    rw [List.cons_append, List.dropWhile_cons, opens c rfl]
    rfl
  have back : (trail.reverse ++ text.reverse).dropWhile isSpace = text.reverse := by
    rw [List.dropWhile_append_of_pos (by simpa using trails)]
    obtain ⟨c, rest, reversed⟩ := List.exists_cons_of_ne_nil
      (mt List.reverse_eq_nil_iff.mp nonempty)
    have solid := closes c (by rw [← List.head?_reverse, reversed]; rfl)
    rw [reversed, List.dropWhile_cons, solid]
    rfl
  rw [strip, front, List.reverse_append, back, List.reverse_reverse]

theorem length_strip_le (text : List Char) : (strip text).length ≤ text.length := by
  obtain ⟨lead, trail, split, -⟩ := exists_strip text
  have size := congrArg List.length split
  simp only [List.length_append] at size
  omega

theorem strip_eq_of_length (same : (strip text).length = text.length) : strip text = text := by
  obtain ⟨lead, trail, split, -⟩ := exists_strip text
  have size := congrArg List.length split
  simp only [List.length_append] at size
  obtain rfl : lead = [] := List.eq_nil_of_length_eq_zero (by omega)
  obtain rfl : trail = [] := List.eq_nil_of_length_eq_zero (by omega)
  simpa using split.symm

end Strip

section Lower

theorem eq_of_toLower_eq {c d : Char} (same : c.toLower = d) (notLower : d.isLower = false) :
    c = d := by
  subst same
  have upper : ¬ c.isUpper := by
    intro upper
    simp [Char.isAlpha, upper] at notLower
  exact (Char.toLower_eq_of_not_isUpper upper).symm

/-- A text is lowered character by character without the two letters that have an ASCII lower
case of their own. -/
theorem lower_of_plain {text : List Char}
    (plain : ∀ c ∈ text, c.toNat ≠ 0x130 ∧ c.toNat ≠ 0x212A) :
    lower text = text.map Char.toLower := by
  rw [lower, List.map_eq_flatMap]
  refine List.flatMap_congr fun c mem => ?_
  rw [lowerChar, if_neg (plain c mem).1, if_neg (plain c mem).2]

theorem plain_of_mem_lower {text : List Char} (others : ∀ c ∈ lower text, c ≠ 'i' ∧ c ≠ 'k') :
    ∀ c ∈ text, c.toNat ≠ 0x130 ∧ c.toNat ≠ 0x212A := by
  intro c mem
  have lowered : ∀ d ∈ lowerChar c, d ≠ 'i' ∧ d ≠ 'k' := fun d mem' =>
    others d (List.mem_flatMap.mpr ⟨c, mem, mem'⟩)
  unfold lowerChar at lowered
  split_ifs at lowered with dotted kelvin
  · exact absurd rfl (lowered 'i' (by simp)).1
  · exact absurd rfl (lowered 'k' (by simp)).2
  · exact ⟨dotted, kelvin⟩

end Lower

@[simp]
theorem encodeAscii_isSome (text : String) : (encodeAscii text).isSome = isAscii text := by
  unfold encodeAscii
  split <;> simp_all

theorem length_encodeAscii {text : String} {bytes : Bytes}
    (encoded : encodeAscii text = some bytes) :
    bytes.length = text.length := by
  unfold encodeAscii at encoded
  split at encoded
  · cases encoded
    simp [String.length_toList]
  · cases encoded

/-- The bytes of an ASCII text are free of NULs when the text is. -/
theorem zero_mem_encodeAscii {text : String} {bytes : Bytes}
    (encoded : encodeAscii text = some bytes) :
    0 ∈ bytes ↔ '\x00' ∈ text.toList := by
  unfold encodeAscii at encoded
  split at encoded
  case isFalse => cases encoded
  case isTrue ascii =>
    cases encoded
    simp only [isAscii, List.all_eq_true, decide_eq_true_eq] at ascii
    simp only [List.mem_map]
    constructor
    · rintro ⟨c, mem, zero⟩
      have value := congrArg UInt8.toNat zero
      have small := ascii c mem
      simp only [UInt8.toNat_ofNat', UInt8.toNat_zero] at value
      have nul : c = '\x00' := by
        apply Char.toNat_inj.mp
        change c.toNat = 0
        omega
      exact nul ▸ mem
    · intro mem
      exact ⟨_, mem, rfl⟩

/-- Decoding gives an ASCII text back. -/
theorem decodeAsciiReplace_encodeAscii {text : String} {bytes : Bytes}
    (encoded : encodeAscii text = some bytes) : decodeAsciiReplace bytes = text.toList := by
  unfold encodeAscii at encoded
  split at encoded
  case isFalse => cases encoded
  case isTrue ascii =>
    cases encoded
    simp only [isAscii, List.all_eq_true, decide_eq_true_eq] at ascii
    rw [decodeAsciiReplace, List.map_map]
    refine (List.map_congr_left fun c mem => ?_).trans (List.map_id _)
    have small := ascii c mem
    have value : (UInt8.ofNat c.toNat).toNat = c.toNat := by
      rw [UInt8.toNat_ofNat']
      omega
    have below : UInt8.ofNat c.toNat < 128 := by
      rw [UInt8.lt_iff_toNat_lt, value]
      exact small
    rw [Function.comp_apply, if_pos below, value, Char.ofNat_toNat, id]

end PyText
