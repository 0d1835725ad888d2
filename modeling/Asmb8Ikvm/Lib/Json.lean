import Mathlib

/-!
# JSON texts

`json.loads` and `json.dumps` of the Python standard library: the parser with
its extensions `NaN` and `Infinity`, and the writer, which leaves only ASCII
characters in its output. Strings are lists of code points, since an escape can
name a surrogate, and a number with a fraction or an exponent is kept as it is
written.

A text that is cut off inside an object is not a JSON text, because the brace
that closes the object is missing.
-/

/-- The values of JSON. The members of an object are in the order of the text; a dictionary has
the last one of those with the same name. -/
inductive Json where
  | null
  | bool (value : Bool)
  | int (value : ℤ)
  | float (literal : List Char)
  | string (text : List ℕ)
  | array (elements : List Json)
  | object (members : List (List ℕ × Json))

namespace Json

/-- The white space of JSON. -/
def isSpace (c : Char) : Bool :=
  c == ' ' || c == '\t' || c == '\n' || c == '\r'

def skip (text : List Char) : List Char :=
  text.dropWhile isSpace

/-- The value of a hexadecimal digit. -/
def hexValue (c : Char) : Option ℕ :=
  if '0' ≤ c ∧ c ≤ '9' then some (c.toNat - '0'.toNat)
  else if 'a' ≤ c ∧ c ≤ 'f' then some (c.toNat - 'a'.toNat + 10)
  else if 'A' ≤ c ∧ c ≤ 'F' then some (c.toNat - 'A'.toNat + 10)
  else none

/-- The code unit four hexadecimal digits stand for. -/
def codeUnit (a b c d : Char) : Option ℕ := do
  let a ← hexValue a
  let b ← hexValue b
  let c ← hexValue c
  let d ← hexValue d
  return 4096 * a + 256 * b + 16 * c + d

/-- A code unit before a text: two surrogates that belong together make one code point. -/
def joinUnit (unit : ℕ) : List ℕ → List ℕ
  | low :: text =>
      if 0xD800 ≤ unit ∧ unit ≤ 0xDBFF ∧ 0xDC00 ≤ low ∧ low ≤ 0xDFFF then
        (0x10000 + 1024 * (unit - 0xD800) + (low - 0xDC00)) :: text
      else unit :: low :: text
  | [] => [unit]

/-- The character behind the backslash of an escape, and the one it stands for. -/
def unescape (c : Char) : Option ℕ :=
  if c = '"' ∨ c = '\\' ∨ c = '/' then some c.toNat
  else if c = 'b' then some 8
  else if c = 'f' then some 12
  else if c = 'n' then some 10
  else if c = 'r' then some 13
  else if c = 't' then some 9
  else none

/-- The rest of a string behind its opening quote. -/
def parseString : List Char → Option (List ℕ × List Char)
  | [] => none
  | '"' :: rest => some ([], rest)
  | '\\' :: 'u' :: a :: b :: c :: d :: rest =>
      match codeUnit a b c d with
      | none => none
      | some unit => (parseString rest).map fun (text, rest) => (joinUnit unit text, rest)
  | '\\' :: c :: rest =>
      match unescape c with
      | none => none
      | some code => (parseString rest).map fun (text, rest) => (code :: text, rest)
  | c :: rest =>
      if c = '\\' ∨ c.toNat < 32 then none
      else (parseString rest).map fun (text, rest) => (c.toNat :: text, rest)

/-- A fraction, if there is one. -/
def fraction : List Char → List Char
  | '.' :: rest =>
      let digits := rest.takeWhile Char.isDigit
      if digits = [] then [] else '.' :: digits
  | _ => []

/-- An exponent, if there is one. -/
def exponent : List Char → List Char
  | c :: rest =>
      if c = 'e' ∨ c = 'E' then
        let sign := match rest with
          | '+' :: _ => ['+']
          | '-' :: _ => ['-']
          | _ => []
        let digits := (rest.drop sign.length).takeWhile Char.isDigit
        if digits = [] then [] else c :: (sign ++ digits)
      else []
  | [] => []

def sign : List Char → List Char
  | '-' :: _ => ['-']
  | _ => []

def parseNumber (text : List Char) : Option (Json × List Char) :=
  let sign := sign text
  let rest := text.drop sign.length
  let whole := if rest.head? = some '0' then ['0'] else rest.takeWhile Char.isDigit
  if whole = [] then none
  else
    let rest := rest.drop whole.length
    let fraction := fraction rest
    let rest := rest.drop fraction.length
    let exponent := exponent rest
    let rest := rest.drop exponent.length
    if fraction = [] ∧ exponent = [] then
      let value : ℤ := Nat.ofDigitChars 10 whole 0
      some (.int (if sign = [] then value else -value), rest)
    else some (.float (sign ++ whole ++ fraction ++ exponent), rest)

/-- The names of values. -/
def literals : List (List Char × Json) :=
  [("null".toList, .null), ("true".toList, .bool true), ("false".toList, .bool false),
    ("NaN".toList, .float "NaN".toList), ("Infinity".toList, .float "Infinity".toList),
    ("-Infinity".toList, .float "-Infinity".toList)]

def parseLiteral (text : List Char) : Option (Json × List Char) :=
  match literals.find? fun literal => literal.1.isPrefixOf text with
  | some (word, value) => some (value, text.drop word.length)
  | none => parseNumber text

mutual

/-- A value at the start of a text. Each level of nesting, and each element and member, takes one
unit of fuel and at least one character. -/
def parseValue : ℕ → List Char → Option (Json × List Char)
  | 0, _ => none
  | fuel + 1, text =>
      match text with
      | '"' :: rest => (parseString rest).map fun (text, rest) => (.string text, rest)
      | '{' :: rest =>
          match skip rest with
          | '}' :: rest => some (.object [], rest)
          | rest => (parseMembers fuel rest).map fun (members, rest) => (.object members, rest)
      | '[' :: rest =>
          match skip rest with
          | ']' :: rest => some (.array [], rest)
          | rest => (parseElements fuel rest).map fun (elements, rest) => (.array elements, rest)
      | text => parseLiteral text

/-- The elements of an array and its closing bracket. -/
def parseElements : ℕ → List Char → Option (List Json × List Char)
  | 0, _ => none
  | fuel + 1, text =>
      match parseValue fuel text with
      | none => none
      | some (value, rest) =>
          match skip rest with
          | ',' :: rest =>
              (parseElements fuel (skip rest)).map fun (values, rest) => (value :: values, rest)
          | ']' :: rest => some ([value], rest)
          | _ => none

/-- The members of an object and its closing brace. -/
def parseMembers : ℕ → List Char → Option (List (List ℕ × Json) × List Char)
  | fuel + 1, '"' :: rest =>
      match parseString rest with
      | none => none
      | some (name, rest) =>
          match skip rest with
          | ':' :: rest =>
              match parseValue fuel (skip rest) with
              | none => none
              | some (value, rest) =>
                  match skip rest with
                  | ',' :: rest =>
                      (parseMembers fuel (skip rest)).map fun (members, rest) =>
                        ((name, value) :: members, rest)
                  | '}' :: rest => some ([(name, value)], rest)
                  | _ => none
          | _ => none
  | _, _ => none

end

/-- `json.loads`; `none` is the `ValueError`. -/
def loads (text : List Char) : Option Json :=
  match parseValue (text.length + 1) (skip text) with
  | none => none
  | some (value, rest) => if skip rest = [] then some value else none

/-- The escape of a code unit. -/
def escapeUnit (unit : ℕ) : List Char :=
  '\\' :: 'u' :: [Nat.digitChar (unit / 4096 % 16), Nat.digitChar (unit / 256 % 16),
    Nat.digitChar (unit / 16 % 16), Nat.digitChar (unit % 16)]

/-- A code point inside a string. -/
def escapeCode (code : ℕ) : List Char :=
  if code = 34 then ['\\', '"']
  else if code = 92 then ['\\', '\\']
  else if code = 10 then ['\\', 'n']
  else if code = 13 then ['\\', 'r']
  else if code = 9 then ['\\', 't']
  else if code = 12 then ['\\', 'f']
  else if code = 8 then ['\\', 'b']
  else if 32 ≤ code ∧ code ≤ 126 then [Char.ofNat code]
  else if code < 0x10000 then escapeUnit code
  else
    escapeUnit (0xD800 + (code - 0x10000) / 1024) ++ escapeUnit (0xDC00 + (code - 0x10000) % 1024)

def dumpsString (text : List ℕ) : List Char :=
  '"' :: (text.flatMap escapeCode ++ ['"'])

def dumpsInt : ℤ → List Char
  | .ofNat n => Nat.toDigits 10 n
  | .negSucc n => '-' :: Nat.toDigits 10 (n + 1)

mutual

/-- `json.dumps`. -/
def dumps : Json → List Char
  | .null => "null".toList
  | .bool value => if value then "true".toList else "false".toList
  | .int value => dumpsInt value
  | .float literal => literal
  | .string text => dumpsString text
  | .array elements => '[' :: (dumpsElements elements ++ [']'])
  | .object members => '{' :: (dumpsMembers members ++ ['}'])

def dumpsElements : List Json → List Char
  | [] => []
  | [value] => dumps value
  | value :: next :: values => dumps value ++ (',' :: ' ' :: dumpsElements (next :: values))

def dumpsMembers : List (List ℕ × Json) → List Char
  | [] => []
  | [member] => dumpsMember member
  | member :: next :: members =>
      dumpsMember member ++ (',' :: ' ' :: dumpsMembers (next :: members))

def dumpsMember : List ℕ × Json → List Char
  | (name, value) => dumpsString name ++ (':' :: ' ' :: dumps value)

end

section Numbers

variable {rest : List Char}

/-- A text that does not continue a number. -/
def EndsNumber (rest : List Char) : Prop :=
  ∀ c ∈ rest.head?, c.isDigit = false ∧ c ≠ '.' ∧ c ≠ 'e' ∧ c ≠ 'E'

theorem head?_toDigits_ne_zero {n : ℕ} (positive : 0 < n) :
    (Nat.toDigits 10 n).head? ≠ some '0' := by
  induction n using Nat.strong_induction_on with
  | _ n ih =>
      rw [Nat.toDigits_eq_if (by decide)]
      split_ifs with small
      · have notZero : ∀ m < 10, 0 < m → Nat.digitChar m ≠ '0' := by decide
        simpa using notZero n small positive
      · have more := ih (n / 10) (by omega) (by omega)
        rw [List.head?_append]
        obtain ⟨c, digits, split⟩ := List.exists_cons_of_ne_nil
          (Nat.toDigits_ne_nil (n := n / 10) (b := 10))
        rw [split] at more ⊢
        simpa using more

theorem head?_toDigits (n : ℕ) : ∃ c, (Nat.toDigits 10 n).head? = some c ∧ c.isDigit = true := by
  obtain ⟨c, digits, split⟩ := List.exists_cons_of_ne_nil (Nat.toDigits_ne_nil (n := n) (b := 10))
  refine ⟨c, by rw [split]; rfl, ?_⟩
  exact Nat.isDigit_of_mem_toDigits (b := 10) (n := n) (by decide) (by decide)
    (by rw [split]; exact List.mem_cons_self ..)

theorem parseNumber_toDigits (n : ℕ) (ends : EndsNumber rest) :
    parseNumber (Nat.toDigits 10 n ++ rest) = some (.int n, rest) := by
  have isDigit : ∀ c ∈ Nat.toDigits 10 n, c.isDigit = true := fun c mem =>
    Nat.isDigit_of_mem_toDigits (by decide) (by decide) mem
  obtain ⟨c, first, firstDigit⟩ := head?_toDigits n
  have noSign : sign (Nat.toDigits 10 n ++ rest) = [] := by
    obtain ⟨digits, split⟩ := List.head?_eq_some_iff.mp first
    rw [split, List.cons_append]
    unfold sign
    split
    case h_1 isMinus =>
      cases isMinus
      cases firstDigit
    case h_2 => rfl
  have behind : rest.takeWhile Char.isDigit = [] := by
    rcases rest with _ | ⟨d, rest⟩
    · rfl
    · rw [List.takeWhile_cons, (ends d rfl).1]
      rfl
  have whole : (if (Nat.toDigits 10 n ++ rest).head? = some '0' then ['0']
      else (Nat.toDigits 10 n ++ rest).takeWhile Char.isDigit) = Nat.toDigits 10 n := by
    rw [List.head?_append, first, Option.some_or]
    split_ifs with zero
    · rcases Nat.eq_zero_or_pos n with rfl | positive
      · rfl
      · exact absurd (first.trans zero) (head?_toDigits_ne_zero positive)
    · rw [List.takeWhile_append_of_pos isDigit, behind, List.append_nil]
  have noFraction : fraction rest = [] := by
    rcases rest with _ | ⟨d, rest⟩
    · rfl
    · unfold fraction
      split
      case h_1 isPoint =>
        cases isPoint
        exact absurd rfl (ends '.' rfl).2.1
      case h_2 => rfl
  have noExponent : exponent rest = [] := by
    rcases rest with _ | ⟨d, rest⟩
    · rfl
    · have other := (ends d rfl).2.2
      simp [exponent, other]
  simp only [parseNumber, noSign, List.length_nil, List.drop_zero, whole, List.drop_left,
    noFraction, noExponent, if_neg Nat.toDigits_ne_nil, and_self, if_true,
    Nat.ofDigitChars_toDigits (show 1 < 10 by decide) (show 10 ≤ 10 by decide)]

theorem parseLiteral_toDigits (n : ℕ) (ends : EndsNumber rest) :
    parseLiteral (Nat.toDigits 10 n ++ rest) = some (.int n, rest) := by
  obtain ⟨c, first, digit⟩ := head?_toDigits n
  have noLiteral : literals.find? (fun literal =>
      literal.1.isPrefixOf (Nat.toDigits 10 n ++ rest)) = none := by
    obtain ⟨digits, split⟩ := List.head?_eq_some_iff.mp first
    rw [List.find?_eq_none]
    intro literal mem starts
    rw [List.isPrefixOf_iff_prefix, split] at starts
    simp only [literals, List.mem_cons, List.not_mem_nil, or_false] at mem
    rcases mem with rfl | rfl | rfl | rfl | rfl | rfl <;>
      · obtain rfl := (List.cons_prefix_cons.mp starts).1
        cases digit
  rw [parseLiteral, noLiteral]
  exact parseNumber_toDigits n ends

end Numbers

section Strings

/-- A code point that is written as it is. -/
def IsPlain (code : ℕ) : Prop :=
  32 ≤ code ∧ code ≤ 126 ∧ code ≠ 34 ∧ code ≠ 92

instance : DecidablePred IsPlain := fun _ => inferInstanceAs (Decidable (_ ∧ _))

theorem escapeCode_of_plain {code : ℕ} (plain : IsPlain code) :
    escapeCode code = [Char.ofNat code] := by
  rcases plain with ⟨low, high, noQuote, noBackslash⟩
  rw [escapeCode, if_neg noQuote, if_neg noBackslash, if_neg (by omega), if_neg (by omega),
    if_neg (by omega), if_neg (by omega), if_neg (by omega), if_pos ⟨low, high⟩]

theorem toNat_ofNat_of_plain {code : ℕ} (plain : IsPlain code) :
    (Char.ofNat code).toNat = code := by
  have printed : ∀ code < 127, (Char.ofNat code).toNat = code := by decide
  exact printed code (Nat.lt_succ_of_le plain.2.1)

theorem parseString_plain {text : List ℕ} (plain : ∀ code ∈ text, IsPlain code)
    (rest : List Char) :
    parseString (text.flatMap escapeCode ++ '"' :: rest) = some (text, rest) := by
  induction text with
  | nil => rfl
  | cons code text ih =>
      rw [List.forall_mem_cons] at plain
      have value := toNat_ofNat_of_plain plain.1
      rw [List.flatMap_cons, escapeCode_of_plain plain.1, List.append_assoc, List.singleton_append]
      generalize Char.ofNat code = c at value ⊢
      subst value
      have noQuote : c ≠ '"' := by
        rintro rfl
        exact plain.1.2.2.1 rfl
      have noBackslash : c ≠ '\\' := by
        rintro rfl
        exact plain.1.2.2.2 rfl
      have printed : ¬ (c = '\\' ∨ c.toNat < 32) := by
        have low := plain.1.1
        rintro (same | small)
        · exact noBackslash same
        · omega
      unfold parseString
      split
      case h_1 empty => cases empty
      case h_2 isQuote => exact absurd (List.cons.inj isQuote).1 noQuote
      case h_3 isEscape => exact absurd (List.cons.inj isEscape).1 noBackslash
      case h_4 isEscape => exact absurd (List.cons.inj isEscape).1 noBackslash
      case h_5 isChar =>
        cases isChar
        rw [if_neg printed, ih plain.2]
        rfl

/-- The part of a text behind a string is behind it in the text. -/
theorem suffix_of_parseString {text : List Char} {found : List ℕ × List Char}
    (parsed : parseString text = some found) : found.2 <:+ text := by
  fun_induction parseString text generalizing found with
  | case1 => cases parsed
  | case2 rest =>
      cases parsed
      exact List.suffix_cons _ _
  | case3 a b c d rest bad => cases parsed
  | case4 a b c d rest unit isUnit ih =>
      rcases Option.map_eq_some_iff.mp parsed with ⟨later, string, rfl⟩
      refine (ih string).trans ?_
      exact List.suffix_append [_, _, _, _, _, _] rest
  | case5 c rest _ bad => cases parsed
  | case6 c rest _ code isCode ih =>
      rcases Option.map_eq_some_iff.mp parsed with ⟨later, string, rfl⟩
      exact (ih string).trans (List.suffix_append [_, _] rest)
  | case7 c rest _ _ _ bad => cases parsed
  | case8 c rest _ _ _ good ih =>
      rcases Option.map_eq_some_iff.mp parsed with ⟨later, string, rfl⟩
      exact (ih string).trans (List.suffix_cons _ _)

end Strings

section Remainders

theorem suffix_skip (text : List Char) : skip text <:+ text :=
  List.dropWhile_suffix _

theorem suffix_of_parseNumber {text : List Char} {found : Json × List Char}
    (parsed : parseNumber text = some found) : found.2 <:+ text := by
  simp only [parseNumber] at parsed
  split_ifs at parsed
  all_goals
    · cases parsed
      exact (List.drop_suffix _ _).trans ((List.drop_suffix _ _).trans
        ((List.drop_suffix _ _).trans (List.drop_suffix _ _)))

theorem suffix_of_parseLiteral {text : List Char} {found : Json × List Char}
    (parsed : parseLiteral text = some found) : found.2 <:+ text := by
  unfold parseLiteral at parsed
  split at parsed
  case h_1 =>
    cases parsed
    exact List.drop_suffix _ _
  case h_2 => exact suffix_of_parseNumber parsed

/-- What a parser has read stands at the start of the text, and it ends with a bracket. -/
structure Remainders (fuel : ℕ) : Prop where
  value : ∀ {text found}, parseValue fuel text = some found → found.2 <:+ text
  elements : ∀ {text found}, parseElements fuel text = some found → found.2 <:+ text
  members : ∀ {text found}, parseMembers fuel text = some found →
    found.2 <:+ text ∧ '}' ∈ text

theorem suffix_of_skip {text rest : List Char} {c : Char} (skipped : skip text = c :: rest) :
    rest <:+ text ∧ c ∈ text := by
  have whole := suffix_skip text
  rw [skipped] at whole
  exact ⟨(List.suffix_cons _ _).trans whole, whole.subset (List.mem_cons_self ..)⟩

theorem remainders (fuel : ℕ) : Remainders fuel := by
  induction fuel with
  | zero =>
      refine ⟨fun parsed => ?_, fun parsed => ?_, fun parsed => ?_⟩
      · cases parsed
      · cases parsed
      · cases parsed
  | succ fuel ih =>
      refine ⟨fun {text found} parsed => ?_, fun {text found} parsed => ?_,
        fun {text found} parsed => ?_⟩
      · unfold parseValue at parsed
        dsimp only at parsed
        split at parsed
        case h_1 rest =>
          rcases Option.map_eq_some_iff.mp parsed with ⟨later, string, rfl⟩
          exact (suffix_of_parseString string).trans (List.suffix_cons _ _)
        case h_2 rest =>
          split at parsed
          case h_1 closed =>
            cases parsed
            exact (suffix_of_skip closed).1.trans (List.suffix_cons _ _)
          case h_2 =>
            rcases Option.map_eq_some_iff.mp parsed with ⟨later, inside, rfl⟩
            exact (ih.members inside).1.trans ((suffix_skip rest).trans (List.suffix_cons _ _))
        case h_3 rest =>
          split at parsed
          case h_1 closed =>
            cases parsed
            exact (suffix_of_skip closed).1.trans (List.suffix_cons _ _)
          case h_2 =>
            rcases Option.map_eq_some_iff.mp parsed with ⟨later, inside, rfl⟩
            exact (ih.elements inside).trans ((suffix_skip rest).trans (List.suffix_cons _ _))
        case h_4 => exact suffix_of_parseLiteral parsed
      · rw [parseElements] at parsed
        split at parsed
        case h_1 => cases parsed
        case h_2 value rest isValue =>
          have first := ih.value isValue
          split at parsed
          case h_1 comma =>
            rcases Option.map_eq_some_iff.mp parsed with ⟨later, inside, rfl⟩
            exact (ih.elements inside).trans
              ((suffix_skip _).trans ((suffix_of_skip comma).1.trans first))
          case h_2 closed =>
            cases parsed
            exact (suffix_of_skip closed).1.trans first
          case h_3 => cases parsed
      · unfold parseMembers at parsed
        split at parsed
        case h_1 fuel' rest same =>
          obtain rfl : fuel = fuel' := Nat.succ.inj same
          split at parsed
          case h_1 => cases parsed
          case h_2 name rest' isName =>
            have first := (suffix_of_parseString isName).trans (List.suffix_cons '"' rest)
            split at parsed
            case h_1 afterColon colon =>
              have second := (suffix_skip _).trans ((suffix_of_skip colon).1.trans first)
              split at parsed
              case h_1 => cases parsed
              case h_2 value rest'' isValue =>
                have third := (ih.value isValue).trans second
                split at parsed
                case h_1 afterComma comma =>
                  rcases Option.map_eq_some_iff.mp parsed with ⟨later, inside, rfl⟩
                  have fourth := (suffix_skip _).trans ((suffix_of_skip comma).1.trans third)
                  rcases ih.members inside with ⟨behind, brace⟩
                  exact ⟨behind.trans fourth, fourth.subset brace⟩
                case h_2 closed =>
                  cases parsed
                  rcases suffix_of_skip closed with ⟨behind, brace⟩
                  exact ⟨behind.trans third, third.subset brace⟩
                case h_3 => cases parsed
            case h_2 => cases parsed
        case h_2 => cases parsed

/-- A text that starts an object and does not have its closing brace is not accepted. -/
theorem loads_eq_none {rest : List Char} (unclosed : '}' ∉ rest) : loads ('{' :: rest) = none := by
  have noObject : ∀ fuel, parseValue fuel ('{' :: rest) = none := by
    intro fuel
    rcases fuel with _ | fuel
    · rfl
    · rw [parseValue]
      split
      case h_1 closed => exact absurd (suffix_of_skip closed).2 unclosed
      case h_2 =>
        cases inside : parseMembers fuel (skip rest) with
        | none => rfl
        | some found =>
            have brace := ((remainders fuel).members inside).2
            exact absurd ((suffix_skip rest).subset brace) unclosed
  have solid : skip ('{' :: rest) = '{' :: rest := rfl
  rw [loads, solid, noObject]

end Remainders

section Objects

/-- A value that is neither an array nor an object: a string of plain characters or a natural
number. -/
inductive Scalar : Json → Prop where
  | string {text : List ℕ} (plain : ∀ code ∈ text, IsPlain code) : Scalar (.string text)
  | int (n : ℕ) : Scalar (.int n)

/-- The members of an object with plain names and scalar values. -/
def Flat (members : List (List ℕ × Json)) : Prop :=
  ∀ member ∈ members, (∀ code ∈ member.1, IsPlain code) ∧ Scalar member.2

variable {value : Json} {rest : List Char} {fuel : ℕ} {members : List (List ℕ × Json)}

theorem Scalar.parse (scalar : Scalar value) (ends : EndsNumber rest) :
    parseValue (fuel + 1) (dumps value ++ rest) = some (value, rest) := by
  cases scalar with
  | @string text plain =>
      have parsed := parseString_plain plain rest
      rw [dumps, dumpsString, List.cons_append, List.append_assoc, List.singleton_append,
        parseValue,
        parsed]
      rfl
  | int n =>
      obtain ⟨c, first, digit⟩ := head?_toDigits n
      have parsed := parseLiteral_toDigits n ends
      have written : dumps (.int n) = Nat.toDigits 10 n := by
        rw [dumps]
        rfl
      rw [written]
      obtain ⟨digits, split⟩ := List.head?_eq_some_iff.mp first
      rw [split, List.cons_append] at parsed ⊢
      unfold parseValue
      dsimp only
      split
      case h_1 same =>
        cases same
        cases digit
      case h_2 same =>
        cases same
        cases digit
      case h_3 same =>
        cases same
        cases digit
      case h_4 => exact parsed

theorem Scalar.skip (scalar : Scalar value) :
    skip (dumps value ++ rest) = dumps value ++ rest := by
  cases scalar with
  | string plain =>
      rw [dumps]
      rfl
  | int n =>
      obtain ⟨c, first, digit⟩ := head?_toDigits n
      have written : dumps (.int n) = Nat.toDigits 10 n := by
        rw [dumps]
        rfl
      rw [written]
      obtain ⟨digits, split⟩ := List.head?_eq_some_iff.mp first
      have solid : isSpace c = false := by
        rw [Bool.eq_false_iff]
        intro space
        simp only [isSpace, Bool.or_eq_true, beq_iff_eq] at space
        rcases space with ((rfl | rfl) | rfl) | rfl <;> cases digit
      rw [split, List.cons_append, Json.skip, List.dropWhile_cons, solid]
      rfl

/-- A member with what comes behind it. -/
theorem parseMembers_member {name : List ℕ} (plain : ∀ code ∈ name, IsPlain code)
    (scalar : Scalar value) (ends : EndsNumber rest) (text : List Char)
    (split : text = dumpsMember (name, value) ++ rest) :
    parseMembers (fuel + 2) text =
      match Json.skip rest with
      | ',' :: rest =>
          (parseMembers (fuel + 1) (Json.skip rest)).map fun (members, rest) =>
            ((name, value) :: members, rest)
      | '}' :: rest => some ([(name, value)], rest)
      | _ => none := by
  have isName := parseString_plain plain (':' :: ' ' :: (dumps value ++ rest))
  have colon : Json.skip (':' :: ' ' :: (dumps value ++ rest)) =
      ':' :: ' ' :: (dumps value ++ rest) := rfl
  have solid : Json.skip (' ' :: (dumps value ++ rest)) = dumps value ++ rest :=
    scalar.skip
  have layout : text = '"' :: (name.flatMap escapeCode ++
      '"' :: (':' :: ' ' :: (dumps value ++ rest))) := by
    rw [split, dumpsMember, dumpsString]
    simp
  rw [layout, parseMembers, isName]
  simp only [colon, solid, scalar.parse ends]

theorem exists_dumpsMembers (member : List ℕ × Json) (members : List (List ℕ × Json)) :
    ∃ more, dumpsMembers (member :: members) = '"' :: more := by
  rcases member with ⟨name, value⟩
  rcases members with _ | ⟨next, members⟩
  · rw [dumpsMembers, dumpsMember, dumpsString]
    exact ⟨_, rfl⟩
  · rw [dumpsMembers, dumpsMember, dumpsString]
    exact ⟨_, rfl⟩

/-- The members of a flat object come back. -/
theorem parseMembers_dumps (flat : Flat members) (nonempty : members ≠ []) :
    parseMembers (fuel + members.length + 1) (dumpsMembers members ++ '}' :: rest) =
      some (members, rest) := by
  induction members with
  | nil => exact absurd rfl nonempty
  | cons member members ih =>
      rw [Flat, List.forall_mem_cons] at flat
      rcases member with ⟨name, value⟩
      rcases members with _ | ⟨next, members⟩
      · have ends : EndsNumber ('}' :: rest) := by
          rintro c ⟨⟩
          decide
        rw [dumpsMembers]
        exact parseMembers_member flat.1.1 flat.1.2 ends _ rfl
      · have ends : EndsNumber (',' :: ' ' :: (dumpsMembers (next :: members) ++ '}' :: rest)) := by
          rintro c ⟨⟩
          decide
        have later := ih flat.2 (List.cons_ne_nil _ _)
        have solid : Json.skip (' ' :: (dumpsMembers (next :: members) ++ '}' :: rest)) =
            dumpsMembers (next :: members) ++ '}' :: rest := by
          obtain ⟨more, starts⟩ := exists_dumpsMembers next members
          rw [starts]
          rfl
        rw [show fuel + ((name, value) :: next :: members).length + 1 =
          fuel + (next :: members).length + 2 from rfl, parseMembers_member flat.1.1 flat.1.2 ends
            (dumpsMembers ((name, value) :: next :: members) ++ '}' :: rest) (by
              rw [dumpsMembers, List.append_assoc]
              rfl)]
        have comma : Json.skip (',' :: ' ' :: (dumpsMembers (next :: members) ++ '}' :: rest)) =
            ',' :: ' ' :: (dumpsMembers (next :: members) ++ '}' :: rest) := rfl
        simp only [comma, solid, later, Option.map_some]

theorem length_le_dumpsMembers (members : List (List ℕ × Json)) :
    members.length ≤ (dumpsMembers members).length := by
  induction members with
  | nil => exact Nat.zero_le _
  | cons member members ih =>
      rcases members with _ | ⟨next, members⟩
      · rw [dumpsMembers]
        rcases member with ⟨name, value⟩
        simp [dumpsMember, dumpsString]
      · rw [dumpsMembers, List.length_cons]
        simp only [List.length_append, List.length_cons] at ih ⊢
        omega

/-- A flat object is read back from its text. -/
theorem loads_dumps (flat : Flat members) (nonempty : members ≠ []) :
    loads (dumps (.object members)) = some (.object members) := by
  have solid : skip ('{' :: (dumpsMembers members ++ ['}'])) =
      '{' :: (dumpsMembers members ++ ['}']) := rfl
  have size := length_le_dumpsMembers members
  obtain ⟨fuel, enough⟩ : ∃ fuel, ('{' :: (dumpsMembers members ++ ['}'])).length =
      fuel + members.length + 1 := by
    refine ⟨(dumpsMembers members).length + 1 - members.length, ?_⟩
    simp only [List.length_cons, List.length_append, List.length_nil]
    omega
  have parsed : parseMembers (fuel + members.length + 1) (dumpsMembers members ++ ['}']) =
      some (members, []) := parseMembers_dumps flat nonempty
  obtain ⟨member, members, rfl⟩ := List.exists_cons_of_ne_nil nonempty
  obtain ⟨more, starts⟩ := exists_dumpsMembers member members
  have value : parseValue (fuel + (member :: members).length + 1 + 1)
      ('{' :: (dumpsMembers (member :: members) ++ ['}'])) =
        some (.object (member :: members), []) := by
    rw [starts, List.cons_append] at parsed ⊢
    rw [parseValue, show skip ('"' :: (more ++ ['}'])) = '"' :: (more ++ ['}']) from rfl]
    split
    case h_1 closed => cases closed
    case h_2 =>
      rw [parsed]
      rfl
  rw [dumps, loads, solid, enough, value]
  rfl

end Objects

end Json
