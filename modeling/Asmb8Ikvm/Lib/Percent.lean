import Asmb8Ikvm.Lib.Text

/-!
# Percent-encoding

`urllib.parse.quote` and `unquote` with UTF-8. `quote` writes every byte that is
not safe as a percent sign and two hexadecimal digits. `unquote` decodes once: a
sequence that is not an encoded byte stays as it is, and the bytes of each run of
ASCII characters have to be UTF-8.

The main result is that `unquote` undoes `quote`, also when the quoted texts are
parts of a longer one that is ASCII.
-/

namespace Percent

open PyText

/-- `text.encode("utf-8")`. -/
def utf8Encode (text : List Char) : Bytes :=
  text.flatMap String.utf8EncodeChar

/-- `bytes.decode("utf-8", "strict")`. -/
def utf8Decode (bytes : Bytes) : Option (List Char) :=
  bytes.toByteArray.utf8Decode?.map Array.toList

def isAsciiChar (c : Char) : Bool :=
  c.toNat < 128

/-- The bytes `quote` leaves alone: letters, digits, `_.-~` and `/`. -/
def isSafe (byte : UInt8) : Bool :=
  let c := Char.ofNat byte.toNat
  isAsciiChar c && (c.isAlphanum || c == '_' || c == '.' || c == '-' || c == '~' || c == '/')

/-- The upper-case digit characters. -/
def upperDigit (n : ℕ) : Char :=
  "0123456789ABCDEF".toList.getD n '0'

def quoteByte (byte : UInt8) : List Char :=
  if isSafe byte then [Char.ofNat byte.toNat]
  else ['%', upperDigit (byte.toNat / 16), upperDigit (byte.toNat % 16)]

/-- `urllib.parse.quote(text)`. -/
def quote (text : List Char) : List Char :=
  (utf8Encode text).flatMap quoteByte

/-- The value of a hexadecimal digit in either case. -/
def digitValue (c : Char) : Option ℕ :=
  if '0' ≤ c ∧ c ≤ '9' then some (c.toNat - '0'.toNat)
  else if 'a' ≤ c ∧ c ≤ 'f' then some (c.toNat - 'a'.toNat + 10)
  else if 'A' ≤ c ∧ c ≤ 'F' then some (c.toNat - 'A'.toNat + 10)
  else none

/-- The byte of two hexadecimal digits. -/
def hexByte (high low : Char) : Option UInt8 := do
  return UInt8.ofNat (16 * (← digitValue high) + (← digitValue low))

/-- `urllib.parse.unquote_to_bytes`, of ASCII characters. -/
def unquoteToBytes : List Char → Bytes
  | [] => []
  | '%' :: high :: low :: more =>
      match hexByte high low with
      | some byte => byte :: unquoteToBytes more
      | none => UInt8.ofNat '%'.toNat :: unquoteToBytes (high :: low :: more)
  | c :: rest => UInt8.ofNat c.toNat :: unquoteToBytes rest

/-- A run of characters that are all ASCII or none of them. -/
def unquoteRun (run : List Char) : Option (List Char) :=
  if run.all isAsciiChar then utf8Decode (unquoteToBytes run) else some run

/-- `urllib.parse.unquote(text, errors="strict")`. -/
def unquote (text : List Char) : Option (List Char) :=
  if '%' ∉ text then some text
  else
    ((text.splitBy fun c d => isAsciiChar c == isAsciiChar d).mapM unquoteRun).map List.flatten

@[simp]
theorem utf8Encode_append (first second : List Char) :
    utf8Encode (first ++ second) = utf8Encode first ++ utf8Encode second :=
  List.flatMap_append

@[simp]
theorem quote_append (first second : List Char) :
    quote (first ++ second) = quote first ++ quote second := by
  simp [quote]

theorem utf8Decode_utf8Encode (text : List Char) : utf8Decode (utf8Encode text) = some text := by
  have encoded : (utf8Encode text).toByteArray = text.utf8Encode := rfl
  rw [utf8Decode, encoded, List.utf8Decode?_utf8Encode]
  rfl

theorem utf8EncodeChar_ascii {c : Char} (ascii : isAsciiChar c = true) :
    String.utf8EncodeChar c = [UInt8.ofNat c.toNat] := by
  have small : c.val.toNat ≤ 0x7f := by
    have below : c.toNat < 128 := by simpa [isAsciiChar] using ascii
    exact Nat.le_of_lt_succ below
  rw [String.utf8EncodeChar]
  exact if_pos small

theorem utf8Encode_ascii {text : List Char} (ascii : ∀ c ∈ text, isAsciiChar c = true) :
    utf8Encode text = text.map fun c => UInt8.ofNat c.toNat := by
  induction text with
  | nil => rfl
  | cons c text ih =>
      have first := utf8EncodeChar_ascii (ascii c List.mem_cons_self)
      have rest := ih fun d mem => ascii d (List.mem_cons_of_mem c mem)
      rw [List.map_cons, ← rest]
      change String.utf8EncodeChar c ++ utf8Encode text = _
      rw [first]
      rfl

theorem unquoteToBytes_cons {c : Char} (notPercent : c ≠ '%') (rest : List Char) :
    unquoteToBytes (c :: rest) = UInt8.ofNat c.toNat :: unquoteToBytes rest := by
  rw [unquoteToBytes.eq_3]
  rintro high low more same
  exact absurd same notPercent

theorem unquoteToBytes_encoded {high low : Char} {byte : UInt8} (rest : List Char)
    (isByte : hexByte high low = some byte) :
    unquoteToBytes ('%' :: high :: low :: rest) = byte :: unquoteToBytes rest := by
  rw [unquoteToBytes, isByte]

theorem unquoteToBytes_of_notMem {text : List Char} (noPercent : '%' ∉ text) :
    unquoteToBytes text = text.map fun c => UInt8.ofNat c.toNat := by
  induction text with
  | nil => rfl
  | cons c text ih =>
      rw [List.mem_cons, not_or] at noPercent
      rw [unquoteToBytes_cons (Ne.symm noPercent.1), ih noPercent.2, List.map_cons]

/-- A property of all bytes can be checked byte by byte. -/
theorem forall_byte {P : UInt8 → Prop} (all : ∀ n : Fin 256, P (UInt8.ofFin n)) (byte : UInt8) :
    P byte := by
  have same : UInt8.ofFin byte.toFin = byte := UInt8.ofFin_toFin byte
  rw [← same]
  exact all byte.toFin

theorem isSafe_spec : ∀ byte : UInt8, isSafe byte = true →
    Char.ofNat byte.toNat ≠ '%' ∧ UInt8.ofNat (Char.ofNat byte.toNat).toNat = byte :=
  forall_byte (by decide +kernel)

theorem hexByte_upperDigit : ∀ byte : UInt8,
    hexByte (upperDigit (byte.toNat / 16)) (upperDigit (byte.toNat % 16)) = some byte :=
  forall_byte (by decide +kernel)

theorem unquoteToBytes_quoteByte (byte : UInt8) (rest : List Char) :
    unquoteToBytes (quoteByte byte ++ rest) = byte :: unquoteToBytes rest := by
  unfold quoteByte
  split_ifs with safe
  · rcases isSafe_spec byte safe with ⟨notPercent, isByte⟩
    rw [List.singleton_append, unquoteToBytes_cons notPercent, isByte]
  · exact unquoteToBytes_encoded rest (hexByte_upperDigit byte)

theorem unquoteToBytes_quote (text rest : List Char) :
    unquoteToBytes (quote text ++ rest) = utf8Encode text ++ unquoteToBytes rest := by
  unfold quote
  induction utf8Encode text with
  | nil => rfl
  | cons byte bytes ih =>
      rw [List.flatMap_cons, List.append_assoc, unquoteToBytes_quoteByte, ih, List.cons_append]

/-- A character of a quoted text: ASCII, and neither a question mark nor a number sign. -/
def isQuoted (c : Char) : Bool :=
  isAsciiChar c && c != '?' && c != '#'

theorem quoteByte_chars : ∀ byte : UInt8, (quoteByte byte).all isQuoted = true :=
  forall_byte (by decide +kernel)

theorem quote_chars {text : List Char} {c : Char} (mem : c ∈ quote text) :
    isQuoted c = true := by
  rcases List.mem_flatMap.mp mem with ⟨byte, -, isChar⟩
  exact List.all_eq_true.mp (quoteByte_chars byte) c isChar

theorem isAsciiChar_of_isQuoted {c : Char} (quoted : isQuoted c = true) :
    isAsciiChar c = true := by
  simp only [isQuoted, Bool.and_eq_true] at quoted
  exact quoted.1.1

/-- Of an ASCII text all bytes are decoded together. -/
theorem unquote_ascii {text : List Char} (ascii : ∀ c ∈ text, isAsciiChar c = true) :
    unquote text = utf8Decode (unquoteToBytes text) := by
  unfold unquote
  by_cases noPercent : '%' ∉ text
  · rw [if_pos noPercent, unquoteToBytes_of_notMem noPercent, ← utf8Encode_ascii ascii,
      utf8Decode_utf8Encode]
  · rw [if_neg noPercent]
    have nonempty : text ≠ [] := by
      rintro rfl
      exact noPercent (by simp)
    have oneRun : (text.splitBy fun c d => isAsciiChar c == isAsciiChar d) = [text] := by
      refine List.splitBy_of_isChain nonempty ?_
      refine List.Pairwise.isChain (List.pairwise_of_forall_mem_list ?_)
      intro c isChar d isOther
      rw [ascii c isChar, ascii d isOther]
      rfl
    rw [oneRun, List.mapM_cons, List.mapM_nil, unquoteRun, if_pos (List.all_eq_true.mpr ascii)]
    cases utf8Decode (unquoteToBytes text) <;> simp

/-- `unquote` undoes `quote`. -/
theorem unquote_quote (text : List Char) : unquote (quote text) = some text := by
  have bytes : unquoteToBytes (quote text) = utf8Encode text := by
    have decoded := unquoteToBytes_quote text []
    rwa [List.append_nil, unquoteToBytes, List.append_nil] at decoded
  rw [unquote_ascii fun c mem => isAsciiChar_of_isQuoted (quote_chars mem), bytes,
    utf8Decode_utf8Encode]

end Percent
