import Asmb8Ikvm.Redact

/-!
# Labelled secrets

A field is a key that announces a secret and a value, both in quotes:
`'password':'...'`. `redact` is to remove the value of every field.

It does so when the value is made of characters the pattern takes for a value
and does not look like a header line itself. The patterns stop at white space
and at a few other characters; they find no closing quote there, try once more
without quotes, and put `[REDACTED]` in front of the value instead of in its
place. A value with `cookie:` in it is reached by the pattern for header lines
first, which takes the closing quote away.
-/

namespace Asmb8Ikvm

open PyText Regex

namespace Redact

/-- The names of the generic pattern. -/
def genericSecretNames : List String :=
  ["password", "passwd", "pwd", "secret", "passphrase", "api_key", "api-key", "token", "apikey"]

/-- The keys that announce a secret. -/
def secretKeys : List String :=
  amiSecretNames ++ genericSecretNames

/-- The characters the pattern for the key takes for a value. -/
def valueClass (key : String) : Char → Bool :=
  if key ∈ amiSecretNames then isAmiValue else isGenericValue

/-- The value has the name of a header in it, with a word boundary before and a colon after
it. -/
def HasHeader (table : CharTable) (value : List Char) : Prop :=
  ∃ front name back, value = front ++ (name ++ ':' :: back) ∧ SpellsOneOf headerWords name ∧
    front.getLast?.any table.isWord ≠ name.head?.any table.isWord

/-- A value that `redact` recognises as a whole. -/
structure Plain (table : CharTable) (key : String) (value : List Char) : Prop where
  inClass : ∀ c ∈ value, valueClass key c = true
  headerless : ¬ HasHeader table value

section Fields

variable {α : Type} [Glyph α]

/-- `'key':'`, up to the value of a field. -/
def label (quote : Char) (key : String) : List α :=
  (quote :: (key.toList ++ [quote, ':', quote])).map ofChar

/-- The same without the first quote. -/
def keyTail (quote : Char) (key : String) : List α :=
  (key.toList ++ [quote, ':', quote]).map ofChar

theorem label_append (quote : Char) (key : String) (rest : List α) :
    label quote key ++ rest = ofChar quote :: (keyTail quote key ++ rest) :=
  rfl

end Fields

/-- A text with a field in it; the characters of the value are marked. -/
def markedText (before : List Char) (quote : Char) (key : String) (value after : List Char) :
    List (Char × Bool) :=
  before.map ofChar ++ (label quote key ++
    (value.map (fun c => (c, true)) ++ ofChar quote :: after.map ofChar))

/-- The marked text spells the text that `redact` is given, and what is made of it spells what
`redact` returns. -/
theorem redact_markedText (table : CharTable) (before : List Char) (quote : Char) (key : String)
    (value after : List Char) :
    redact table (String.ofList ((markedText before quote key value after).map char)) [] =
      String.ofList ((redactGlyphs table (markedText before quote key value after) []).map
        char) := by
  rw [redact, String.toList_ofList, redactGlyphs_map_char]

section Names

variable {α : Type} [Glyph α]

/-- The characters of names. -/
def isNameChar (c : Char) : Bool :=
  isLetter c || c == '-' || c == '_'

theorem isNameChar_of_sameLetter {letter c : Char} (isName : isNameChar letter = true)
    (plainLetter : letter.toNat < 128) (same : sameLetter letter c = true) :
    isNameChar c = true := by
  simp only [sameLetter, Bool.or_eq_true, Bool.and_eq_true, beq_iff_eq] at same
  rcases same with (folded | ⟨-, dotless⟩) | ⟨-, long⟩
  · have ascii : (letter.toNat == 0x131) = false ∧ (letter.toNat == 0x17F) = false := by
      simp only [beq_eq_false_iff_ne]
      omega
    simp only [isNameChar, isLetter, ascii, Bool.or_false, Bool.or_eq_true, beq_iff_eq] at isName
    rcases isName with (lower | rfl) | rfl
    · simp [isNameChar, isLetter, folded, lower]
    · rw [eq_of_foldCase_eq (d := '-') folded (by decide)]
      decide
    · rw [eq_of_foldCase_eq (d := '_') folded (by decide)]
      decide
  · simp [isNameChar, isLetter, dotless]
  · simp [isNameChar, isLetter, long]

/-- Every word of the list is made of ASCII characters of names, and none is empty. -/
def areNames (words : List String) : Bool :=
  words.all fun word => !word.toList.isEmpty &&
    word.toList.all fun letter => isNameChar letter && decide (letter.toNat < 128)

theorem areNames_header : areNames headerWords = true := by decide

theorem areNames_ami : areNames amiSecretNames = true := by decide

theorem areNames_generic : areNames genericSecretNames = true := by decide

theorem isNameChar_of_spells {letters : List Char} {name : List α}
    (areLetters : ∀ letter ∈ letters, isNameChar letter = true ∧ letter.toNat < 128)
    (spells : Spells sameLetter letters name) : ∀ glyph ∈ name, isNameChar (char glyph) = true := by
  induction spells with
  | nil => simp
  | cons same _ ih =>
      rw [List.forall_mem_cons] at areLetters ⊢
      exact ⟨isNameChar_of_sameLetter areLetters.1.1 areLetters.1.2 same, ih areLetters.2⟩

theorem SpellsOneOf.isNameChar {words : List String} {name : List α}
    (known : areNames words = true) (spells : SpellsOneOf words name) :
    name ≠ [] ∧ ∀ glyph ∈ name, isNameChar (char glyph) = true := by
  rcases spells with ⟨word, mem, spells⟩
  simp only [areNames, List.all_eq_true, Bool.and_eq_true, decide_eq_true_eq] at known
  rcases known word mem with ⟨nonempty, letters⟩
  refine ⟨?_, isNameChar_of_spells letters spells⟩
  rintro rfl
  rw [spells_nil_right] at spells
  simp [spells] at nonempty

theorem IsGenericName.spellsOneOf {name : List α} (isName : IsGenericName name) :
    SpellsOneOf genericSecretNames name := by
  rcases isName with ⟨word, mem, spells⟩ | ⟨api, dash, key, rfl, isApi, isDash, isKey⟩ |
    ⟨word, mem, spells⟩
  · have listed : ∀ word ∈ ["password", "passwd", "pwd", "secret", "passphrase"],
        word ∈ genericSecretNames := by decide
    exact ⟨word, listed word mem, spells⟩
  · rcases isDash with rfl | ⟨glyph, isDash, rfl⟩
    · exact ⟨"apikey", by decide, List.rel_append isApi isKey⟩
    · simp only [Bool.or_eq_true, beq_iff_eq] at isDash
      rcases isDash with same | same
      · exact ⟨"api_key", by decide, List.rel_append isApi (.cons (by rw [same]; decide) isKey)⟩
      · exact ⟨"api-key", by decide, List.rel_append isApi (.cons (by rw [same]; decide) isKey)⟩
  · have listed : ∀ word ∈ ["token", "apikey"], word ∈ genericSecretNames := by decide
    exact ⟨word, listed word mem, spells⟩

end Names

section Scans

variable {α : Type} [Glyph α] {table : CharTable} {words : List String} {rule : Rule}
  {prev : Option Char} {glyph closing : α} {taken rest : List α} {groups : ℕ → List α}

/-- A match of the rule starts with a name at a word boundary. -/
def NameLed (α : Type) [Glyph α] (table : CharTable) (words : List String) (rule : Rule) :
    Prop :=
  ∀ (prev : Option Char) (taken rest : List α) (groups : ℕ → List α),
    Ways rule.expr prev (fun _ => []) taken rest groups →
      prev.any table.isWord ≠
        (taken ++ rest).head?.any (fun glyph => table.isWord (char glyph)) ∧
      ∃ name tail, taken = name ++ tail ∧ SpellsOneOf words name

theorem nameLed_quotedHeader : NameLed α table headerWords (quotedHeader table) := by
  intro prev taken rest groups ways
  rcases quotedHeader_ways ways with ⟨name, _, _, _, _, rfl, -, -, -, boundary, isName, -⟩
  exact ⟨boundary, name, _, rfl, isName⟩

theorem nameLed_header : NameLed α table headerWords (header table) := by
  intro prev taken rest groups ways
  rcases header_ways ways with ⟨name, _, _, rfl, -, -, boundary, isName, -⟩
  exact ⟨boundary, name, _, rfl, isName⟩

theorem nameLed_genericSecret : NameLed α table genericSecretNames (genericSecret table) := by
  intro prev taken rest groups ways
  rcases genericSecret_ways ways with ⟨name, _, _, _, _, rfl, -, -, -, boundary, isName, -⟩
  exact ⟨boundary, name, _, rfl, isName.spellsOneOf⟩

/-- No match starts at a glyph that is not part of a name. -/
theorem NameLed.none_of_head (led : NameLed α table words rule) (known : areNames words = true)
    (other : isNameChar (char glyph) = false) :
    matchAt rule.expr prev (glyph :: rest) = none := by
  rw [matchAt_none_iff]
  intro taken rest' groups split ways
  rcases led prev taken rest' groups ways with ⟨-, name, tail, rfl, isName⟩
  rcases isName.isNameChar known with ⟨nonempty, chars⟩
  rcases name with _ | ⟨head, name⟩
  · exact nonempty rfl
  · rw [List.cons_append, List.cons_append, List.cons.injEq] at split
    rcases split with ⟨rfl, -⟩
    rw [chars glyph (List.mem_cons_self ..)] at other
    cases other

/-- None of the words stands in the key at a word boundary; `prev` is the character before
the key if it is known. -/
def silentFrom (words : List String) : Option Char → List Char → Bool
  | _, [] => true
  | prev, c :: key =>
      (prev.any (fun c => c.isAlphanum || c == '_') && (c.isAlphanum || c == '_') ||
        words.all fun word => !startsWith sameLetter word.toList (c :: key)) &&
      silentFrom words (some c) key

/-- Such a key is copied. -/
theorem NameLed.subFrom_key (led : NameLed α table words rule) (known : areNames words = true)
    {key : List Char} (ascii : ∀ c ∈ key, c.toNat < 128) {before : Option Char}
    (silent : silentFrom words before key = true)
    (reached : ∀ c ∈ before, prev = some c ∧ c.toNat < 128)
    (other : isNameChar (char closing) = false) :
    subFrom rule.expr rule.template prev 0 (key.map ofChar ++ closing :: rest) =
      key.map ofChar ++ subFrom rule.expr rule.template
        (lastChar prev (key.map (ofChar (α := α)))) 0 (closing :: rest) := by
  induction key generalizing prev before with
  | nil => rfl
  | cons c key ih =>
      rw [List.forall_mem_cons] at ascii
      simp only [silentFrom, Bool.and_eq_true] at silent
      have unmatched : matchAt rule.expr prev
          ((ofChar c : α) :: (key.map ofChar ++ closing :: rest)) = none := by
        rw [matchAt_none_iff]
        intro taken rest' groups split ways
        rcases led prev taken rest' groups ways with ⟨boundary, name, tail, rfl, isName⟩
        rw [← split] at boundary
        rw [List.append_assoc] at split
        rcases append_eq_append_cons (b := (c :: key).map ofChar) split.symm
          (isName.isNameChar known).2 (by simp [other]) with ⟨back, inKey, -⟩
        rcases isName with ⟨word, mem, spells⟩
        have starts : startsWith sameLetter word.toList (c :: key) = true := by
          rw [← startsWith_map (f := (ofChar : Char → α)) (fun c => char_ofChar c)]
          exact (startsWith_iff _ _ _).mpr ⟨name, back, inKey, spells⟩
        rcases Bool.or_eq_true_iff.mp silent.1 with inWord | silent
        · rw [Bool.and_eq_true, Option.any_eq_true] at inWord
          rcases inWord with ⟨⟨c', isBefore, isWord⟩, isWord'⟩
          rcases reached c' isBefore with ⟨rfl, ascii'⟩
          simp only [Option.any_some, List.head?_cons, char_ofChar, table.isWord_ascii ascii',
            table.isWord_ascii ascii.1, isWord, isWord'] at boundary
          exact boundary rfl
        · rw [List.all_eq_true] at silent
          simpa [starts] using silent word mem
      rw [List.map_cons, List.cons_append, subFrom_copy unmatched, char_ofChar, List.cons_append,
        lastChar_cons, char_ofChar]
      congr 1
      refine ih ascii.2 silent.2 ?_
      rintro c' ⟨⟩
      exact ⟨rfl, ascii.1⟩

theorem key_facts {key : String} (mem : key ∈ secretKeys) :
    silentFrom headerWords none key.toList = true ∧
      (∀ c ∈ key.toList, isNameChar c = true ∧ c.toNat < 128) := by
  have checked : (secretKeys.all fun key => silentFrom headerWords none key.toList &&
      key.toList.all fun c => isNameChar c && decide (c.toNat < 128)) = true := by decide
  simpa using List.all_eq_true.mp checked key mem

theorem isNameChar_quote {quote : Char} (isQuote : Redact.isQuote quote = true) :
    isNameChar quote = false := by
  simp only [Redact.isQuote, Bool.or_eq_true, beq_iff_eq] at isQuote
  rcases isQuote with rfl | rfl <;> decide

/-- The label of a field is copied by a rule that finds no name in its key. -/
theorem NameLed.subFrom_keyTail (led : NameLed α table words rule) (known : areNames words = true)
    {key : String} (mem : key ∈ secretKeys) (silent : silentFrom words none key.toList = true)
    {quote : Char} (isQuote : Redact.isQuote quote = true) :
    subFrom rule.expr rule.template prev 0 (keyTail quote key ++ rest) =
      keyTail quote key ++ subFrom rule.expr rule.template (some quote) 0 rest := by
  have other : isNameChar (char (ofChar quote : α)) = false := by
    rw [char_ofChar]
    exact isNameChar_quote isQuote
  have colon : isNameChar (char (ofChar ':' : α)) = false := by
    rw [char_ofChar]
    decide
  have ascii : ∀ c ∈ key.toList, c.toNat < 128 := fun c inKey => ((key_facts mem).2 c inKey).2
  simp only [keyTail, List.map_cons, List.map_append, List.cons_append, List.append_assoc,
    List.map_nil, List.nil_append]
  rw [led.subFrom_key known ascii silent (by simp) other,
    subFrom_copy (led.none_of_head known other), subFrom_copy (led.none_of_head known colon),
    subFrom_copy (led.none_of_head known other), char_ofChar]

/-- The rule for header lines starts at the start of a line. -/
theorem headerLine_none {c : Char} (notBreak : c ≠ '\n') :
    matchAt headerLine.expr (some c) rest = none := by
  rw [matchAt_none_iff]
  intro taken rest' groups _ ways
  rcases headerLine_ways ways with ⟨_, _, _, _, -, -, -, -, lineStart, -⟩
  exact notBreak (lineStart c rfl)

theorem headerLine_none_of_head (notSpace : isSpace (char glyph) = false)
    (other : isNameChar (char glyph) = false) :
    matchAt headerLine.expr prev (glyph :: rest) = none := by
  rw [matchAt_none_iff]
  intro taken rest' groups split ways
  rcases headerLine_ways ways with ⟨spaces, name, _, _, rfl, -, -, -, -, isSpaces, isName, -⟩
  rcases isName.isNameChar areNames_header with ⟨nonempty, chars⟩
  rcases spaces with _ | ⟨head, spaces⟩
  · rcases name with _ | ⟨head, name⟩
    · exact nonempty rfl
    · simp only [List.nil_append, List.cons_append, List.cons.injEq] at split
      rcases split with ⟨rfl, -⟩
      rw [chars glyph (List.mem_cons_self ..)] at other
      cases other
  · rw [List.cons_append, List.cons_append, List.cons.injEq] at split
    rcases split with ⟨rfl, -⟩
    rw [isSpaces glyph (List.mem_cons_self ..)] at notSpace
    cases notSpace

theorem headerLine_copies {c : Char} (notBreak : c ≠ '\n') {left : List α}
    (oneLine : ∀ glyph ∈ left, char glyph ≠ '\n') :
    subFrom headerLine.expr headerLine.template (some c) 0 (left ++ rest) =
      left ++ subFrom headerLine.expr headerLine.template (lastChar (some c) left) 0 rest := by
  refine subFrom_append_of_silent left rest (some c) ?_
  rintro front glyph back rfl
  have reached : ∃ d, lastChar (some c) front = some d ∧ d ≠ '\n' := by
    rcases List.eq_nil_or_concat front with rfl | ⟨front, last, rfl⟩
    · exact ⟨c, rfl, notBreak⟩
    · refine ⟨char last, by simp, oneLine last (by simp)⟩
  rcases reached with ⟨d, last, notBreak'⟩
  rw [last]
  exact headerLine_none notBreak'

end Scans

section Values

variable {α : Type} [Glyph α] {table : CharTable} {prev : Option Char} {closing : α}
  {value rest : List α}

theorem isGenericValue_of_isAmiValue {c : Char} (inClass : isAmiValue c = true) :
    isGenericValue c = true := by
  simp only [isAmiValue, isGenericValue, Bool.not_eq_true', Bool.or_eq_false_iff] at inClass ⊢
  exact inClass.1

theorem isGenericValue_facts {c : Char} (inClass : isGenericValue c = true) :
    isSpace c = false ∧ isQuote c = false ∧ c ≠ '\n' := by
  simp only [isGenericValue, Bool.not_eq_true', Bool.or_eq_false_iff] at inClass
  refine ⟨inClass.1.1.1.1.1, inClass.2, ?_⟩
  rintro rfl
  exact absurd inClass.1.1.1.1.1 (by decide)

theorem notLineBreak_of_isGenericValue {c : Char} (inClass : isGenericValue c = true) :
    notLineBreak c = true := by
  by_contra isBreak
  have space : isGenericValue c = false := by
    rw [Bool.not_eq_true] at isBreak
    simp only [notLineBreak, Bool.and_eq_false_iff, bne_eq_false_iff_eq] at isBreak
    rcases isBreak with rfl | rfl <;> decide
  rw [space] at inClass
  cases inClass

theorem notLineBreak_quote (quoted : isQuote quote = true) : notLineBreak quote = true := by
  simp only [isQuote, Bool.or_eq_true, beq_iff_eq] at quoted
  rcases quoted with rfl | rfl <;> decide

theorem quote_facts {quote : Char} (quoted : isQuote quote = true) :
    isSpace quote = false ∧ isAmiValue quote = false ∧ isGenericValue quote = false ∧
      sameFolded quote quote = true := by
  simp only [isQuote, Bool.or_eq_true, beq_iff_eq] at quoted
  rcases quoted with rfl | rfl <;> decide

theorem eq_of_sameFolded {quote c : Char} (quoted : isQuote quote = true)
    (folded : sameFolded quote c = true) : c = quote := by
  have folded : foldCase quote = foldCase c := by simpa [sameFolded] using folded
  simp only [isQuote, Bool.or_eq_true, beq_iff_eq] at quoted
  rcases quoted with rfl | rfl
  · exact eq_of_foldCase_eq folded.symm (by decide)
  · exact eq_of_foldCase_eq folded.symm (by decide)

/-- A separator that starts in a value is a single glyph of it. -/
theorem separator_in_value {set : Char → Bool} {sep tail behind : List α}
    (isSep : IsSpaced set sep) (split : sep ++ tail = behind ++ closing :: rest)
    (inClass : ∀ glyph ∈ behind, isGenericValue (char glyph) = true)
    (isClosing : isQuote (char closing) = true) (other : set (char closing) = false) :
    ∃ glyph behind', set (char glyph) = true ∧ sep = [glyph] ∧ behind = glyph :: behind' ∧
      tail = behind' ++ closing :: rest := by
  have notSpace : ∀ glyph ∈ behind ++ [closing], isSpace (char glyph) = false := by
    intro glyph mem
    rcases List.mem_append.mp mem with inBehind | last
    · exact (isGenericValue_facts (inClass glyph inBehind)).1
    · rw [List.mem_singleton.mp last]
      exact (quote_facts isClosing).1
  rcases isSep with ⟨left, glyph, right, rfl, inSet, spaces, spaces'⟩
  rcases left with _ | ⟨space, left⟩
  · rcases behind with _ | ⟨first, behind⟩
    · simp only [List.nil_append, List.cons_append, List.cons.injEq] at split
      rw [split.1, other] at inSet
      cases inSet
    · simp only [List.nil_append, List.cons_append, List.cons.injEq] at split
      rcases split with ⟨rfl, split⟩
      rcases right with _ | ⟨space, right⟩
      · exact ⟨glyph, behind, inSet, rfl, rfl, split⟩
      · have isSpace := spaces' space (List.mem_cons_self ..)
        have inText : space ∈ (glyph :: behind) ++ [closing] := by
          rcases behind with _ | ⟨second, behind⟩
          · simp only [List.nil_append, List.cons_append, List.cons.injEq] at split
            simp [split.1]
          · simp only [List.cons_append, List.cons.injEq] at split
            simp [split.1]
        rw [notSpace space inText] at isSpace
        cases isSpace
  · have isSpace := spaces space (List.mem_cons_self ..)
    have inText : space ∈ behind ++ [closing] := by
      rcases behind with _ | ⟨first, behind⟩
      · simp only [List.nil_append, List.cons_append, List.cons.injEq] at split
        simp [split.1]
      · simp only [List.cons_append, List.cons.injEq] at split
        simp [split.1]
    rw [notSpace space inText] at isSpace
    cases isSpace

/-- A quote in the text stands behind a value without quotes. -/
theorem quote_behind_value {front back : List α} {quote : α}
    (noQuote : ∀ glyph ∈ value, isQuote (char glyph) = false)
    (quoted : isQuote (char quote) = true)
    (split : value ++ closing :: rest = front ++ quote :: back) :
    ∃ extra, front ++ [quote] = value ++ closing :: extra ∧ rest = extra ++ back ∧
      quote ∈ closing :: extra := by
  rcases append_eq_append_cons (P := fun glyph => isQuote (char glyph) = false) split
    noQuote (by simp [quoted]) with ⟨between, rfl, tail⟩
  rcases between with _ | ⟨first, between⟩
  · rw [List.nil_append, List.cons.injEq] at tail
    rcases tail with ⟨rfl, rfl⟩
    exact ⟨[], by simp, rfl, List.mem_cons_self ..⟩
  · rw [List.cons_append, List.cons.injEq] at tail
    rcases tail with ⟨rfl, rfl⟩
    exact ⟨between ++ [quote], by simp, by simp, by simp⟩

theorem isWord_quote {quote : Char} (isQuote : Redact.isQuote quote = true) :
    table.isWord quote = false := by
  simp only [Redact.isQuote, Bool.or_eq_true, beq_iff_eq] at isQuote
  rcases isQuote with rfl | rfl
  · rw [table.isWord_ascii (by decide)]
    decide
  · rw [table.isWord_ascii (by decide)]
    decide

theorem lastChar_any {quote : Char} (isQuote : Redact.isQuote quote = true) (front : List α) :
    (lastChar (some quote) front).any table.isWord =
      (front.map char).getLast?.any table.isWord := by
  rcases List.eq_nil_or_concat front with rfl | ⟨front, last, rfl⟩
  · simp [isWord_quote isQuote]
  · simp

/-- The rule for headers finds none in a value that has none. -/
theorem header_value (inClass : ∀ glyph ∈ value, isGenericValue (char glyph) = true)
    (isClosing : isQuote (char closing) = true) {quote : Char}
    (quoted : isQuote quote = true) (headerless : ¬ HasHeader table (value.map char)) :
    subFrom (header table).expr (header table).template (some quote) 0
        (value ++ closing :: rest) =
      value ++ closing ::
        subFrom (header table).expr (header table).template (some (char closing)) 0 rest := by
  rw [subFrom_append_of_silent, subFrom_copy (nameLed_header.none_of_head areNames_header
    (isNameChar_quote isClosing))]
  rintro front glyph back rfl
  rw [matchAt_none_iff]
  intro taken rest' groups split ways
  rcases header_ways ways with ⟨name, sep, text, rfl, -, -, boundary, isName, isSep, -⟩
  rcases isName.isNameChar areNames_header with ⟨nonempty, chars⟩
  rw [← split, lastChar_any quoted] at boundary
  simp only [List.append_assoc] at split
  rcases append_eq_append_cons (b := glyph :: back)
    (P := fun glyph => isNameChar (char glyph) = true) split.symm chars
    (by simp [isNameChar_quote isClosing]) with ⟨behind, inValue, tail⟩
  have notColon : (char closing == ':') = false := by
    simp only [isQuote, Bool.or_eq_true, beq_iff_eq] at isClosing
    rcases isClosing with same | same <;> rw [same] <;> decide
  rcases separator_in_value isSep tail (by
    intro glyph' mem
    exact inClass glyph' (by rw [inValue]; simp [mem])) isClosing notColon with
    ⟨colon, behind', isColon, -, rfl, -⟩
  have colon_eq : char colon = ':' := by simpa using isColon
  refine headerless ⟨front.map char, name.map char, behind'.map char, ?_, ?_, ?_⟩
  · rw [inValue]
    simp [colon_eq]
  · rcases isName with ⟨word, mem, spells⟩
    exact ⟨word, mem, List.forall₂_map_right_iff.mpr spells⟩
  · rcases name with _ | ⟨head, name⟩
    · exact absurd rfl nonempty
    · rw [List.cons_append, List.cons.injEq] at inValue
      rcases inValue with ⟨rfl, -⟩
      simpa using boundary

end Values

section Masks

variable {α : Type} [Glyph α] {table : CharTable} {prev : Option Char} {closing : α}
  {value rest : List α} {groups : ℕ → List α} {quote : Char}

theorem head?_results_amiNames {key : String} (mem : key ∈ amiSecretNames) :
    (results (names "SESSION_COOKIE" amiSecretNames.tail)
        ⟨prev, key.toList.map ofChar ++ rest, groups⟩).head? =
      some ⟨lastChar prev (key.toList.map (ofChar (α := α))), rest, groups⟩ := by
  simp only [amiSecretNames, List.mem_cons, List.not_mem_nil, or_false] at mem
  rcases mem with rfl | rfl | rfl | rfl | rfl | rfl | rfl <;>
    simp [names, amiSecretNames, Expr.oneOf, results, startsWith, sameLetter, foldCase,
      Cursor.advance]

theorem head?_results_genericNames {key : String} (mem : key ∈ genericSecretNames) :
    (results genericNames ⟨prev, key.toList.map ofChar ++ rest, groups⟩).head? =
      some ⟨lastChar prev (key.toList.map (ofChar (α := α))), rest, groups⟩ := by
  simp only [genericSecretNames, List.mem_cons, List.not_mem_nil, or_false] at mem
  rcases mem with rfl | rfl | rfl | rfl | rfl | rfl | rfl | rfl | rfl <;>
    simp [genericNames, names, literal, Expr.oneOf, Expr.chain, Expr.opt, results, startsWith,
      sameLetter, foldCase, Cursor.advance, lengths, List.range_succ]

theorem head?_results_spaced {set : Char → Bool} {glyph : α} (inSet : set (char glyph) = true)
    (notSpace : isSpace (char glyph) = false)
    (ends : ∀ next ∈ rest.head?, isSpace (char next) = false) :
    (results (spaced set) ⟨prev, glyph :: rest, groups⟩).head? =
      some ⟨some (char glyph), rest, groups⟩ := by
  simp only [spaced, Expr.chain]
  refine head?_results_seq ⟨prev, glyph :: rest, groups⟩ ?_
    (head?_results_seq ⟨some (char glyph), rest, groups⟩ ?_ ?_)
  · rw [Expr.many, results_run_of_head (by simpa using notSpace), List.head?_cons]
  · rw [results_one_cons inSet, List.head?_cons]
  · rw [Expr.many, results_run_of_head ends, List.head?_cons]

/-- The groups that the pattern for the AMI names has set when it comes to the value of a
field. -/
def amiGroups (quote : Char) (key : String) : ℕ → List α :=
  Function.update (Function.update (Function.update (fun _ => []) 1 [ofChar quote])
    2 (key.toList.map ofChar)) 3 [ofChar ':']

/-- The pattern for the AMI names comes to the value of a field through its label. -/
theorem matchAt_amiSecret_label {key : String} (mem : key ∈ amiSecretNames)
    (quoted : isQuote quote = true) {final : Cursor α}
    (found : (results (.chain (.group 4 (.opt isQuote))
        [.many isAmiValue, .backref 4 sameFolded])
      ⟨some ':', ofChar quote :: rest, amiGroups quote key⟩).head? = some final) :
    matchAt amiSecret.expr prev (label quote key ++ rest) = some final := by
  rcases quote_facts quoted with ⟨notSpace, -, -, folded⟩
  let groups1 : ℕ → List α := Function.update (fun _ => []) 1 [ofChar quote]
  let groups2 : ℕ → List α := Function.update groups1 2 (key.toList.map ofChar)
  simp only [matchAt, amiSecret, Expr.chain, label, List.map_cons, List.map_append,
    List.cons_append, List.append_assoc, List.map_nil, List.nil_append]
  let last := lastChar (some quote) (key.toList.map (ofChar (α := α)))
  refine head?_results_seq ⟨some quote, key.toList.map ofChar ++
      ofChar quote :: ofChar ':' :: ofChar quote :: rest, groups1⟩ ?_
    (head?_results_seq ⟨last, ofChar quote :: ofChar ':' :: ofChar quote :: rest, groups2⟩ ?_
    (head?_results_seq ⟨some quote, ofChar ':' :: ofChar quote :: rest, groups2⟩ ?_
    (head?_results_seq ⟨some ':', ofChar quote :: rest, amiGroups quote key⟩ ?_ found)))
  · have first := @head?_results_group_opt α _ prev (fun _ => [])
      (key.toList.map ofChar ++ ofChar quote :: ofChar ':' :: ofChar quote :: rest) isQuote 1
      (ofChar quote) (by rwa [char_ofChar])
    rwa [char_ofChar] at first
  · exact head?_results_group (head?_results_amiNames mem)
  · have spells : Spells sameFolded ((groups2 1).map char) [(ofChar quote : α)] := by
      simp [groups2, groups1, spells_singleton, folded]
    have step := @results_backref_spelled α _ last groups2 [ofChar quote]
      (ofChar ':' :: ofChar quote :: rest) 1 sameFolded spells
    rw [List.singleton_append] at step
    rw [step]
    simp
  · have step := @head?_results_spaced α _ (some quote) (ofChar quote :: rest)
      groups2 isSeparator (ofChar ':') (by simp [isSeparator]) (by rw [char_ofChar]; decide)
      (by simpa using notSpace)
    have whole := @head?_results_group α _ _ _ _ [ofChar ':'] _ 3 groups2 step
    rwa [lastChar_cons, lastChar_nil, char_ofChar] at whole

/-- The pattern for the AMI names takes the whole of a field whose value is in its class. -/
theorem matchAt_amiSecret {key : String} (mem : key ∈ amiSecretNames)
    (quoted : isQuote quote = true)
    (inClass : ∀ glyph ∈ value, isAmiValue (char glyph) = true) (isClosing : char closing = quote) :
    ∃ groups, matchAt amiSecret.expr prev (label quote key ++ (value ++ closing :: rest)) =
        some ⟨some quote, rest, groups⟩ ∧
      groups 1 = [ofChar quote] ∧ groups 2 = key.toList.map ofChar ∧ groups 3 = [ofChar ':'] ∧
      groups 4 = [ofChar quote] := by
  rcases quote_facts quoted with ⟨-, notValue, -, folded⟩
  let groups4 : ℕ → List α := Function.update (amiGroups quote key) 4 [ofChar quote]
  refine ⟨groups4, matchAt_amiSecret_label mem quoted ?_, by simp [groups4, amiGroups],
    by simp [groups4, amiGroups], by simp [groups4, amiGroups], by simp [groups4]⟩
  refine head?_results_seq ⟨some quote, value ++ closing :: rest, groups4⟩ ?_
    (head?_results_seq ⟨lastChar (some quote) value, closing :: rest, groups4⟩ ?_ ?_)
  · have step := @head?_results_group_opt α _ (some ':') (amiGroups quote key)
      (value ++ closing :: rest) isQuote 4 (ofChar quote) (by rwa [char_ofChar])
    rwa [char_ofChar] at step
  · exact head?_results_many inClass (by simpa [isClosing] using notValue) (Nat.zero_le _)
  · have spells : Spells sameFolded ((groups4 4).map char) [closing] := by
      simp [groups4, spells_singleton, isClosing, folded]
    have step := @results_backref_spelled α _ (lastChar (some quote) value) groups4 [closing]
      rest 4 sameFolded spells
    rw [List.singleton_append] at step
    rw [Expr.chain, step]
    simp [isClosing]

/-- A field with a key of the AMI pattern is masked. -/
theorem amiSecret_masks {key : String} (mem : key ∈ amiSecretNames)
    (quoted : isQuote quote = true)
    (inClass : ∀ glyph ∈ value, isAmiValue (char glyph) = true) (isClosing : char closing = quote) :
    subFrom amiSecret.expr amiSecret.template prev 0
        (label quote key ++ (value ++ closing :: rest)) =
      label quote key ++ (redacted.toList.map ofChar ++ ofChar quote ::
        subFrom amiSecret.expr amiSecret.template (some quote) 0 rest) := by
  have taken : ∃ groups : ℕ → List α, matchAt amiSecret.expr prev
      (label quote key ++ (value ++ closing :: rest)) = some ⟨some quote, rest, groups⟩ ∧ _ :=
    matchAt_amiSecret mem quoted inClass isClosing
  rcases taken with ⟨groups, found, group1, group2, group3, group4⟩
  have split : label quote key ++ (value ++ closing :: rest) =
      (label quote key ++ (value ++ [closing])) ++ rest := by simp
  have last : lastChar prev (label quote key ++ (value ++ [closing])) = some quote := by
    simp [isClosing]
  rw [split] at found ⊢
  rw [subFrom_replace (by simp [label]) found, last]
  simp [amiSecret, expand, mark, group1, group2, group3, group4, label]

theorem results_boundary_key {key : String} (mem : key ∈ genericSecretNames)
    (quoted : isQuote quote = true) :
    results (.boundary table.isWord) ⟨some quote, key.toList.map ofChar ++ rest, groups⟩ =
      [⟨some quote, key.toList.map ofChar ++ rest, groups⟩] := by
  have checked : (genericSecretNames.all fun key => key.toList.head?.any fun c =>
      (c.isAlphanum || c == '_') && decide (c.toNat < 128)) = true := by decide
  have first := List.all_eq_true.mp checked key mem
  generalize key.toList = letters at first ⊢
  rcases letters with _ | ⟨c, letters⟩
  · cases first
  · simp only [List.head?_cons, Option.any_some, Bool.and_eq_true, decide_eq_true_eq] at first
    simp [results, isWord_quote quoted, table.isWord_ascii first.2, first.1]

/-- The groups that the generic pattern has set when it comes to the value of a field. -/
def genericGroups (quote : Char) (key : String) : ℕ → List α :=
  Function.update (Function.update (fun _ => []) 1 (key.toList.map ofChar))
    2 [ofChar quote, ofChar ':']

/-- The generic pattern comes to the value of a field through its label, without the first
quote. -/
theorem matchAt_genericSecret_label {key : String} (mem : key ∈ genericSecretNames)
    (quoted : isQuote quote = true) {final : Cursor α}
    (found : (results (.chain (.group 3 (.opt isQuote))
        [.many isGenericValue, .backref 3 sameFolded])
      ⟨some ':', ofChar quote :: rest, genericGroups quote key⟩).head? = some final) :
    matchAt (genericSecret table).expr (some quote) (keyTail quote key ++ rest) = some final := by
  rcases quote_facts quoted with ⟨notSpace, -, -, -⟩
  let groups1 : ℕ → List α := Function.update (fun _ => []) 1 (key.toList.map ofChar)
  simp only [matchAt, genericSecret, Expr.chain, keyTail, List.map_cons, List.map_append,
    List.cons_append, List.append_assoc, List.map_nil, List.nil_append]
  let last := lastChar (some quote) (key.toList.map (ofChar (α := α)))
  refine head?_results_seq ⟨some quote, key.toList.map ofChar ++
      ofChar quote :: ofChar ':' :: ofChar quote :: rest, fun _ => []⟩ ?_
    (head?_results_seq ⟨last, ofChar quote :: ofChar ':' :: ofChar quote :: rest, groups1⟩ ?_
    (head?_results_seq ⟨some ':', ofChar quote :: rest, genericGroups quote key⟩ ?_ found))
  · rw [results_boundary_key mem quoted, List.head?_cons]
  · exact head?_results_group (head?_results_genericNames mem)
  · have separator := @head?_results_spaced α _ (some quote) (ofChar quote :: rest) groups1
      isSeparator (ofChar ':') (by simp [isSeparator]) (by rw [char_ofChar]; decide)
      (by simpa using notSpace)
    have opening := @results_opt_cons α _ last groups1 (ofChar ':' :: ofChar quote :: rest)
      isQuote (ofChar quote) (by rwa [char_ofChar])
    rw [char_ofChar] at opening separator
    have inner := head?_results_seq ⟨some quote, _, groups1⟩ (by rw [opening]; rfl) separator
    have whole := @head?_results_group α _ _ last groups1 [ofChar quote, ofChar ':']
      (ofChar quote :: rest) 2 groups1 (by simpa using inner)
    simpa [genericGroups, groups1] using whole

/-- The generic pattern takes the whole of a field, without the first quote, whose value is
in its class. -/
theorem matchAt_genericSecret {key : String} (mem : key ∈ genericSecretNames)
    (quoted : isQuote quote = true)
    (inClass : ∀ glyph ∈ value, isGenericValue (char glyph) = true)
    (isClosing : char closing = quote) :
    ∃ groups, matchAt (genericSecret table).expr (some quote)
        (keyTail quote key ++ (value ++ closing :: rest)) = some ⟨some quote, rest, groups⟩ ∧
      groups 1 = key.toList.map ofChar ∧ groups 2 = [ofChar quote, ofChar ':'] ∧
      groups 3 = [ofChar quote] := by
  rcases quote_facts quoted with ⟨-, -, notValue, folded⟩
  let groups3 : ℕ → List α := Function.update (genericGroups quote key) 3 [ofChar quote]
  refine ⟨groups3, matchAt_genericSecret_label mem quoted ?_, by simp [groups3, genericGroups],
    by simp [groups3, genericGroups], by simp [groups3]⟩
  refine head?_results_seq ⟨some quote, value ++ closing :: rest, groups3⟩ ?_
    (head?_results_seq ⟨lastChar (some quote) value, closing :: rest, groups3⟩ ?_ ?_)
  · have step := @head?_results_group_opt α _ (some ':') (genericGroups quote key)
      (value ++ closing :: rest) isQuote 3 (ofChar quote) (by rwa [char_ofChar])
    rwa [char_ofChar] at step
  · exact head?_results_many inClass (by simpa [isClosing] using notValue) (Nat.zero_le _)
  · have spells : Spells sameFolded ((groups3 3).map char) [closing] := by
      simp [groups3, spells_singleton, isClosing, folded]
    have step := @results_backref_spelled α _ (lastChar (some quote) value) groups3 [closing]
      rest 3 sameFolded spells
    rw [List.singleton_append] at step
    rw [Expr.chain, step]
    simp [isClosing]

/-- A field with a key of the generic pattern is masked, also without its first quote. -/
theorem genericSecret_masks {key : String} (mem : key ∈ genericSecretNames)
    (quoted : isQuote quote = true)
    (inClass : ∀ glyph ∈ value, isGenericValue (char glyph) = true)
    (isClosing : char closing = quote) :
    subFrom (genericSecret table).expr (genericSecret table).template (some quote) 0
        (keyTail quote key ++ (value ++ closing :: rest)) =
      keyTail quote key ++ (redacted.toList.map ofChar ++ ofChar quote ::
        subFrom (genericSecret table).expr (genericSecret table).template (some quote) 0 rest) := by
  have taken : ∃ groups : ℕ → List α, matchAt (genericSecret table).expr (some quote)
      (keyTail quote key ++ (value ++ closing :: rest)) = some ⟨some quote, rest, groups⟩ ∧ _ :=
    matchAt_genericSecret mem quoted inClass isClosing
  rcases taken with ⟨groups, found, group1, group2, group3⟩
  have split : keyTail quote key ++ (value ++ closing :: rest) =
      (keyTail quote key ++ (value ++ [closing])) ++ rest := by simp
  have last : lastChar (some quote) (keyTail quote key ++ (value ++ [closing])) = some quote := by
    simp [isClosing]
  rw [split] at found ⊢
  rw [subFrom_replace (by simp) found, last]
  simp [genericSecret, expand, mark, group1, group2, group3, keyTail]

theorem genericSecret_none_of_quote (quoted : isQuote quote = true) :
    matchAt (genericSecret table).expr prev ((ofChar quote : α) :: rest) = none :=
  nameLed_genericSecret.none_of_head areNames_generic
    (by rw [char_ofChar]; exact isNameChar_quote quoted)

end Masks

section AmiInGeneric

variable {α : Type} [Glyph α] {prev : Option Char} {glyph : α} {value rest : List α}
  {quote : Char}

theorem consumes_amiSecret : Consumes α amiSecret.expr := by
  have isPattern : amiSecret ∈ patterns asciiTable := by simp [patterns]
  exact consumes_of_mem isPattern

theorem notSeparator_quote {quote : Char} (quoted : isQuote quote = true) :
    isSeparator quote = false := by
  simp only [isQuote, Bool.or_eq_true, beq_iff_eq] at quoted
  rcases quoted with rfl | rfl <;> decide

/-- A match that does not start with a quote starts with a name. -/
theorem amiSecret_ways_name {taken : List α} {groups : ℕ → List α}
    (notQuote : ∀ glyph ∈ taken.head?, isQuote (char glyph) = false)
    (ways : Ways amiSecret.expr prev (fun _ => []) taken rest groups) :
    ∃ name sep opening value closing,
      taken = name ++ (sep ++ (opening ++ (value ++ closing))) ∧
      expand groups amiSecret.template =
        name ++ (sep ++ (opening ++ (redacted.toList.map ofChar ++ opening))) ∧
      SpellsOneOf amiSecretNames name ∧ IsSpaced isSeparator sep ∧ OptQuote opening ∧
      (∀ glyph ∈ value, isAmiValue (char glyph) = true) ∧
      Spells sameFolded (opening.map char) closing := by
  rcases amiSecret_ways ways with ⟨first, name, second, sep, opening, text, closing, rfl,
    group1, group2, group3, group4, isFirst, isName, isSecond, isSep, isOpening, isText, isClosing⟩
  rcases isFirst with rfl | ⟨glyph, quoted, rfl⟩
  · rw [List.map_nil, Spells, List.forall₂_nil_left_iff] at isSecond
    subst isSecond
    refine ⟨name, sep, opening, text, closing, rfl, ?_, isName, isSep, isOpening, isText,
      isClosing⟩
    simp [amiSecret, expand, mark, group1, group2, group3, group4]
  · have plain := notQuote glyph rfl
    rw [quoted] at plain
    cases plain

/-- No match starts at a glyph that is neither a quote nor part of a name. -/
theorem amiSecret_none_of_head (notQuote : isQuote (char glyph) = false)
    (other : isNameChar (char glyph) = false) :
    matchAt amiSecret.expr prev (glyph :: rest) = none := by
  rw [matchAt_none_iff]
  intro taken rest' groups split ways
  have nonempty : taken ≠ [] := by
    rintro rfl
    exact consumes_amiSecret _ _ _ ways
  rcases taken with _ | ⟨head, taken⟩
  · exact nonempty rfl
  · rw [List.cons_append, List.cons.injEq] at split
    rcases split with ⟨rfl, -⟩
    rcases amiSecret_ways_name (by simpa using notQuote) ways with
      ⟨name, _, _, _, _, same, -, isName, -⟩
    rcases isName.isNameChar areNames_ami with ⟨nonempty', chars⟩
    rcases name with _ | ⟨first, name⟩
    · exact nonempty' rfl
    · rw [List.cons_append, List.cons.injEq] at same
      rcases same with ⟨rfl, -⟩
      rw [chars glyph (List.mem_cons_self ..)] at other
      cases other

theorem key_chars {key : String} (mem : key ∈ secretKeys) :
    ∀ c ∈ key.toList, isGenericValue c = true ∧ isSeparator c = false := by
  have checked : (secretKeys.all fun key => key.toList.all fun c =>
      isGenericValue c && !isSeparator c) = true := by decide
  simpa using List.all_eq_true.mp checked key mem

/-- No match starts inside a key. -/
theorem amiSecret_copies_key {letters : List Char} (quoted : isQuote quote = true)
    (chars : ∀ c ∈ letters, isGenericValue c = true ∧ isSeparator c = false) :
    subFrom amiSecret.expr amiSecret.template prev 0
        (letters.map ofChar ++ ofChar quote :: rest) =
      letters.map ofChar ++ subFrom amiSecret.expr amiSecret.template
        (lastChar prev (letters.map (ofChar (α := α)))) 0 (ofChar quote :: rest) := by
  refine subFrom_append_of_silent _ _ _ ?_
  intro front glyph back split
  rw [matchAt_none_iff]
  intro taken rest' groups split' ways
  have inside : ∀ g ∈ glyph :: back,
      isGenericValue (char g) = true ∧ isSeparator (char g) = false := by
    intro g mem
    have inKey : g ∈ letters.map (ofChar (α := α)) := by
      rw [split]
      exact List.mem_append_right _ mem
    rcases List.mem_map.mp inKey with ⟨c, inLetters, rfl⟩
    rw [char_ofChar]
    exact chars c inLetters
  have notQuote : ∀ g ∈ taken.head?, isQuote (char g) = false := by
    rcases taken with _ | ⟨head, taken⟩
    · simp
    · rw [List.cons_append, List.cons.injEq] at split'
      rcases split' with ⟨rfl, -⟩
      simpa using (isGenericValue_facts (inside glyph (List.mem_cons_self ..)).1).2.1
  rcases amiSecret_ways_name notQuote ways with ⟨name, sep, _, _, _, rfl, -, isName, isSep, -⟩
  simp only [List.append_assoc] at split'
  rcases append_eq_append_cons (b := glyph :: back)
    (P := fun glyph => isNameChar (char glyph) = true) split'.symm
    (isName.isNameChar areNames_ami).2 (by simp [isNameChar_quote quoted]) with
    ⟨behind, inKey, tail⟩
  rcases separator_in_value isSep tail (by
      intro g mem
      exact (inside g (by rw [inKey]; exact List.mem_append_right _ mem)).1)
    (by rwa [char_ofChar]) (by rw [char_ofChar]; exact notSeparator_quote quoted) with
    ⟨g, behind', isSeparator, -, rfl, -⟩
  have notSeparator := (inside g (by rw [inKey]; simp)).2
  rw [isSeparator] at notSeparator
  cases notSeparator

/-- A match of the pattern that starts with a quote goes on with a name. -/
theorem amiSecret_ways_quote {taken : List α} {groups : ℕ → List α}
    (quoted : isQuote (char glyph) = true)
    (ways : Ways amiSecret.expr prev (fun _ => []) (glyph :: taken) rest groups) :
    ∃ name second sep opening value closing,
      taken = name ++ (second :: (sep ++ (opening ++ (value ++ closing)))) ∧
      expand groups amiSecret.template = glyph :: (name ++ glyph ::
        (sep ++ (opening ++ (redacted.toList.map ofChar ++ opening)))) ∧
      SpellsOneOf amiSecretNames name ∧ sameFolded (char glyph) (char second) = true ∧
      IsSpaced isSeparator sep := by
  rcases amiSecret_ways ways with ⟨first, name, second, sep, opening, text, closing, split,
    group1, group2, group3, group4, isFirst, isName, isSecond, isSep, -⟩
  rcases isFirst with rfl | ⟨first, -, rfl⟩
  · rcases isName.isNameChar areNames_ami with ⟨nonempty, chars⟩
    rcases name with _ | ⟨head, name⟩
    · exact absurd rfl nonempty
    · rw [List.nil_append, List.cons_append, List.cons.injEq] at split
      rcases split with ⟨rfl, -⟩
      have isName := chars glyph (List.mem_cons_self ..)
      rw [isNameChar_quote quoted] at isName
      cases isName
  · rw [List.singleton_append, List.cons.injEq] at split
    rcases split with ⟨rfl, split⟩
    rcases spells_singleton.mp isSecond with ⟨second, folded, rfl⟩
    refine ⟨name, second, sep, opening, text, closing, by simpa using split, ?_, isName, folded,
      isSep⟩
    simp [amiSecret, expand, mark, group1, group2, group3, group4]

/-- A quote is kept, whether or not a match starts at it. -/
theorem amiSecret_keeps_quote (quoted : isQuote quote = true) :
    ∃ rest', subFrom amiSecret.expr amiSecret.template prev 0 ((ofChar quote : α) :: rest) =
        ofChar quote :: rest' ∧
      ∀ glyph ∈ rest', glyph ∈ rest ∨ ∃ c, glyph = ofChar c := by
  have starts : ∃ rest', subFrom amiSecret.expr amiSecret.template prev 0
      ((ofChar quote : α) :: rest) = ofChar quote :: rest' := by
    cases found : matchAt amiSecret.expr prev ((ofChar quote : α) :: rest) with
    | none => exact ⟨_, subFrom_copy found⟩
    | some final =>
        rcases matchAt_some found with ⟨taken, split, last, ways⟩
        rcases final with ⟨_, rest', groups⟩
        dsimp only at split last ways
        rcases taken with _ | ⟨first, taken⟩
        · exact absurd ways (consumes_amiSecret _ _ _)
        · rw [List.cons_append, List.cons.injEq] at split
          rcases split with ⟨rfl, split⟩
          rcases amiSecret_ways_quote (by rwa [char_ofChar]) ways with
            ⟨_, _, _, _, _, _, -, expanded, -⟩
          rw [split, ← List.cons_append] at found
          rw [split, ← List.cons_append, subFrom_replace (by simp) found, expanded]
          exact ⟨_, List.cons_append⟩
  rcases starts with ⟨rest', starts⟩
  refine ⟨rest', starts, ?_⟩
  intro glyph mem
  have inOut : glyph ∈ subFrom amiSecret.expr amiSecret.template prev 0
      ((ofChar quote : α) :: rest) := by
    rw [starts]
    exact List.mem_cons_of_mem _ mem
  rcases mem_subFrom consumes_amiSecret inOut with inText | literal
  · rcases List.mem_cons.mp inText with rfl | inRest
    · exact .inr ⟨quote, rfl⟩
    · exact .inl inRest
  · exact .inr literal

theorem redacted_inClass :
    ∀ glyph ∈ redacted.toList.map (ofChar (α := α)), isGenericValue (char glyph) = true := by
  have checked : (redacted.toList.all isGenericValue) = true := by decide
  intro glyph mem
  rcases List.mem_map.mp mem with ⟨c, inMark, rfl⟩
  rw [char_ofChar]
  exact List.all_eq_true.mp checked c inMark

/-- The pattern for the AMI names leaves a value of the generic class in that class. -/
theorem amiSecret_value (quoted : isQuote quote = true)
    (inClass : ∀ glyph ∈ value, isGenericValue (char glyph) = true) :
    ∃ value' rest', subFrom amiSecret.expr amiSecret.template prev 0
        (value ++ (ofChar quote : α) :: rest) = value' ++ ofChar quote :: rest' ∧
      (∀ glyph ∈ value', isGenericValue (char glyph) = true) ∧
      ∀ glyph ∈ rest', glyph ∈ rest ∨ ∃ c, glyph = ofChar c := by
  induction size : value.length using Nat.strong_induction_on generalizing value prev with
  | _ size' ih =>
      subst size
      rcases value with _ | ⟨head, value⟩
      · rcases @amiSecret_keeps_quote α _ prev rest quote quoted with ⟨rest', kept, origin⟩
        exact ⟨[], rest', kept, by simp, origin⟩
      · cases found : matchAt amiSecret.expr prev (head :: (value ++ ofChar quote :: rest)) with
        | none =>
            rw [List.forall_mem_cons] at inClass
            rcases ih value.length (by simp) inClass.2 rfl with
              ⟨value', rest', copied, inClass', origin⟩
            rw [List.cons_append, subFrom_copy found, copied]
            exact ⟨head :: value', rest', rfl, by simpa using ⟨inClass.1, inClass'⟩, origin⟩
        | some final =>
            rcases matchAt_some found with ⟨taken, split, last, ways⟩
            rcases final with ⟨_, rest', groups⟩
            dsimp only at split last ways
            have notQuote : ∀ glyph ∈ taken.head?, isQuote (char glyph) = false := by
              rcases taken with _ | ⟨first, taken⟩
              · simp
              · rw [List.cons_append, List.cons.injEq] at split
                rcases split with ⟨rfl, -⟩
                simpa using (isGenericValue_facts (inClass head (List.mem_cons_self ..))).2.1
            rcases amiSecret_ways_name notQuote ways with ⟨name, sep, opening, text, closing, rfl,
              expanded, isName, isSep, isOpening, isText, isClosing⟩
            have split' : name ++ (sep ++ (opening ++ (text ++ (closing ++ rest')))) =
                (head :: value) ++ ofChar quote :: rest := by simpa using split.symm
            rcases append_eq_append_cons (P := fun glyph => isNameChar (char glyph) = true) split'
              (isName.isNameChar areNames_ami).2 (by simp [isNameChar_quote quoted]) with
              ⟨behind, inValue, tail⟩
            rw [inValue, List.forall_mem_append] at inClass
            rcases separator_in_value isSep tail inClass.2 (by rwa [char_ofChar])
              (by rw [char_ofChar]; exact notSeparator_quote quoted) with
              ⟨colon, behind', -, rfl, rfl, tail'⟩
            have isColon := inClass.2
            rw [List.forall_mem_cons] at isColon
            have nonempty : name ++ ([colon] ++ (opening ++ (text ++ closing))) ≠ [] := by simp
            rw [split] at found
            rw [List.cons_append, split, subFrom_replace nonempty found, expanded]
            have smaller : behind'.length < (head :: value).length := by
              rw [inValue]
              simp only [List.length_append, List.length_cons]
              omega
            rcases isOpening with rfl | ⟨glyph, quoted', rfl⟩
            · rw [List.map_nil, Spells, List.forall₂_nil_left_iff] at isClosing
              subst isClosing
              rw [List.nil_append, List.nil_append] at tail'
              rcases append_eq_append_cons (P := fun glyph => isAmiValue (char glyph) = true)
                tail' isText (by simp [(quote_facts quoted).2.1]) with ⟨left, rfl, rest_eq⟩
              rw [rest_eq]
              rw [List.forall_mem_append] at isColon
              rcases ih left.length (by simp at smaller ⊢; omega) isColon.2.2 rfl with
                ⟨value', rest'', reached, inClass', origin⟩
              refine ⟨name ++ colon :: (redacted.toList.map ofChar ++ value'), rest'', ?_, ?_,
                origin⟩
              · rw [reached]
                simp
              · simp only [List.forall_mem_append, List.forall_mem_cons]
                exact ⟨inClass.1, isColon.1, redacted_inClass, inClass'⟩
            · rcases behind' with _ | ⟨first, behind'⟩
              · simp only [List.cons_append, List.nil_append, List.cons.injEq] at tail'
                rcases tail' with ⟨rfl, tail'⟩
                refine ⟨name ++ [colon], redacted.toList.map ofChar ++ ofChar quote ::
                  subFrom amiSecret.expr amiSecret.template _ 0 rest', by simp; rfl, ?_, ?_⟩
                · simp only [List.forall_mem_append, List.forall_mem_cons]
                  exact ⟨inClass.1, isColon.1, by simp⟩
                · intro g mem
                  simp only [List.mem_append, List.mem_cons] at mem
                  rcases mem with inMark | rfl | inOut
                  · rcases List.mem_map.mp inMark with ⟨c, -, rfl⟩
                    exact .inr ⟨c, rfl⟩
                  · exact .inr ⟨quote, rfl⟩
                  · refine (mem_subFrom consumes_amiSecret inOut).imp_left ?_
                    intro inRest
                    rw [← tail']
                    simp [inRest]
              · simp only [List.cons_append, List.nil_append, List.cons.injEq] at tail'
                rcases tail' with ⟨rfl, -⟩
                have plain := (isGenericValue_facts (isColon.2 glyph (List.mem_cons_self ..))).2.1
                rw [quoted'] at plain
                cases plain

theorem genericKey_notAmi {key : String} (mem : key ∈ genericSecretNames) {name back : List α}
    (split : key.toList.map ofChar = name ++ back) : ¬ SpellsOneOf amiSecretNames name := by
  have checked : (genericSecretNames.all fun key => amiSecretNames.all fun word =>
      !startsWith sameLetter word.toList key.toList) = true := by decide
  rintro ⟨word, isWord, spells⟩
  have starts : startsWith sameLetter word.toList key.toList = true := by
    rw [← startsWith_map (f := (ofChar : Char → α)) (fun c => char_ofChar c), split]
    exact (startsWith_iff _ _ _).mpr ⟨name, back, rfl, spells⟩
  have silent := List.all_eq_true.mp (List.all_eq_true.mp checked key mem) word isWord
  rw [starts] at silent
  cases silent

/-- No match of the pattern for the AMI names starts at a field with another key. -/
theorem amiSecret_none_of_field {key : String} (mem : key ∈ genericSecretNames)
    (quoted : isQuote quote = true) :
    matchAt amiSecret.expr prev ((ofChar quote : α) :: (keyTail quote key ++ rest)) = none := by
  have quoted' : isQuote (char (ofChar quote : α)) = true := by rwa [char_ofChar]
  rw [matchAt_none_iff]
  intro taken rest' groups split ways
  rcases taken with _ | ⟨head, taken⟩
  · exact consumes_amiSecret _ _ _ ways
  · rw [List.cons_append, List.cons.injEq] at split
    rcases split with ⟨rfl, split⟩
    rcases amiSecret_ways_quote quoted' ways with ⟨name, _, _, _, _, _, rfl, -, isName, -⟩
    rw [keyTail, List.map_append, List.map_cons, List.append_assoc, List.cons_append,
      List.append_assoc] at split
    rcases append_eq_append_cons (P := fun glyph => isNameChar (char glyph) = true) split.symm
      (isName.isNameChar areNames_ami).2 (by simp [isNameChar_quote quoted]) with
      ⟨back, inKey, -⟩
    exact genericKey_notAmi mem inKey isName

/-- The pattern for the AMI names comes to the last quote of a label with another key. -/
theorem amiSecret_copies_keyTail {key : String} (mem : key ∈ secretKeys)
    (quoted : isQuote quote = true) :
    subFrom amiSecret.expr amiSecret.template prev 0 (keyTail quote key ++ rest) =
      (key.toList ++ [quote, ':']).map ofChar ++
        subFrom amiSecret.expr amiSecret.template (some ':') 0 ((ofChar quote : α) :: rest) := by
  have quoted' : isQuote (char (ofChar quote : α)) = true := by rwa [char_ofChar]
  have second : ∀ (prev : Option Char) (tail : List α), matchAt amiSecret.expr prev
      (ofChar quote :: ofChar ':' :: tail) = none := by
    intro prev tail
    rw [matchAt_none_iff]
    intro taken rest' groups split ways
    rcases taken with _ | ⟨head, taken⟩
    · exact consumes_amiSecret _ _ _ ways
    · rw [List.cons_append, List.cons.injEq] at split
      rcases split with ⟨rfl, split⟩
      rcases amiSecret_ways_quote quoted' ways with ⟨name, _, _, _, _, _, rfl, -, isName, -⟩
      rcases isName.isNameChar areNames_ami with ⟨nonempty, chars⟩
      rcases name with _ | ⟨head, name⟩
      · exact nonempty rfl
      · rw [List.cons_append, List.cons_append, List.cons.injEq] at split
        have isColon := chars head (List.mem_cons_self ..)
        rw [← split.1, char_ofChar] at isColon
        cases isColon
  have colon : ∀ (prev : Option Char) (tail : List α), matchAt amiSecret.expr prev
      (ofChar ':' :: tail) = none :=
    fun prev tail => amiSecret_none_of_head (by rw [char_ofChar]; decide)
      (by rw [char_ofChar]; decide)
  simp only [keyTail, List.map_cons, List.map_append, List.cons_append, List.append_assoc,
    List.map_nil, List.nil_append]
  rw [amiSecret_copies_key quoted (key_chars mem), subFrom_copy (second _ _),
    subFrom_copy (colon _ _), char_ofChar]

/-- The pattern for the AMI names leaves a field with another key and a value of the generic
class such a field. -/
theorem amiSecret_field {key : String} (mem : key ∈ genericSecretNames)
    (quoted : isQuote quote = true)
    (inClass : ∀ glyph ∈ value, isGenericValue (char glyph) = true) :
    ∃ value' rest', subFrom amiSecret.expr amiSecret.template prev 0
        (keyTail quote key ++ (value ++ (ofChar quote : α) :: rest)) =
          keyTail quote key ++ (value' ++ ofChar quote :: rest') ∧
      (∀ glyph ∈ value', isGenericValue (char glyph) = true) ∧
      ∀ glyph ∈ rest', glyph ∈ rest ∨ ∃ c, glyph = ofChar c := by
  have isKey : key ∈ secretKeys := List.mem_append_right _ mem
  have quoted' : isQuote (char (ofChar quote : α)) = true := by rwa [char_ofChar]
  have opened : ∃ value' rest', subFrom amiSecret.expr amiSecret.template (some ':') 0
        ((ofChar quote : α) :: (value ++ ofChar quote :: rest)) =
          ofChar quote :: (value' ++ ofChar quote :: rest') ∧
      (∀ glyph ∈ value', isGenericValue (char glyph) = true) ∧
      ∀ glyph ∈ rest', glyph ∈ rest ∨ ∃ c, glyph = ofChar c := by
    cases found : matchAt amiSecret.expr (some ':')
        ((ofChar quote : α) :: (value ++ ofChar quote :: rest)) with
    | none =>
        rcases @amiSecret_value α _ (some (char (ofChar quote : α))) value rest quote quoted
          inClass with ⟨value', rest', copied, inClass', origin⟩
        rw [subFrom_copy found, copied]
        exact ⟨value', rest', rfl, inClass', origin⟩
    | some final =>
        rcases matchAt_some found with ⟨taken, split, last, ways⟩
        rcases final with ⟨_, rest', groups⟩
        dsimp only at split last ways
        rcases taken with _ | ⟨head, taken⟩
        · exact absurd ways (consumes_amiSecret _ _ _)
        · rw [List.cons_append, List.cons.injEq] at split
          rcases split with ⟨rfl, split⟩
          rcases amiSecret_ways_quote quoted' ways with
            ⟨name, second, sep, opening, text, closing, rfl, expanded, isName, folded, -⟩
          rw [split, ← List.cons_append] at found
          rw [split, ← List.cons_append, subFrom_replace (by simp) found, expanded]
          rw [List.append_assoc] at split
          rcases append_eq_append_cons (P := fun glyph => isNameChar (char glyph) = true) split.symm
            (isName.isNameChar areNames_ami).2 (by simp [isNameChar_quote quoted]) with
            ⟨back, rfl, tail⟩
          rw [List.forall_mem_append] at inClass
          rcases back with _ | ⟨other, back⟩
          · rw [List.cons_append, List.nil_append, List.cons.injEq] at tail
            refine ⟨name, _, by simp; rfl, inClass.1, ?_⟩
            intro g mem
            simp only [List.mem_append] at mem
            have inRest : g ∈ sep ++ (opening ++ rest') → g ∈ rest := by
              intro inRest
              rw [← tail.2]
              simp only [List.mem_append] at inRest ⊢
              rcases inRest with inSep | inOpening | inTail
              · exact .inl (.inl inSep)
              · exact .inl (.inr (.inl inOpening))
              · exact .inr inTail
            simp only [List.mem_append] at inRest
            rcases mem with inSep | inOpening | inMark | inOpening | inOut
            · exact .inl (inRest (.inl inSep))
            · exact .inl (inRest (.inr (.inl inOpening)))
            · rcases List.mem_map.mp inMark with ⟨c, -, rfl⟩
              exact .inr ⟨c, rfl⟩
            · exact .inl (inRest (.inr (.inl inOpening)))
            · refine (mem_subFrom consumes_amiSecret inOut).imp_left ?_
              intro inOut
              exact inRest (.inr (.inr inOut))
          · rw [List.cons_append, List.cons_append, List.cons.injEq] at tail
            have plain := (isGenericValue_facts (inClass.2 other (List.mem_cons_self ..))).2.1
            rw [char_ofChar] at folded
            rw [← tail.1, eq_of_sameFolded quoted folded, quoted] at plain
            cases plain
  rcases opened with ⟨value', rest', opened, inClass', origin⟩
  refine ⟨value', rest', ?_, inClass', origin⟩
  rw [amiSecret_copies_keyTail isKey quoted, opened]
  simp [keyTail]

end AmiInGeneric

end Redact

end Asmb8Ikvm
