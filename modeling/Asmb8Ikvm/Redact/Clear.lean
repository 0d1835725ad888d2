import Asmb8Ikvm.Redact.Labels

/-!
# The text before a field

A match that starts before a field is a label with its value. As a rule it does the field no
harm: it ends before the field, or the first quote of the field closes it, or it takes the
whole field with it. There are two exceptions. A label with nothing but white space between it
and the field takes the key of the field for its value. And the pattern for the AMI names, which
counts a key only with both its quotes, misses a field whose first quote closes another value.
-/

namespace Asmb8Ikvm

open PyText Regex

namespace Redact

section Statements

/-- What may stand between a name and its separator in any of the patterns. -/
def IsGap (table : CharTable) (gap : List Char) : Prop :=
  ∃ left right, gap = left ++ right ∧ left.length ≤ 3 ∧
    (∀ c ∈ left, table.isWord c = false) ∧ ∀ c ∈ right, isSpace c = true

/-- `\1\s*`: a quote before the name stands behind it again. -/
def IsAmiGap (before : Option Char) (gap : List Char) : Prop :=
  ∃ second right, gap = second ++ right ∧ (∀ c ∈ right, isSpace c = true) ∧
    (second = [] ∨ ∃ quote, isQuote quote = true ∧ before = some quote ∧ second = [quote])

/-- `['\"]?\s*`. -/
def IsGenericGap (gap : List Char) : Prop :=
  ∃ second right, gap = second ++ right ∧ (∀ c ∈ right, isSpace c = true) ∧
    (second = [] ∨ ∃ quote, isQuote quote = true ∧ second = [quote])

/-- Labels of one kind: their names, whether a name counts at the start of a word only, whether
the value may stand in quotes, what may stand between a name with a character before it and the
separator, and the characters of a value. -/
structure LabelKind where
  words : List String
  bounded : Bool
  quoted : Bool
  gap : CharTable → Option Char → List Char → Prop
  inValue : Char → Bool

def headerKind : LabelKind :=
  ⟨headerWords, true, true, fun table _ => IsGap table, fun c => c != '\n'⟩

/-- Headers whose value is the rest of their line. -/
def lineKind : LabelKind :=
  ⟨headerWords, true, false, fun _ _ gap => ∀ c ∈ gap, isSpace c = true, notLineBreak⟩

def amiKind : LabelKind := ⟨amiSecretNames, false, true, fun _ => IsAmiGap, isAmiValue⟩

def genericKind : LabelKind :=
  ⟨genericSecretNames, true, true, fun _ _ => IsGenericGap, isGenericValue⟩

def labelKinds : List LabelKind := [headerKind, lineKind, amiKind, genericKind]

/-- The name does not go on with a word. -/
def StartsWord (table : CharTable) (front name : List Char) : Prop :=
  (front.getLast?.any table.isWord && name.head?.any table.isWord) = false

/-- The text ends with a label that has no value in it. -/
def Bare (table : CharTable) (kind : LabelKind) (text : List Char) : Prop :=
  ∃ front name gap sep spaces, text = front ++ (name ++ (gap ++ sep :: spaces)) ∧
    SpellsOneOf kind.words name ∧ (kind.bounded = true → StartsWord table front name) ∧
    kind.gap table front.getLast? gap ∧ isSeparator sep = true ∧ ∀ c ∈ spaces, isSpace c = true

/-- The text ends in the value of a label, and the quote before the value is not closed. -/
def Open (table : CharTable) (kind : LabelKind) (quote : Char) (text : List Char) : Prop :=
  ∃ front value, text = front ++ quote :: value ∧ Bare table kind front ∧
    ∀ c ∈ value, kind.inValue c = true ∧ c ≠ quote

/-- No label at the end of the text takes the key of a field behind it for its value, and no value
of an AMI label ends with the first quote of a field with an AMI name. -/
structure Clear (table : CharTable) (quote : Char) (key : String) (text : List Char) : Prop where
  header : ¬Bare table headerKind text
  ami : ¬Bare table amiKind text
  generic : key ∈ genericSecretNames → ¬Bare table genericKind text
  closed : key ∈ amiSecretNames → ¬Open table amiKind quote text

end Statements

section Ends

variable {table : CharTable} {kind : LabelKind}

/-- Letters all forms of which are ASCII, and the underscore. -/
def isPlainLetter (c : Char) : Bool :=
  c == '_' || (c.isAlpha && foldCase c != 'i' && foldCase c != 'k' && foldCase c != 's')

theorem isWord_of_isPlainLetter {letter c : Char} (plainLetter : isPlainLetter letter = true)
    (same : sameLetter letter c = true) : table.isWord c = true := by
  simp only [isPlainLetter, Bool.or_eq_true, Bool.and_eq_true, beq_iff_eq, bne_iff_ne]
    at plainLetter
  simp only [sameLetter, Bool.or_eq_true, Bool.and_eq_true, beq_iff_eq] at same
  rcases plainLetter with rfl | ⟨⟨⟨isAlpha, notI⟩, notK⟩, notS⟩
  · rcases same with (folded | ⟨isI, -⟩) | ⟨isS, -⟩
    · rw [eq_of_foldCase_eq (d := '_') folded (by decide), table.isWord_ascii (by decide)]
      decide
    · cases isI
    · cases isS
  · have folded := (same.resolve_right fun long => notS long.1).resolve_right
      fun dotless => notI dotless.1
    have isAlpha' : c.isAlpha = true := by
      unfold foldCase at folded notI notK
      split_ifs at folded notI notK
      all_goals first
        | exact absurd rfl notI
        | exact absurd rfl notK
        | exact absurd folded.symm notI
        | exact absurd folded.symm notK
        | rw [← Char.isAlpha_toLower_eq_isAlpha, folded, Char.isAlpha_toLower_eq_isAlpha, isAlpha]
    have ascii : c.toNat < 128 := by
      simp only [Char.isAlpha, Char.isUpper, Char.isLower, Bool.or_eq_true, Bool.and_eq_true,
        decide_eq_true_eq, ge_iff_le, UInt32.le_iff_toNat_le] at isAlpha'
      change (65 ≤ c.toNat ∧ c.toNat ≤ 90) ∨ (97 ≤ c.toNat ∧ c.toNat ≤ 122) at isAlpha'
      omega
    rw [table.isWord_ascii ascii, Char.isAlphanum, isAlpha', Bool.true_or, Bool.true_or]

theorem map_foldCase_eq_of_spells {letters letters' name : List Char}
    (ascii : ∀ c ∈ letters, c.toNat < 128) (ascii' : ∀ c ∈ letters', c.toNat < 128)
    (spells : Spells sameLetter letters name) (spells' : Spells sameLetter letters' name) :
    letters.map foldCase = letters'.map foldCase := by
  induction spells generalizing letters' with
  | nil =>
      rw [spells_nil_right] at spells'
      rw [spells']
  | cons same _ ih =>
      rcases spells' with _ | ⟨same', spells'⟩
      rw [List.forall_mem_cons] at ascii ascii'
      rw [List.map_cons, List.map_cons, foldCase_eq_of_sameLetter ascii.1 ascii'.1 same same',
        ih ascii.2 ascii'.2 spells']

theorem isWord_head_of_spells {letters name : List Char} (spells : Spells sameLetter letters name)
    (plainHead : letters.head?.any isPlainLetter = true) :
    name.head?.any table.isWord = true := by
  rcases spells with _ | ⟨same, -⟩
  · cases plainHead
  · exact isWord_of_isPlainLetter plainHead same

theorem isWord_last_of_spells {letters name : List Char} (spells : Spells sameLetter letters name)
    (plainLast : letters.getLast?.any isPlainLetter = true) :
    name.getLast?.any table.isWord = true := by
  rw [← List.head?_reverse] at plainLast ⊢
  exact isWord_head_of_spells (List.rel_reverse spells) plainLast

theorem SpellsOneOf.exists_last (table : CharTable) {words : List String} {name : List Char}
    (isName : SpellsOneOf words name)
    (plainLast : (words.all fun word => word.toList.getLast?.any isPlainLetter) = true) :
    ∃ init last, name = init ++ [last] ∧ table.isWord last = true := by
  rcases isName with ⟨word, mem, spells⟩
  have isLast : name.getLast?.any table.isWord = true :=
    isWord_last_of_spells spells (List.all_eq_true.mp plainLast word mem)
  rcases List.eq_nil_or_concat name with rfl | ⟨init, last, rfl⟩
  · cases isLast
  · exact ⟨init, last, by simp, by simpa using isLast⟩

/-- A header name is no end of an AMI name at a word boundary, and no AMI name an end of a
header name. -/
theorem not_both_names {front front' name name' : List Char}
    (split : front ++ name = front' ++ name') (isHeader : SpellsOneOf headerWords name)
    (isAmi : SpellsOneOf amiSecretNames name') (starts : StartsWord table front name) : False := by
  rcases isHeader with ⟨word, mem, spells⟩
  rcases isAmi with ⟨word', mem', spells'⟩
  have checked : (headerWords.all fun word => amiSecretNames.all fun word' =>
      (word.toList ++ word'.toList).all (fun c => decide (c.toNat < 128)) &&
      (List.range (word.toList.length + 1)).all (fun n =>
        (word.toList.drop n).map foldCase != word'.toList.map foldCase) &&
      (List.range (word'.toList.length + 1)).all fun n =>
        (word'.toList.drop n).map foldCase != word.toList.map foldCase ||
          ((word'.toList.take n).getLast?.any isPlainLetter &&
            word.toList.head?.any isPlainLetter)) = true := by decide +kernel
  have facts := List.all_eq_true.mp (List.all_eq_true.mp checked word mem) word' mem'
  simp only [Bool.and_eq_true, List.all_eq_true, List.mem_append, List.mem_range, bne_iff_ne,
    decide_eq_true_eq, Bool.or_eq_true] at facts
  rcases facts with ⟨⟨ascii, notEnd⟩, inWord⟩
  have asciiWord : ∀ c ∈ word.toList, c.toNat < 128 := fun c inLetters => ascii c (.inl inLetters)
  have asciiWord' : ∀ c ∈ word'.toList, c.toNat < 128 := fun c inLetters => ascii c (.inr inLetters)
  have dropped : ∀ {letters : List Char} (n : ℕ), (∀ c ∈ letters, c.toNat < 128) →
      ∀ c ∈ letters.drop n, c.toNat < 128 :=
    fun n plain c inLetters => plain c (List.mem_of_mem_drop inLetters)
  rcases List.append_eq_append_iff.mp split with ⟨middle, rfl, rfl⟩ | ⟨middle, rfl, rfl⟩
  · have few : middle.length < word.toList.length + 1 := by
      have length := spells.length_eq
      rw [List.length_append] at length
      omega
    exact notEnd _ few (map_foldCase_eq_of_spells (dropped _ asciiWord) asciiWord'
      (List.forall₂_drop_append _ _ _ spells) spells')
  · have few : middle.length < word'.toList.length + 1 := by
      have length := spells'.length_eq
      rw [List.length_append] at length
      omega
    rcases inWord _ few with differs | ⟨plainLast, plainHead⟩
    · exact differs (map_foldCase_eq_of_spells (dropped _ asciiWord') asciiWord
        (List.forall₂_drop_append _ _ _ spells') spells)
    · have isLast : middle.getLast?.any table.isWord = true :=
        isWord_last_of_spells (List.forall₂_take_append _ _ _ spells') plainLast
      have isHead : name.head?.any table.isWord = true := isWord_head_of_spells spells plainHead
      rcases List.eq_nil_or_concat middle with rfl | ⟨middle, last, rfl⟩
      · cases isLast
      · simp only [StartsWord, List.concat_eq_append, ← List.append_assoc, List.getLast?_append,
          List.getLast?_singleton, Option.some_or, isHead, Bool.and_true] at starts isLast
        rw [isLast] at starts
        cases starts

end Ends

section Replacement

variable {table : CharTable} {kind : LabelKind}

theorem areNames_of_mem (mem : kind ∈ labelKinds) : areNames kind.words = true := by
  have checked : (labelKinds.all fun kind => areNames kind.words) = true := by decide
  exact List.all_eq_true.mp checked kind mem

theorem isGap_spaces {right : List Char} (spaces : ∀ c ∈ right, isSpace c = true) :
    IsGap table right :=
  ⟨[], right, rfl, by simp, by simp, spaces⟩

theorem isGap_quote {quote : Char} {right : List Char} (quoted : isQuote quote = true)
    (spaces : ∀ c ∈ right, isSpace c = true) : IsGap table (quote :: right) :=
  ⟨[quote], right, rfl, by simp, by simpa using isWord_quote quoted, spaces⟩

theorem isGap_of_gap (mem : kind ∈ labelKinds) {before : Option Char} {gap : List Char}
    (isGap : kind.gap table before gap) : IsGap table gap := by
  simp only [labelKinds, List.mem_cons, List.not_mem_nil, or_false] at mem
  rcases mem with rfl | rfl | rfl | rfl
  · exact isGap
  · exact isGap_spaces isGap
  · rcases isGap with ⟨second, right, rfl, spaces, rfl | ⟨quote, quoted, -, rfl⟩⟩
    · exact isGap_spaces spaces
    · exact isGap_quote quoted spaces
  · rcases isGap with ⟨second, right, rfl, spaces, rfl | ⟨quote, quoted, rfl⟩⟩
    · exact isGap_spaces spaces
    · exact isGap_quote quoted spaces

theorem IsGap.not_mem {gap : List Char} (isGap : IsGap table gap) {c : Char}
    (isWord : table.isWord c = true) : c ∉ gap := by
  rcases isGap with ⟨left, right, rfl, -, notWord, spaces⟩
  rw [List.mem_append]
  rintro (inLeft | inRight)
  · rw [notWord c inLeft] at isWord
    cases isWord
  · rw [table.isWord_of_space (spaces c inRight)] at isWord
    cases isWord

theorem redacted_toList : redacted.toList = '[' :: "REDACTED]".toList := by decide

theorem mark_silent {mark' back : List Char} (isSuffix : mark' <:+ redacted.toList)
    (mem : kind ∈ labelKinds) {name : List Char} (split : mark' = name ++ back) :
    ¬ SpellsOneOf kind.words name := by
  have checked : (labelKinds.all fun kind => redacted.toList.tails.all fun tail =>
      kind.words.all fun word => !startsWith sameLetter word.toList tail) = true := by decide
  rintro ⟨word, isWord, spells⟩
  have starts : startsWith sameLetter word.toList mark' = true :=
    (startsWith_iff _ _ _).mpr ⟨name, back, split, spells⟩
  have inTails := List.all_eq_true.mp (List.all_eq_true.mp checked kind mem) mark'
    ((List.mem_tails _ _).mpr isSuffix)
  have silent := List.all_eq_true.mp inTails word isWord
  rw [starts] at silent
  cases silent

/-- A label behind the mark was there before the mark was. -/
theorem Bare.of_replaced (mem : kind ∈ labelKinds) {before behind : List Char}
    (removed : List Char)
    (bare : Bare table kind (before ++ (redacted.toList ++ behind)))
    (separate : ∀ c ∈ behind.head?, isNameChar c = false) :
    Bare table kind (before ++ (removed ++ behind)) := by
  rcases bare with ⟨front, name, gap, sep, spaces, split, isName, starts, isGap, isSep, isSpaces⟩
  rcases isName.isNameChar (areNames_of_mem mem) with ⟨nonempty, chars⟩
  have notHead : ∀ rest, behind ≠ name ++ rest := by
    rintro rest rfl
    rcases name with _ | ⟨head, name⟩
    · exact nonempty rfl
    · have inside : isNameChar head = true := chars head (List.mem_cons_self ..)
      have outside := separate head rfl
      rw [inside] at outside
      cases outside
  rcases List.append_eq_append_iff.mp split with ⟨front', rfl, split'⟩ | ⟨before', rfl, split'⟩
  · rcases List.append_eq_append_iff.mp split' with ⟨front'', rfl, rfl⟩ | ⟨mark', inMark, split''⟩
    · rcases List.eq_nil_or_concat front'' with rfl | ⟨front'', last, rfl⟩
      · exact absurd rfl (notHead _)
      · refine ⟨before ++ (removed ++ (front'' ++ [last])), name, gap, sep, spaces, by simp, isName,
          ?_, ?_, isSep, isSpaces⟩
        · intro isBounded
          simpa [StartsWord] using starts isBounded
        · simpa using isGap
    · rcases List.eq_nil_or_concat mark' with rfl | ⟨init, last, rfl⟩
      · exact absurd (by simpa using split''.symm) (notHead _)
      · have lastEq : last = ']' := by
          have ends := congrArg List.getLast? inMark
          simpa [redacted] using ends.symm
        rw [List.concat_eq_append, List.append_assoc, List.singleton_append] at split''
        rcases append_eq_append_cons (P := fun c => isNameChar (char c) = true) split'' chars
          (by rw [lastEq]; decide) with ⟨rest, rfl, -⟩
        exact absurd isName (mark_silent ⟨front', inMark.symm⟩ mem (by simp; rfl))
  · rw [redacted_toList, List.cons_append] at split'
    rcases append_eq_append_cons (c := '[') (P := fun c => isNameChar (char c) = true) split' chars
      (by decide) with ⟨before'', rfl, tail⟩
    rcases List.append_eq_append_iff.mp tail with ⟨before', rfl, tail'⟩ | ⟨gap', rfl, tail'⟩
    · rcases before' with _ | ⟨sep', left⟩
      · rw [List.nil_append, List.cons.injEq] at tail'
        rw [tail'.1] at isSep
        exact absurd isSep (by decide)
      · rw [List.cons_append, List.cons.injEq] at tail'
        have space := isSpaces '[' (by simp [tail'.2])
        exact absurd space (by decide)
    · rcases gap' with _ | ⟨first, _ | ⟨second, gap'⟩⟩
      · rw [List.nil_append, List.cons.injEq] at tail'
        rw [← tail'.1] at isSep
        exact absurd isSep (by decide)
      · rw [List.cons_append, List.nil_append, List.cons.injEq] at tail'
        have isMark : sep = 'R' := by
          have heads := congrArg List.head? tail'.2
          simpa using heads.symm
        rw [isMark] at isSep
        exact absurd isSep (by decide)
      · have isMark : second = 'R' := by
          have heads := congrArg (fun text => text.tail.head?) tail'
          simpa using heads.symm
        refine absurd ?_ ((isGap_of_gap mem isGap).not_mem (c := 'R') ?_)
        · simp [isMark]
        · rw [table.isWord_ascii (by decide)]
          decide

/-- An open value behind the mark was there before the mark was, if the mark is not in it. -/
theorem Open.of_replaced (mem : kind ∈ labelKinds) {quote : Char} {before behind : List Char}
    (removed : List Char)
    (isOpen : Open table kind quote (before ++ (redacted.toList ++ behind)))
    (separate : ∀ c ∈ behind.head?, isNameChar c = false)
    (stopped : ∃ c ∈ behind, kind.inValue c = false) :
    Open table kind quote (before ++ (removed ++ behind)) := by
  rcases isOpen with ⟨front, value, split, bare, inValue⟩
  have covered : ∃ behind', front = before ++ (redacted.toList ++ behind') ∧
      behind = behind' ++ quote :: value := by
    rw [← List.append_assoc] at split
    rcases List.append_eq_append_iff.mp split with ⟨front', rfl, rfl⟩ | ⟨mark', inFront, split'⟩
    · exact ⟨front', by simp, rfl⟩
    · rcases mark' with _ | ⟨first, mark'⟩
      · exact ⟨[], by simpa using inFront.symm, split'.symm⟩
      · rw [List.cons_append, List.cons.injEq] at split'
        rcases stopped with ⟨c, inBehind, stops⟩
        rw [(inValue c (by simp [split'.2, inBehind])).1] at stops
        cases stops
  rcases covered with ⟨behind', rfl, rfl⟩
  refine ⟨before ++ (removed ++ behind'), value, by simp, bare.of_replaced mem _ ?_, inValue⟩
  intro c isHead
  refine separate c ?_
  rw [List.head?_append, Option.mem_def.mp isHead]
  rfl

/-- No text ends with a header label and with an AMI label at once. -/
theorem Bare.not_both (mem : kind ∈ labelKinds) (isHeader : kind.words = headerWords)
    {text : List Char} (bare : Bare table kind text) : ¬Bare table amiKind text := by
  rintro ⟨front', name', gap', sep', spaces', split', isName', -, isGap', isSep', isSpaces'⟩
  rcases bare with ⟨front, name, gap, sep, spaces, rfl, isName, starts, isGap, isSep, isSpaces⟩
  have bounded : kind.bounded = true := by
    simp only [labelKinds, List.mem_cons, List.not_mem_nil, or_false] at mem
    rcases mem with rfl | rfl | rfl | rfl
    · rfl
    · rfl
    · exact absurd isHeader (by decide)
    · rfl
  have notSpace : ∀ {c : Char}, isSeparator c = true → ¬ isSpace c = true := by
    intro c isSep space
    simp only [isSeparator, Bool.or_eq_true, beq_iff_eq] at isSep
    rcases isSep with rfl | rfl
    · exact absurd space (by decide)
    · exact absurd space (by decide)
  have whole : (front ++ (name ++ gap)) ++ sep :: spaces =
      (front' ++ (name' ++ gap')) ++ sep' :: spaces' := by simpa using split'
  rcases append_cons_inj whole isSpaces isSpaces' (notSpace isSep) (notSpace isSep') with
    ⟨labels, -, -⟩
  rw [isHeader] at isName
  rcases isName.exists_last table (by decide) with ⟨init, last, rfl, isWord⟩
  rcases isName'.exists_last table (by decide) with ⟨init', last', rfl, isWord'⟩
  have outside : ∀ {gap : List Char}, IsGap table gap → ∀ c ∈ gap, ¬ table.isWord c = true :=
    fun isGap c inGap isWord => isGap.not_mem isWord inGap
  have named : (front ++ init) ++ last :: gap = (front' ++ init') ++ last' :: gap' := by
    simpa using labels
  rcases append_cons_inj named (outside (isGap_of_gap mem isGap))
    (outside (isGap_of_gap (by simp [labelKinds]) isGap')) (by simpa using isWord)
    (by simpa using isWord') with ⟨inits, rfl, -⟩
  have names : front ++ (init ++ [last]) = front' ++ (init' ++ [last]) := by
    rw [← List.append_assoc, ← List.append_assoc, inits]
  exact not_both_names names isName isName' (starts bounded)

end Replacement

section Matches

variable {α : Type} [Glyph α] {table : CharTable} {kind : LabelKind} {rule : Rule}
  {prev : Option Char} {taken rest replacement : List α} {groups : ℕ → List α}

/-- Characters at which no value ends that goes on over a quote. -/
def Crossed (kind : LabelKind) (quote c : Char) : Prop :=
  notLineBreak c = true ∧ (kind.quoted = true → isQuote c = true → c = quote)

/-- A match is a label, white space and a value; the replacement has the mark in the place of
a part of the value. -/
structure LabelMatch (table : CharTable) (kind : LabelKind) (prev : Option Char)
    (taken rest replacement lead name gap : List α) (sep : α)
    (spaces opening removed closing : List α) : Prop where
  taken_eq : taken =
    lead ++ (name ++ (gap ++ sep :: (spaces ++ (opening ++ (removed ++ closing)))))
  replacement_eq : replacement.map char =
    (lead ++ (name ++ (gap ++ sep :: (spaces ++ opening)))).map char ++
      (redacted.toList ++ closing.map char)
  origin : ∀ glyph ∈ replacement,
    glyph ∈ lead ++ (name ++ (gap ++ sep :: (spaces ++ opening))) ∨ ∃ c, glyph = ofChar c
  leads : ∃ more, replacement = lead ++ (name ++ more)
  rewrites : kind.words = headerWords → (∀ glyph ∈ lead, isSpace (char glyph) = true) ∧
    replacement = lead ++ (name ++ (gap ++ sep :: (spaces ++ opening))) ++
      (redacted.toList.map ofChar ++ opening) ∧ (kind.quoted = true → opening ≠ [])
  isLead : ∀ glyph ∈ lead, isSpace (char glyph) = true ∨ isQuote (char glyph) = true
  lead_tail : ∀ glyph ∈ lead.tail, isQuote (char glyph) = false
  isName : SpellsOneOf kind.words name
  starts : kind.bounded = true →
    ((lastChar prev lead).any table.isWord &&
      name.head?.any fun glyph => table.isWord (char glyph)) = false
  isGap : kind.gap table (lastChar prev lead) (gap.map char)
  isSep : isSeparator (char sep) = true
  isSpaces : ∀ glyph ∈ spaces, isSpace (char glyph) = true
  quotes : opening = [] ∧ closing = [] ∨ ∃ first last, opening = [first] ∧ closing = [last] ∧
    isQuote (char first) = true ∧ char last = char first
  isQuoted : opening ≠ [] → kind.quoted = true
  inValue : ∀ glyph ∈ removed, kind.inValue (char glyph) = true
  unquoted : ∀ glyph ∈ removed, ∀ first ∈ opening, char glyph ≠ char first
  crossing : ∀ inside quote beyond inner outer, removed = inside ++ quote :: beyond →
    isQuote (char quote) = true → beyond ++ (closing ++ rest) = inner ++ outer →
    (∀ glyph ∈ inner, Crossed kind (char quote) (char glyph)) → ∃ cut, outer = cut ++ rest
  stopped : ∀ glyph ∈ (closing ++ rest).head?, isAmiValue (char glyph) = false
  lined : kind.words = headerWords → closing = [] →
    ∀ glyph ∈ rest.head?, notLineBreak (char glyph) = false

/-- The matches of the rule are labels with their values. -/
def MatchesLabels (α : Type) [Glyph α] (table : CharTable) (kind : LabelKind) (rule : Rule) :
    Prop :=
  ∀ (prev : Option Char) (taken rest : List α) (groups : ℕ → List α),
    matchAt rule.expr prev (taken ++ rest) = some ⟨lastChar prev taken, rest, groups⟩ →
    Ways rule.expr prev (fun _ => []) taken rest groups →
    ∃ lead name gap sep spaces opening removed closing,
      LabelMatch table kind prev taken rest (expand groups rule.template)
        lead name gap sep spaces opening removed closing

theorem starts_of_boundary {name tail : List α} (nonempty : name ≠ [])
    (boundary : prev.any table.isWord ≠
      (name ++ tail).head?.any fun glyph => table.isWord (char glyph)) :
    ((lastChar prev ([] : List α)).any table.isWord &&
      name.head?.any fun glyph => table.isWord (char glyph)) = false := by
  rcases name with _ | ⟨head, name⟩
  · exact absurd rfl nonempty
  · simp only [List.cons_append, List.head?_cons, Option.any_some] at boundary
    rw [lastChar_nil, List.head?_cons, Option.any_some]
    cases isWord : table.isWord (char head) with
    | false => exact Bool.and_false _
    | true =>
        rw [isWord] at boundary
        simpa using boundary

theorem spells_quote {quote : α} {closing : List α} (quoted : isQuote (char quote) = true)
    (isClosing : Spells sameFolded ([quote].map char) closing) :
    ∃ glyph, closing = [glyph] ∧ char glyph = char quote := by
  rcases spells_singleton.mp isClosing with ⟨glyph, folded, rfl⟩
  exact ⟨glyph, rfl, eq_of_sameFolded quoted folded⟩

theorem isAmiValue_quote {c : Char} (quoted : isQuote c = true) : isAmiValue c = false :=
  (quote_facts quoted).2.1

/-- A run to the end of the line goes on over all that has no line break in it. -/
theorem crossing_of_line {beyond inner outer : List α}
    (ends : ∀ glyph ∈ rest.head?, notLineBreak (char glyph) = false)
    (split : beyond ++ rest = inner ++ outer)
    (calm : ∀ glyph ∈ inner, notLineBreak (char glyph) = true) : ∃ cut, outer = cut ++ rest := by
  rcases List.append_eq_append_iff.mp split with ⟨inner', rfl, rfl⟩ | ⟨outer', -, rfl⟩
  · rcases inner' with _ | ⟨first, inner'⟩
    · exact ⟨[], rfl⟩
    · have broken := ends first rfl
      rw [calm first (by simp)] at broken
      cases broken
  · exact ⟨outer', rfl⟩

theorem origin_of_append {front opening : List α} (inFront : opening ⊆ front) :
    ∀ glyph ∈ front ++ (redacted.toList.map ofChar ++ opening),
      glyph ∈ front ∨ ∃ c, glyph = ofChar c := by
  intro glyph mem
  rw [List.mem_append, List.mem_append] at mem
  rcases mem with inText | inMark | inOpening
  · exact .inl inText
  · rcases List.mem_map.mp inMark with ⟨c, -, rfl⟩
    exact .inr ⟨c, rfl⟩
  · exact .inl (inFront inOpening)

omit [Glyph α] in
theorem leads_of_append {replacement lead name front back : List α}
    (split : replacement = lead ++ (name ++ front) ++ back) :
    ∃ more, replacement = lead ++ (name ++ more) :=
  ⟨front ++ back, by simp [split]⟩

theorem not_newline_quote {c : Char} (quoted : isQuote c = true) : c ≠ '\n' := by
  rintro rfl
  exact absurd quoted (by decide)

theorem matchesLabels_quotedHeader : MatchesLabels α table headerKind (quotedHeader table) := by
  intro prev taken rest groups _ ways
  rcases quotedHeader_ways ways with ⟨name, _, _, body, closing, rfl, group1, group2, group3,
    boundary, isName, ⟨quote, quoted, rfl⟩, isClosing, ⟨gap, mid, rfl, few, notWord, isSep⟩,
    inBody⟩
  rcases isSep with ⟨left, sep, right, rfl, inSet, spaces, spaces'⟩
  rcases spells_quote quoted isClosing with ⟨glyph, rfl, same⟩
  have expanded : expand groups (quotedHeader table).template =
      [] ++ (name ++ ((gap ++ left) ++ sep :: (right ++ [quote]))) ++
        (redacted.toList.map ofChar ++ [quote]) := by
    simp [quotedHeader, expand, mark, group1, group2, group3]
  refine ⟨[], name, gap ++ left, sep, right, [quote], body, [glyph], ?_⟩
  refine ⟨by simp, by simp [expanded, same], ?_, leads_of_append expanded,
    fun _ => ⟨by simp, expanded, by simp⟩, by simp, by simp, isName, ?_, ?_, inSet, spaces',
    .inr ⟨quote, glyph, rfl, rfl, quoted, same⟩, fun _ => rfl, ?_, ?_, ?_, ?_,
    fun _ nothing => by cases nothing⟩
  · rw [expanded]
    exact origin_of_append (by simp)
  · intro _
    rw [List.append_assoc] at boundary
    exact starts_of_boundary (isName.isNameChar areNames_header).1 boundary
  · exact ⟨gap.map char, left.map char, by simp, by simpa using few, by simpa using notWord,
      by simpa using spaces⟩
  · intro g mem
    simpa [headerKind] using (inBody g mem).1
  · exact fun g mem => (inBody g mem).2
  · intro inside other beyond inner outer inRemoved isOther split calm
    have differs : char other ≠ char quote :=
      (inBody other (by simp [inRemoved])).2 quote (List.mem_singleton_self _)
    rw [List.singleton_append] at split
    rcases append_eq_append_cons (P := fun g => isQuote (char g) = true → char g = char other)
      split.symm (fun g mem => (calm g mem).2 rfl) (by
        rw [same]
        exact fun equal => differs (equal quoted).symm) with ⟨between, -, rfl⟩
    exact ⟨between ++ [glyph], by simp⟩
  · intro g mem
    simp only [List.singleton_append, List.head?_cons, Option.mem_some_iff] at mem
    rw [← mem, same]
    exact isAmiValue_quote quoted

/-- The rules for headers take all that is left of the line. -/
theorem headerLine_rest {text : List α} {final : Cursor α}
    (found : matchAt headerLine.expr prev text = some final) :
    ∀ glyph ∈ final.rest.head?, notLineBreak (char glyph) = false := by
  rcases exists_head?_results_seq found with ⟨_, -, found⟩
  rcases exists_head?_results_seq found with ⟨_, -, found⟩
  rcases exists_head?_results_seq found with ⟨_, -, found⟩
  rcases exists_head?_results_seq found with ⟨_, -, found⟩
  exact head?_rest_of_run found

theorem header_rest {text : List α} {final : Cursor α}
    (found : matchAt (header table).expr prev text = some final) :
    ∀ glyph ∈ final.rest.head?, notLineBreak (char glyph) = false := by
  rcases exists_head?_results_seq found with ⟨_, -, found⟩
  rcases exists_head?_results_seq found with ⟨_, -, found⟩
  rcases exists_head?_results_seq found with ⟨_, -, found⟩
  exact head?_rest_of_run found

theorem isQuote_space {c : Char} (space : isSpace c = true) : isQuote c = false := by
  simp only [isQuote, Bool.or_eq_false_iff, beq_eq_false_iff_ne]
  constructor
  · rintro rfl
    exact absurd space (by decide)
  · rintro rfl
    exact absurd space (by decide)

theorem isSeparator_colon {c : Char} (isColon : (c == ':') = true) : isSeparator c = true := by
  rw [isSeparator, isColon, Bool.true_or]

theorem isNameChar_space {c : Char} (space : isSpace c = true) : isNameChar c = false := by
  have code : c.toNat ≤ 32 ∨ 0x85 ≤ c.toNat ∧ c.toNat ≠ 0x130 ∧ c.toNat ≠ 0x131 ∧
      c.toNat ≠ 0x17F ∧ c.toNat ≠ 0x212A := by
    simp only [isSpace, Bool.or_eq_true, Bool.and_eq_true, decide_eq_true_eq, beq_iff_eq] at space
    omega
  have notUpper : ¬ c.isUpper := by
    simp only [Char.isUpper, decide_eq_true_eq, ge_iff_le, UInt32.le_iff_toNat_le]
    change ¬ (65 ≤ c.toNat ∧ c.toNat ≤ 90)
    omega
  have notLower : c.isLower = false := by
    simp only [Char.isLower, Bool.and_eq_false_iff, decide_eq_false_iff_not, ge_iff_le,
      UInt32.le_iff_toNat_le]
    change ¬ 97 ≤ c.toNat ∨ ¬ c.toNat ≤ 122
    omega
  have notLetter : isLetter c = false := by
    have folded : foldCase c = c := by
      rw [foldCase, if_neg (by omega), if_neg (by omega), Char.toLower_eq_of_not_isUpper notUpper]
    rw [isLetter, folded, notLower]
    simp only [Bool.false_or, Bool.or_eq_false_iff, beq_eq_false_iff_ne]
    omega
  have notDash : c ≠ '-' ∧ c ≠ '_' := by
    constructor <;> rintro rfl <;> simp at code
  simp [isNameChar, notLetter, notDash]

theorem isAmiValue_name {c : Char} (outside : isAmiValue c = false) : isNameChar c = false := by
  simp only [isAmiValue, isQuote, Bool.not_eq_false', Bool.or_eq_true, beq_iff_eq] at outside
  rcases outside with (((((space | rfl) | rfl) | rfl) | rfl) | rfl | rfl) | rfl
  · exact isNameChar_space space
  all_goals decide

theorem isAmiValue_lineBreak {c : Char} (isBreak : notLineBreak c = false) :
    isAmiValue c = false := by
  simp only [notLineBreak, Bool.and_eq_false_iff, bne_eq_false_iff_eq] at isBreak
  rcases isBreak with rfl | rfl <;> decide

theorem isQuote_lineBreak {c : Char} (isBreak : notLineBreak c = false) : isQuote c = false := by
  simp only [notLineBreak, Bool.and_eq_false_iff, bne_eq_false_iff_eq] at isBreak
  rcases isBreak with rfl | rfl <;> decide

theorem matchesLabels_headerLine : MatchesLabels α table lineKind headerLine := by
  intro prev taken rest groups found ways
  rcases headerLine_ways ways with ⟨lead, name, _, value, rfl, group1, group2, group3, lineStart,
    isLead, isName, ⟨left, sep, right, rfl, inSet, spaces, spaces'⟩, isValue, -⟩
  have ends := headerLine_rest found
  have expanded : expand groups headerLine.template =
      lead ++ (name ++ (left ++ sep :: (right ++ []))) ++ (redacted.toList.map ofChar ++ []) := by
    simp [headerLine, expand, mark, group1, group2, group3]
  refine ⟨lead, name, left, sep, right, [], value, [], ?_⟩
  refine ⟨by simp, by simp [expanded], ?_, leads_of_append expanded,
    fun _ => ⟨isLead, expanded, fun isQuoted => by cases isQuoted⟩,
    fun glyph mem => .inl (isLead glyph mem), ?_, isName, ?_, by simpa [lineKind] using spaces,
    isSeparator_colon inSet, spaces', .inl ⟨rfl, rfl⟩, by simp, isValue, by simp, ?_, ?_,
    fun _ _ => ends⟩
  · rw [expanded]
    exact origin_of_append (List.nil_subset _)
  · intro glyph mem
    exact isQuote_space (isLead glyph (List.mem_of_mem_tail mem))
  · intro _
    have notWord : (lastChar prev lead).any table.isWord = false := by
      rcases List.eq_nil_or_concat lead with rfl | ⟨lead, last, rfl⟩
      · rcases prev with _ | c
        · rfl
        · rw [lineStart c rfl]
          exact table.isWord_of_space (by decide)
      · have space := isLead last (by simp)
        simpa using table.isWord_of_space space
    rw [notWord, Bool.false_and]
  · intro inside quote beyond inner outer _ _ split calm
    exact crossing_of_line ends split fun glyph mem => (calm glyph mem).1
  · exact fun glyph mem => isAmiValue_lineBreak (ends glyph mem)

theorem matchesLabels_header : MatchesLabels α table lineKind (header table) := by
  intro prev taken rest groups found ways
  rcases header_ways ways with ⟨name, _, value, rfl, group1, group2, boundary, isName,
    ⟨left, sep, right, rfl, inSet, spaces, spaces'⟩, isValue, -⟩
  have ends := header_rest found
  have expanded : expand groups (header table).template =
      [] ++ (name ++ (left ++ sep :: (right ++ []))) ++ (redacted.toList.map ofChar ++ []) := by
    simp [header, expand, mark, group1, group2]
  refine ⟨[], name, left, sep, right, [], value, [], ?_⟩
  refine ⟨by simp, by simp [expanded], ?_, leads_of_append expanded,
    fun _ => ⟨by simp, expanded, fun isQuoted => by cases isQuoted⟩, by simp, by simp, isName, ?_,
    by simpa [lineKind] using spaces, isSeparator_colon inSet, spaces', .inl ⟨rfl, rfl⟩, by simp,
    isValue, by simp, ?_, ?_, fun _ _ => ends⟩
  · rw [expanded]
    exact origin_of_append (List.nil_subset _)
  · intro _
    rw [List.append_assoc] at boundary
    exact starts_of_boundary (isName.isNameChar areNames_header).1 boundary
  · intro inside quote beyond inner outer _ _ split calm
    exact crossing_of_line ends split fun glyph mem => (calm glyph mem).1
  · exact fun glyph mem => isAmiValue_lineBreak (ends glyph mem)

/-- Without quotes the pattern for the AMI names takes all that is in its class. -/
theorem amiSecret_rest {text : List α} {final : Cursor α}
    (found : matchAt amiSecret.expr prev text = some final) (unquoted : final.groups 4 = []) :
    ∀ glyph ∈ final.rest.head?, isAmiValue (char glyph) = false := by
  rcases exists_head?_results_seq found with ⟨_, -, found⟩
  rcases exists_head?_results_seq found with ⟨_, -, found⟩
  rcases exists_head?_results_seq found with ⟨_, -, found⟩
  rcases exists_head?_results_seq found with ⟨_, -, found⟩
  rcases exists_head?_results_seq found with ⟨middle, -, found⟩
  rcases mem_results_iff.mp (List.mem_of_head? found) with ⟨_, -, -, ways⟩
  simp only [Expr.chain, Ways, ways_many] at ways
  rcases ways with ⟨_, _, _, -, ⟨-, rfl⟩, -, same⟩
  rw [same] at unquoted
  rw [Expr.chain, Expr.chain, Expr.many, results_seq_backref_nil unquoted] at found
  exact head?_rest_of_run found

theorem OptQuote.isQuote {opening : List α} (isOpening : OptQuote opening) {glyph : α}
    (mem : glyph ∈ opening) : Redact.isQuote (char glyph) = true := by
  rcases isOpening with rfl | ⟨quote, quoted, rfl⟩
  · exact absurd mem List.not_mem_nil
  · rwa [List.mem_singleton.mp mem]

theorem closing_chars {opening closing : List α} (isOpening : OptQuote opening)
    (isClosing : Spells sameFolded (opening.map char) closing) :
    closing.map char = opening.map char ∧ ∀ glyph ∈ closing, isQuote (char glyph) = true := by
  rcases isOpening with rfl | ⟨quote, quoted, rfl⟩
  · rw [List.map_nil, Spells, List.forall₂_nil_left_iff] at isClosing
    simp [isClosing]
  · rcases spells_quote quoted isClosing with ⟨glyph, rfl, same⟩
    simp [same, quoted]

/-- A value without quotes in it is not crossed by one. -/
theorem not_quoted_of_class {removed inside beyond : List α} {quote : α}
    (inClass : ∀ glyph ∈ removed, isGenericValue (char glyph) = true)
    (split : removed = inside ++ quote :: beyond) : isQuote (char quote) = false :=
  (isGenericValue_facts (inClass quote (by simp [split]))).2.1

theorem quotes_of_opening {opening closing : List α} (isOpening : OptQuote opening)
    (isClosing : Spells sameFolded (opening.map char) closing) :
    opening = [] ∧ closing = [] ∨ ∃ first last, opening = [first] ∧ closing = [last] ∧
      isQuote (char first) = true ∧ char last = char first := by
  rcases isOpening with rfl | ⟨quote, quoted, rfl⟩
  · rw [List.map_nil, Spells, List.forall₂_nil_left_iff] at isClosing
    exact .inl ⟨rfl, isClosing⟩
  · rcases spells_quote quoted isClosing with ⟨glyph, rfl, same⟩
    exact .inr ⟨quote, glyph, rfl, rfl, quoted, same⟩

theorem unquoted_of_class {removed opening : List α} (isOpening : OptQuote opening)
    (inClass : ∀ glyph ∈ removed, isGenericValue (char glyph) = true) :
    ∀ glyph ∈ removed, ∀ first ∈ opening, char glyph ≠ char first := by
  intro glyph mem first inOpening same
  have plain := (isGenericValue_facts (inClass glyph mem)).2.1
  rw [same, isOpening.isQuote inOpening] at plain
  cases plain

theorem matchesLabels_amiSecret : MatchesLabels α table amiKind amiSecret := by
  intro prev taken rest groups found ways
  have ends := amiSecret_rest found
  rcases amiSecret_ways ways with ⟨lead, name, second, _, opening, value, closing, rfl,
    group1, group2, group3, group4, isLead, isName, isSecond,
    ⟨left, sep, right, rfl, inSet, spaces, spaces'⟩, isOpening, isValue, isClosing⟩
  have sameClosing := closing_chars isOpening isClosing
  have sameSecond := closing_chars isLead isSecond
  have inClass : ∀ glyph ∈ value, isGenericValue (char glyph) = true :=
    fun glyph mem => isGenericValue_of_isAmiValue (isValue glyph mem)
  have expanded : expand groups amiSecret.template =
      lead ++ (name ++ (lead ++ left ++ sep :: (right ++ opening))) ++
        (redacted.toList.map ofChar ++ opening) := by
    simp [amiSecret, expand, mark, group1, group2, group3, group4]
  refine ⟨lead, name, second ++ left, sep, right, opening, value, closing, ?_⟩
  refine ⟨by simp, by simp [expanded, sameSecond.1, sameClosing.1], ?_, leads_of_append expanded,
    fun same => absurd same (by decide), fun glyph mem => .inr (isLead.isQuote mem), ?_, isName,
    by simp [amiKind], ?_, inSet, spaces', quotes_of_opening isOpening isClosing, fun _ => rfl,
    isValue, unquoted_of_class isOpening inClass, ?_, ?_, fun same => absurd same (by decide)⟩
  · rw [expanded]
    intro glyph mem
    refine (origin_of_append (by intro g inOpening; simp [inOpening]) glyph mem).imp_left ?_
    simp only [List.mem_append, List.mem_cons]
    rintro (inLead | inName | (inLead | inLeft) | isSep | inRight | inOpening)
    · exact .inl inLead
    · exact .inr (.inl inName)
    · exact .inl inLead
    · exact .inr (.inr (.inl (.inr inLeft)))
    · exact .inr (.inr (.inr (.inl isSep)))
    · exact .inr (.inr (.inr (.inr (.inl inRight))))
    · exact .inr (.inr (.inr (.inr (.inr inOpening))))
  · rcases isLead with rfl | ⟨quote, quoted, rfl⟩ <;> simp
  · refine ⟨second.map char, left.map char, by simp, by simpa using spaces, ?_⟩
    rcases isLead with rfl | ⟨quote, quoted, rfl⟩
    · exact .inl sameSecond.1
    · exact .inr ⟨char quote, quoted, by simp, sameSecond.1⟩
  · intro inside quote beyond inner outer split quoted
    rw [not_quoted_of_class inClass split] at quoted
    cases quoted
  · intro glyph mem
    rcases closing with _ | ⟨first, closing⟩
    · refine ends ?_ glyph mem
      dsimp only
      rw [group4]
      simpa using sameClosing.1.symm
    · rw [List.cons_append, List.head?_cons, Option.mem_some_iff] at mem
      rw [← mem]
      exact isAmiValue_quote (sameClosing.2 first (List.mem_cons_self ..))

theorem isAmiValue_of_isGenericValue {c : Char} (outside : isGenericValue c = false) :
    isAmiValue c = false := by
  cases inside : isAmiValue c with
  | false => rfl
  | true =>
      rw [isGenericValue_of_isAmiValue inside] at outside
      cases outside

theorem genericSecret_rest {text : List α} {final : Cursor α}
    (found : matchAt (genericSecret table).expr prev text = some final)
    (unquoted : final.groups 3 = []) :
    ∀ glyph ∈ final.rest.head?, isGenericValue (char glyph) = false := by
  rcases exists_head?_results_seq found with ⟨_, -, found⟩
  rcases exists_head?_results_seq found with ⟨_, -, found⟩
  rcases exists_head?_results_seq found with ⟨_, -, found⟩
  rcases exists_head?_results_seq found with ⟨middle, -, found⟩
  rcases mem_results_iff.mp (List.mem_of_head? found) with ⟨_, -, -, ways⟩
  simp only [Expr.chain, Ways, ways_many] at ways
  rcases ways with ⟨_, _, _, -, ⟨-, rfl⟩, -, same⟩
  rw [same] at unquoted
  rw [Expr.chain, Expr.chain, Expr.many, results_seq_backref_nil unquoted] at found
  exact head?_rest_of_run found

theorem matchesLabels_genericSecret :
    MatchesLabels α table genericKind (genericSecret table) := by
  intro prev taken rest groups found ways
  have ends := genericSecret_rest found
  rcases genericSecret_ways ways with ⟨name, _, opening, value, closing, rfl,
    group1, group2, group3, boundary, isName, isOpening, isValue, isClosing,
    ⟨second, _, rfl, isSecond, ⟨left, sep, right, rfl, inSet, spaces, spaces'⟩⟩⟩
  have sameClosing := closing_chars isOpening isClosing
  have expanded : expand groups (genericSecret table).template =
      [] ++ (name ++ (second ++ left ++ sep :: (right ++ opening))) ++
        (redacted.toList.map ofChar ++ opening) := by
    simp [genericSecret, expand, mark, group1, group2, group3]
  refine ⟨[], name, second ++ left, sep, right, opening, value, closing, ?_⟩
  refine ⟨by simp, by simp [expanded, sameClosing.1], ?_, leads_of_append expanded,
    fun same => absurd same (by decide), by simp, by simp, isName.spellsOneOf, ?_, ?_, inSet,
    spaces', quotes_of_opening isOpening isClosing, fun _ => rfl, isValue,
    unquoted_of_class isOpening isValue, ?_, ?_, fun same => absurd same (by decide)⟩
  · rw [expanded]
    exact origin_of_append (by intro glyph mem; simp [mem])
  · intro _
    rw [List.append_assoc] at boundary
    exact starts_of_boundary (isName.spellsOneOf.isNameChar areNames_generic).1 boundary
  · refine ⟨second.map char, left.map char, by simp, by simpa using spaces, ?_⟩
    rcases isSecond with rfl | ⟨quote, quoted, rfl⟩
    · exact .inl rfl
    · exact .inr ⟨char quote, quoted, rfl⟩
  · intro inside quote beyond inner outer split quoted
    rw [not_quoted_of_class isValue split] at quoted
    cases quoted
  · intro glyph mem
    rcases closing with _ | ⟨first, closing⟩
    · refine isAmiValue_of_isGenericValue (ends ?_ glyph mem)
      dsimp only
      rw [group3]
      simpa using sameClosing.1.symm
    · rw [List.cons_append, List.head?_cons, Option.mem_some_iff] at mem
      rw [← mem]
      exact isAmiValue_quote (sameClosing.2 first (List.mem_cons_self ..))

end Matches

section Outcomes

variable {α : Type} [Glyph α] {table : CharTable} {kind : LabelKind} {prev : Option Char}
  {quote letter : α} {taken rest rest' replacement lead name gap spaces opening removed closing :
    List α} {sep : α}

theorem getLast?_append_map (front : List Char) (taken : List α) :
    (front ++ taken.map char).getLast? = lastChar front.getLast? taken := by
  rcases List.eq_nil_or_concat taken with rfl | ⟨taken, last, rfl⟩
  · simp
  · simp

theorem notSeparator_word {c : Char} (isWord : table.isWord c = true) : isSeparator c = false := by
  rw [isSeparator, Bool.or_eq_false_iff, beq_eq_false_iff_ne, beq_eq_false_iff_ne]
  constructor
  · rintro rfl
    rw [table.isWord_ascii (by decide)] at isWord
    cases isWord
  · rintro rfl
    rw [table.isWord_ascii (by decide)] at isWord
    cases isWord

theorem lead_before {lead tail before back : List α}
    (leadTail : ∀ glyph ∈ lead.tail, isQuote (char glyph) = false)
    (quoted : isQuote (char quote) = true) (nonempty : before ≠ [])
    (split : lead ++ tail = before ++ quote :: back) :
    ∃ before', before = lead ++ before' ∧ tail = before' ++ quote :: back := by
  rcases lead with _ | ⟨first, lead⟩
  · exact ⟨before, rfl, split⟩
  · rcases before with _ | ⟨first', before⟩
    · exact absurd rfl nonempty
    · rw [List.cons_append, List.cons_append, List.cons.injEq] at split
      rcases split with ⟨rfl, split⟩
      rcases append_eq_append_cons (P := fun glyph => isQuote (char glyph) = false) split leadTail
        (by simp [quoted]) with ⟨before', rfl, rest⟩
      exact ⟨before', rfl, rest⟩

theorem SpellsOneOf.map_char {words : List String} {name : List α}
    (isName : SpellsOneOf words name) : SpellsOneOf words (name.map char) := by
  rcases isName with ⟨word, mem, spells⟩
  exact ⟨word, mem, List.forall₂_map_right_iff.mpr spells⟩

/-- How a match ends that starts before a quote with a word behind it: before the quote, with the
quote as the start of its value, or with the quote at the end of its value or in it. -/
theorem LabelMatch.outcome (isMatch : LabelMatch table kind prev taken rest' replacement lead name
      gap sep spaces opening removed closing)
    (mem : kind ∈ labelKinds) {before : List α} (nonempty : before ≠ [])
    (quoted : isQuote (char quote) = true) (isWord : table.isWord (char letter) = true)
    (split : before ++ quote :: letter :: rest = taken ++ rest') :
    (∃ behind, before = taken ++ behind ∧ rest' = behind ++ quote :: letter :: rest) ∨
      kind.quoted = true ∧ before = lead ++ (name ++ (gap ++ sep :: spaces)) ∨
      ∃ value beyond, before = lead ++ (name ++ (gap ++ sep :: (spaces ++ (opening ++ value)))) ∧
        removed ++ closing = value ++ quote :: beyond ∧ letter :: rest = beyond ++ rest' := by
  rcases List.append_eq_append_iff.mp split.symm with ⟨behind, inside, tail⟩ | ⟨extra, cross, tail⟩
  · exact .inl ⟨behind, inside, tail⟩
  rcases extra with _ | ⟨quote', extra⟩
  · exact .inl ⟨[], by simpa using cross.symm, by simpa using tail.symm⟩
  rw [List.cons_append, List.cons.injEq] at tail
  rcases tail with ⟨rfl, tail⟩
  rw [isMatch.taken_eq] at cross
  rcases isMatch.isName.isNameChar (areNames_of_mem mem) with ⟨-, chars⟩
  rcases lead_before isMatch.lead_tail quoted nonempty cross with ⟨nameOn, rfl, crossLead⟩
  rcases append_eq_append_cons (P := fun glyph => isNameChar (char glyph) = true) crossLead
    chars (by simp [isNameChar_quote quoted]) with ⟨gapOn, rfl, crossName⟩
  rcases List.append_eq_append_iff.mp crossName with
    ⟨sepOn, rfl, crossGap⟩ | ⟨gap', gap_eq, crossGap⟩
  · rcases sepOn with _ | ⟨sep', spacesOn⟩
    · rw [List.nil_append, List.cons.injEq] at crossGap
      have isSep := isMatch.isSep
      rw [crossGap.1, notSeparator_quote quoted] at isSep
      cases isSep
    rw [List.cons_append, List.cons.injEq] at crossGap
    rcases crossGap with ⟨rfl, crossSep⟩
    rcases append_eq_append_cons (P := fun glyph => isSpace (char glyph) = true) crossSep
      isMatch.isSpaces (by simp [(quote_facts quoted).1]) with ⟨valueOn, rfl, crossSpaces⟩
    rcases isMatch.quotes with ⟨rfl, rfl⟩ | ⟨first, last, rfl, rfl, -, -⟩
    · exact .inr (.inr ⟨valueOn, extra, by simp, by simpa using crossSpaces, tail⟩)
    · rcases valueOn with _ | ⟨first', valueOn⟩
      · exact .inr (.inl ⟨isMatch.isQuoted (by simp), by simp⟩)
      · rw [List.cons_append, List.nil_append, List.cons_append, List.cons.injEq] at crossSpaces
        rcases crossSpaces with ⟨rfl, crossSpaces⟩
        exact .inr (.inr ⟨valueOn, extra, by simp, crossSpaces, tail⟩)
  · rcases gap' with _ | ⟨first, gap'⟩
    · rw [List.nil_append, List.cons.injEq] at crossGap
      have isSep := isMatch.isSep
      rw [← crossGap.1, notSeparator_quote quoted] at isSep
      cases isSep
    rw [List.cons_append, List.cons.injEq] at crossGap
    rcases crossGap with ⟨rfl, rfl⟩
    rcases gap' with _ | ⟨second, gap'⟩
    · rw [List.nil_append, List.cons_append, List.cons.injEq] at tail
      have isSep := isMatch.isSep
      rw [← tail.1, notSeparator_word isWord] at isSep
      cases isSep
    · rw [List.cons_append, List.cons_append, List.cons.injEq] at tail
      refine absurd ?_ ((isGap_of_gap mem isMatch.isGap).not_mem isWord)
      rw [gap_eq, tail.1]
      simp

/-- The label of a match, with the text before it, ends with a label. -/
theorem LabelMatch.bare (isMatch : LabelMatch table kind prev taken rest' replacement lead name gap
      sep spaces opening removed closing) {front : List Char} (reached : prev = front.getLast?) :
    Bare table kind (front ++ (lead ++ (name ++ (gap ++ sep :: spaces))).map char) := by
  refine ⟨front ++ lead.map char, name.map char, gap.map char, char sep, spaces.map char,
    by simp, isMatch.isName.map_char, ?_, ?_, isMatch.isSep, by simpa using isMatch.isSpaces⟩
  · intro isBounded
    have starts := isMatch.starts isBounded
    rw [reached, ← getLast?_append_map] at starts
    rw [StartsWord, List.head?_map, Option.any_map]
    exact starts
  · rw [getLast?_append_map, ← reached]
    exact isMatch.isGap

/-- A word at the end of what a match is replaced by is the end of the match. -/
theorem LabelMatch.lasts (isMatch : LabelMatch table kind prev taken rest' replacement lead name
      gap sep spaces opening removed closing) {kept : List Char} :
    ∀ c ∈ (kept ++ replacement.map char).getLast?, table.isWord c = true →
      lastChar prev taken = some c := by
  intro c isLast isWord
  rw [isMatch.replacement_eq, isMatch.taken_eq] at *
  rcases isMatch.quotes with ⟨rfl, rfl⟩ | ⟨first, last, rfl, rfl, -, -⟩
  · have ends : c = ']' := by simpa [redacted, List.getLast?_cons] using isLast.symm
    rw [ends, table.isWord_ascii (by decide)] at isWord
    cases isWord
  · have ends : c = char last := by simpa [List.getLast?_cons] using isLast.symm
    simp [ends]

/-- The length of a text with `n` more for each separator in it. -/
def weight (n : ℕ) (text : List Char) : ℕ :=
  text.length + n * text.countP isSeparator

/-- A text made of another one with marks, at most one for each separator. -/
structure Grown (before written : List Char) : Prop where
  chars : ∀ c ∈ written, c ∈ before ∨ c ∈ redacted.toList
  weight_le : ∀ n, weight n written ≤ weight (n + 10) before

theorem weight_append (n : ℕ) (left right : List Char) :
    weight n (left ++ right) = weight n left + weight n right := by
  simp only [weight, List.length_append, List.countP_append]
  ring

theorem weight_le_weight (n m : ℕ) (text : List Char) : weight n text ≤ weight (n + m) text := by
  simp only [weight]
  gcongr
  omega

theorem Grown.refl (text : List Char) : Grown text text :=
  ⟨fun _ => .inl, fun n => weight_le_weight n 10 text⟩

theorem Grown.append {before before' written written' : List Char} (grown : Grown before written)
    (grown' : Grown before' written') : Grown (before ++ before') (written ++ written') := by
  refine ⟨fun c mem => ?_, fun n => ?_⟩
  · rw [List.mem_append] at mem ⊢
    rcases mem with inLeft | inRight
    · exact (grown.chars c inLeft).imp_left .inl
    · exact (grown'.chars c inRight).imp_left .inr
  · rw [weight_append, weight_append]
    exact add_le_add (grown.weight_le n) (grown'.weight_le n)

/-- The mark in the place of a value behind a separator. -/
theorem grown_mark {front behind removed : List Char} {sep : Char}
    (isSep : isSeparator sep = true) : Grown (front ++ sep :: (behind ++ removed))
      (front ++ sep :: (behind ++ redacted.toList)) := by
  have marked : ∀ n, weight n redacted.toList = 10 := by
    have plain : redacted.toList.countP isSeparator = 0 := by decide
    have length : redacted.toList.length = 10 := by decide
    intro n
    rw [weight, plain, length, mul_zero, add_zero]
  have paid : ∀ n, weight (n + 10) [sep] = weight n [sep] + 10 := by
    intro n
    simp only [weight, List.length_singleton, List.countP_singleton, isSep, if_true]
    ring
  refine ⟨fun c mem => ?_, fun n => ?_⟩
  · simp only [List.mem_append, List.mem_cons] at mem ⊢
    tauto
  · have split : ∀ text : List Char, front ++ sep :: text = front ++ ([sep] ++ text) :=
      fun _ => rfl
    rw [split, split]
    simp only [weight_append, marked, paid]
    have front_le := weight_le_weight n 10 front
    have behind_le := weight_le_weight n 10 behind
    omega

/-- How a rule comes to a quote past the text before it; `front` is the text passed so far, `kept`
what was made of it, `text` what stands behind the quote, and `outer` the end of it. -/
inductive Passed (table : CharTable) (kind : LabelKind) (rule : Rule) (prev : Option Char)
    (front kept : List Char) (before : List α) (quote : α) (text outer : List α) : Prop where
  | arrives (written : List α)
      (same : subFrom rule.expr rule.template prev 0 (before ++ quote :: text) =
        written ++ subFrom rule.expr rule.template (lastChar prev before) 0 (quote :: text))
      (grown : Grown (before.map char) (written.map char))
      (origin : ∀ glyph ∈ written, glyph ∈ before ∨ ∃ c, glyph = ofChar c)
      (bare : ∀ kind' ∈ labelKinds, Bare table kind' (kept ++ written.map char) →
        Bare table kind' (front ++ before.map char))
      (isOpen : kind.words = headerWords →
        Open table amiKind (char quote) (kept ++ written.map char) →
          Open table amiKind (char quote) (front ++ before.map char))
  | closes (written : List α) (close : α) (isClose : char close = char quote)
      (same : subFrom rule.expr rule.template prev 0 (before ++ quote :: text) =
        written ++ close :: subFrom rule.expr rule.template (some (char quote)) 0 text)
      (grown : Grown (before.map char) (written.map char))
      (origin : ∀ glyph ∈ written ++ [close], glyph ∈ before ∨ ∃ c, glyph = ofChar c)
      (bare : ∀ kind' ∈ labelKinds, Bare table kind' (kept ++ written.map char) →
        Bare table kind' (front ++ before.map char))
      (isOpen : kind.words = headerWords →
        ¬Open table amiKind (char quote) (kept ++ written.map char))
      (wasOpen : Open table kind (char quote) (front ++ before.map char))
  | covers (crossed : kind.inValue (char quote) = true)
      (origin : ∀ glyph ∈ subFrom rule.expr rule.template prev 0 (before ++ quote :: text),
        glyph ∈ before ∨ glyph ∈ outer ∨ ∃ c, glyph = ofChar c)

variable {rule : Rule} {front kept : List Char} {before text outer : List α}

theorem Passed.prepend (left left' : List α)
    (step : subFrom rule.expr rule.template prev 0 (left ++ (before ++ quote :: text)) =
      left' ++ subFrom rule.expr rule.template (lastChar prev left) 0 (before ++ quote :: text))
    (grown' : Grown (left.map char) (left'.map char))
    (origin' : ∀ glyph ∈ left', glyph ∈ left ∨ ∃ c, glyph = ofChar c)
    (passed : Passed table kind rule (lastChar prev left) (front ++ left.map char)
      (kept ++ left'.map char) before quote text outer) :
    Passed table kind rule prev front kept (left ++ before) quote text outer := by
  have inLeft : ∀ glyph ∈ left', glyph ∈ left ++ before ∨ ∃ c, glyph = ofChar c :=
    fun glyph mem => (origin' glyph mem).imp_left (List.mem_append_left _)
  cases passed with
  | arrives written same grown origin bare isOpen =>
      refine .arrives (left' ++ written) ?_ (by simpa using grown'.append grown) ?_
        (by simpa using bare) (by simpa using isOpen)
      · rw [List.append_assoc, step, same, lastChar_append, List.append_assoc]
      · exact List.forall_mem_append.mpr ⟨inLeft, fun glyph mem =>
          (origin glyph mem).imp_left (List.mem_append_right _)⟩
  | closes written close isClose same grown origin bare isOpen wasOpen =>
      refine .closes (left' ++ written) close isClose ?_ (by simpa using grown'.append grown) ?_
        (by simpa using bare) (by simpa using isOpen) (by simpa using wasOpen)
      · rw [List.append_assoc, step, same, List.append_assoc]
      · rw [List.append_assoc]
        exact List.forall_mem_append.mpr ⟨inLeft, fun glyph mem =>
          (origin glyph mem).imp_left (List.mem_append_right _)⟩
  | covers crossed origin =>
      refine .covers crossed ?_
      rw [List.append_assoc, step]
      refine List.forall_mem_append.mpr ⟨?_, ?_⟩
      · exact fun glyph mem => (inLeft glyph mem).imp_right .inr
      · exact fun glyph mem => (origin glyph mem).imp_left (List.mem_append_right _)

theorem LabelMatch.separate (isMatch : LabelMatch table kind prev taken rest' replacement lead name
      gap sep spaces opening removed closing) (behind : List α)
    (inRest : ∀ glyph ∈ behind.head?, glyph ∈ rest'.head?) :
    ∀ c ∈ ((closing ++ behind).map char).head?, isAmiValue c = false := by
  intro c isHead
  rw [List.head?_map, Option.mem_def, Option.map_eq_some_iff] at isHead
  rcases isHead with ⟨glyph, isHead, rfl⟩
  refine isMatch.stopped glyph ?_
  rcases closing with _ | ⟨first, closing⟩
  · exact inRest glyph isHead
  · exact isHead

theorem LabelMatch.grown (isMatch : LabelMatch table kind prev taken rest' replacement lead name gap
      sep spaces opening removed closing) : Grown (taken.map char) (replacement.map char) := by
  have masked := (@grown_mark ((lead ++ (name ++ gap)).map char) ((spaces ++ opening).map char)
    (removed.map char) _ isMatch.isSep).append (.refl (closing.map char))
  rw [isMatch.replacement_eq, isMatch.taken_eq]
  simpa using masked

/-- A match that ends before the quote is passed, and so is what is left of the text. -/
theorem LabelMatch.pass_within (isMatch : LabelMatch table kind prev taken rest' replacement lead
      name gap sep spaces opening removed closing) {behind : List α}
    (isRest : rest' = behind ++ quote :: text) (quoted : isQuote (char quote) = true)
    (same : ∀ kind' ∈ labelKinds, Bare table kind' (kept ++ (taken ++ behind).map char) →
      Bare table kind' (front ++ (taken ++ behind).map char))
    (sameOpen : kind.words = headerWords →
      Open table amiKind (char quote) (kept ++ (taken ++ behind).map char) →
        Open table amiKind (char quote) (front ++ (taken ++ behind).map char)) :
    (∀ kind' ∈ labelKinds, Bare table kind' (kept ++ replacement.map char ++ behind.map char) →
      Bare table kind' (front ++ (taken ++ behind).map char)) ∧
    (kind.words = headerWords →
      Open table amiKind (char quote) (kept ++ replacement.map char ++ behind.map char) →
        Open table amiKind (char quote) (front ++ (taken ++ behind).map char)) := by
  let shown := kept ++ (lead ++ (name ++ (gap ++ sep :: (spaces ++ opening)))).map char
  have new_eq : kept ++ replacement.map char ++ behind.map char =
      shown ++ (redacted.toList ++ (closing ++ behind).map char) := by
    simp [shown, isMatch.replacement_eq]
  have old_eq : kept ++ (taken ++ behind).map char =
      shown ++ (removed.map char ++ (closing ++ behind).map char) := by
    simp [shown, isMatch.taken_eq]
  have stopped := isMatch.separate behind (by
    intro glyph isHead
    rw [isRest, List.head?_append, Option.mem_def.mp isHead]
    rfl)
  have separate : ∀ c ∈ ((closing ++ behind).map char).head?, isNameChar c = false :=
    fun c isHead => isAmiValue_name (stopped c isHead)
  rw [new_eq]
  rw [old_eq] at same sameOpen
  refine ⟨fun kind' mem' bare => same kind' mem' (bare.of_replaced mem' _ separate), ?_⟩
  intro isHeader isOpen
  refine sameOpen isHeader (isOpen.of_replaced (by simp [labelKinds]) _ separate ?_)
  have nonempty : closing ++ behind ≠ [] := by
    intro nothing
    rw [List.append_eq_nil_iff] at nothing
    have plain := isQuote_lineBreak
      (isMatch.lined isHeader nothing.1 quote (by rw [isRest, nothing.2]; rfl))
    rw [quoted] at plain
    cases plain
  rcases List.exists_cons_of_ne_nil nonempty with ⟨first, others, split⟩
  rw [split] at stopped ⊢
  exact ⟨char first, by simp, stopped _ rfl⟩

/-- Where the quote stands against the value of a match that goes up to it: behind the value, or in
it. -/
theorem LabelMatch.reaches (isMatch : LabelMatch table kind prev taken rest' replacement lead name
      gap sep spaces opening removed closing) {value beyond : List α}
    (split : removed ++ closing = value ++ quote :: beyond) :
    (removed = value ∧ closing = [quote] ∧ beyond = []) ∨
      ∃ extra, removed = value ++ quote :: extra ∧ beyond = extra ++ closing := by
  rcases List.append_eq_append_iff.mp split with ⟨value', rfl, tail⟩ | ⟨removed', rfl, tail⟩
  · rcases isMatch.quotes with ⟨-, rfl⟩ | ⟨first, last, -, rfl, -, -⟩
    · rw [eq_comm, List.append_eq_nil_iff] at tail
      cases tail.2
    · rcases value' with _ | ⟨other, value'⟩
      · rw [List.nil_append, List.cons.injEq] at tail
        exact .inl ⟨by simp, by rw [tail.1], tail.2.symm⟩
      · rw [List.cons_append, List.cons.injEq, eq_comm (a := []), List.append_eq_nil_iff] at tail
        cases tail.2.2
  · rcases removed' with _ | ⟨other, removed'⟩
    · rw [List.nil_append] at tail
      rcases isMatch.quotes with ⟨-, rfl⟩ | ⟨first, last, -, rfl, -, -⟩
      · cases tail
      · rw [List.cons.injEq] at tail
        exact .inl ⟨by simp, by rw [tail.1], tail.2⟩
    · rw [List.cons_append, List.cons.injEq] at tail
      rcases tail with ⟨rfl, rfl⟩
      exact .inr ⟨removed', rfl, rfl⟩

/-- The label of a header has no word before it in what has been made of the text either. -/
theorem LabelMatch.bare_kept (isMatch : LabelMatch table kind prev taken rest' replacement lead
      name gap sep spaces opening removed closing) (mem : kind ∈ labelKinds)
    (isHeader : kind.words = headerWords)
    (lasts : ∀ c ∈ kept.getLast?, table.isWord c = true → prev = some c) :
    Bare table kind (kept ++ (lead ++ (name ++ (gap ++ sep :: spaces))).map char) := by
  refine ⟨kept ++ lead.map char, name.map char, gap.map char, char sep, spaces.map char,
    by simp, isMatch.isName.map_char, ?_, ?_, isMatch.isSep, by simpa using isMatch.isSpaces⟩
  · intro isBounded
    have starts := isMatch.starts isBounded
    rw [StartsWord, List.head?_map, Option.any_map]
    rcases List.eq_nil_or_concat lead with rfl | ⟨lead, last, rfl⟩
    · rw [lastChar_nil] at starts
      rw [List.map_nil, List.append_nil]
      rcases isLast : kept.getLast? with _ | c
      · rfl
      · cases isWord : table.isWord c with
        | false => simp [isWord]
        | true =>
            rw [lasts c isLast isWord] at starts
            exact starts
    · rw [getLast?_append_map]
      simpa using starts
  · have isGap := isMatch.isGap
    simp only [labelKinds, List.mem_cons, List.not_mem_nil, or_false] at mem
    rcases mem with rfl | rfl | rfl | rfl
    · exact isGap
    · exact isGap
    · exact absurd isHeader (by decide)
    · exact absurd isHeader (by decide)

/-- A match whose closing quote is the quote behind the text leaves that quote where it is. -/
theorem LabelMatch.pass_closes (isMatch : LabelMatch table kind prev taken rest' replacement lead
      name gap sep spaces opening removed [quote])
    (found : subFrom rule.expr rule.template prev 0 (before ++ quote :: text) =
      replacement ++ subFrom rule.expr rule.template (some (char quote)) 0 text)
    (isBefore : before = lead ++ (name ++ (gap ++ sep :: (spaces ++ (opening ++ removed)))))
    (mem : kind ∈ labelKinds) (reached : prev = front.getLast?)
    (lasts : ∀ c ∈ kept.getLast?, table.isWord c = true → prev = some c)
    (same : ∀ kind' ∈ labelKinds, Bare table kind' (kept ++ before.map char) →
      Bare table kind' (front ++ before.map char)) :
    Passed table kind rule prev front kept before quote text outer := by
  rcases isMatch.quotes with ⟨-, nothing⟩ | ⟨first, last, rfl, isLast, isFirst, sameQuote⟩
  · cases nothing
  rw [List.cons.injEq] at isLast
  rcases isLast with ⟨rfl, -⟩
  have chars := isMatch.replacement_eq
  rw [← List.append_assoc, List.map_cons, List.map_nil, List.map_eq_append_iff] at chars
  rcases chars with ⟨written, last, rfl, isWritten, isLast⟩
  rcases List.map_eq_singleton_iff.mp isLast with ⟨close, rfl, isClose⟩
  refine .closes written close isClose ?_ ?_ ?_ ?_ ?_ ?_
  · rw [found, List.append_assoc, List.singleton_append]
  · have masked := @grown_mark ((lead ++ (name ++ gap)).map char) ((spaces ++ [first]).map char)
      (removed.map char) _ isMatch.isSep
    rw [isWritten, isBefore]
    simpa using masked
  · intro glyph inWritten
    refine (isMatch.origin glyph inWritten).imp_left ?_
    rw [isBefore]
    simp only [List.mem_append, List.mem_cons, List.not_mem_nil, or_false]
    rintro (inLead | inName | inGap | isSep | inSpaces | isFirst)
    · exact .inl inLead
    · exact .inr (.inl inName)
    · exact .inr (.inr (.inl inGap))
    · exact .inr (.inr (.inr (.inl isSep)))
    · exact .inr (.inr (.inr (.inr (.inl inSpaces))))
    · exact .inr (.inr (.inr (.inr (.inr (.inl isFirst)))))
  · intro kind' mem' bare
    refine same kind' mem' ?_
    rw [isWritten, ← List.append_assoc, ← List.append_nil redacted.toList] at bare
    have old := bare.of_replaced mem' (removed.map char) (by simp)
    simpa [isBefore] using old
  · rintro isHeader ⟨front', value, split, bare, inValue⟩
    have ends : (kept ++ (lead ++ (name ++ (gap ++ sep :: spaces))).map char) ++
        char first :: redacted.toList = front' ++ char quote :: value := by
      rw [← split, isWritten]
      simp
    have inMark : ∀ c ∈ redacted.toList, c ≠ char quote := by
      intro c mem' isQuote
      have plain : (redacted.toList.all fun c => !Redact.isQuote c) = true := by decide
      have notQuote := List.all_eq_true.mp plain c mem'
      rw [isQuote, sameQuote, isFirst] at notQuote
      cases notQuote
    rcases append_cons_inj ends inMark (fun c mem' => (inValue c mem').2) (by simp [sameQuote])
      (by simp) with ⟨rfl, -, -⟩
    exact (isMatch.bare_kept mem isHeader lasts).not_both mem isHeader bare
  · refine ⟨front ++ (lead ++ (name ++ (gap ++ sep :: spaces))).map char, removed.map char, ?_,
      isMatch.bare reached, ?_⟩
    · simp [isBefore, sameQuote]
    · intro c inRemoved
      rcases List.mem_map.mp inRemoved with ⟨glyph, mem, rfl⟩
      refine ⟨isMatch.inValue glyph mem, ?_⟩
      rw [sameQuote]
      exact isMatch.unquoted glyph mem first (List.mem_singleton_self _)

/-- A match whose value goes on over the quote goes on over all that is between the quote and the
outer text. -/
theorem LabelMatch.pass_covers (isMatch : LabelMatch table kind prev taken rest' replacement lead
      name gap sep spaces opening removed closing)
    (consumes : Consumes α rule.expr)
    (found : subFrom rule.expr rule.template prev 0 (before ++ quote :: text) =
      replacement ++ subFrom rule.expr rule.template (lastChar prev taken) 0 rest')
    {value extra inner : List α}
    (isBefore : before = lead ++ (name ++ (gap ++ sep :: (spaces ++ (opening ++ value)))))
    (isRemoved : removed = value ++ quote :: extra) (quoted : isQuote (char quote) = true)
    (split : extra ++ (closing ++ rest') = inner ++ outer)
    (calm : ∀ glyph ∈ inner, Crossed kind (char quote) (char glyph)) :
    Passed table kind rule prev front kept before quote text outer := by
  rcases isMatch.crossing value quote extra inner outer isRemoved quoted split calm with ⟨cut, rfl⟩
  refine .covers (isMatch.inValue quote (by simp [isRemoved])) ?_
  rw [found]
  intro glyph mem
  rcases List.mem_append.mp mem with inReplacement | inRest
  · refine (isMatch.origin glyph inReplacement).imp ?_ .inr
    rw [isBefore]
    simp only [List.mem_append, List.mem_cons]
    rintro (inLead | inName | inGap | isSep | inSpaces | inOpening)
    · exact .inl inLead
    · exact .inr (.inl inName)
    · exact .inr (.inr (.inl inGap))
    · exact .inr (.inr (.inr (.inl isSep)))
    · exact .inr (.inr (.inr (.inr (.inl inSpaces))))
    · exact .inr (.inr (.inr (.inr (.inr (.inl inOpening)))))
  · refine .inr ((mem_subFrom consumes inRest).imp_left ?_)
    exact List.mem_append_right _

/-- A rule for labels passes a text that ends with none of its labels. -/
theorem MatchesLabels.passed (matchesLabels : MatchesLabels α table kind rule)
    (consumes : Consumes α rule.expr) (mem : kind ∈ labelKinds)
    (quoted : isQuote (char quote) = true) (isWord : table.isWord (char letter) = true)
    {inner : List α} (isText : letter :: rest = inner ++ outer)
    (calm : ∀ glyph ∈ inner, Crossed kind (char quote) (char glyph))
    (reached : prev = front.getLast?)
    (lasts : ∀ c ∈ kept.getLast?, table.isWord c = true → prev = some c)
    (unbare : kind.quoted = true → ¬Bare table kind (front ++ before.map char))
    (same : ∀ kind' ∈ labelKinds, Bare table kind' (kept ++ before.map char) →
      Bare table kind' (front ++ before.map char))
    (sameOpen : kind.words = headerWords →
      Open table amiKind (char quote) (kept ++ before.map char) →
        Open table amiKind (char quote) (front ++ before.map char)) :
    Passed table kind rule prev front kept before quote (letter :: rest) outer := by
  induction size : before.length using Nat.strong_induction_on
    generalizing before front kept prev with
  | _ size' ih =>
      subst size
      rcases before with _ | ⟨glyph, before⟩
      · exact .arrives [] rfl (.refl []) (by simp) (by simpa using same) (by simpa using sameOpen)
      cases found : matchAt rule.expr prev (glyph :: (before ++ quote :: letter :: rest)) with
      | none =>
          refine Passed.prepend [glyph] [glyph] ?_ (.refl _) (by simp)
            (ih before.length (by simp) ?_ ?_ ?_ ?_ ?_ rfl)
          · exact subFrom_copy found
          · simp
          · simp
          · simpa using unbare
          · simpa using same
          · simpa using sameOpen
      | some final =>
          rcases matchAt_some found with ⟨taken, split, last, ways⟩
          rcases final with ⟨_, rest', groups⟩
          dsimp only at split last ways
          subst last
          have nonempty : taken ≠ [] := by
            rintro rfl
            exact consumes _ _ _ ways
          rw [split] at found
          rcases matchesLabels prev taken rest' groups found ways with
            ⟨lead, name, gap, sep, spaces, opening, removed, closing, isMatch⟩
          have replaced : subFrom rule.expr rule.template prev 0 (taken ++ rest') = _ :=
            subFrom_replace nonempty found
          rcases isMatch.outcome mem (List.cons_ne_nil glyph before) quoted isWord split with
            ⟨behind, isBefore, rfl⟩ | ⟨isQuoted, isBefore⟩ |
              ⟨value, beyond, isBefore, goesOn, isBeyond⟩
          · have passed := isMatch.pass_within rfl quoted (by rwa [← isBefore])
              (by rwa [← isBefore])
            have shorter : behind.length < (glyph :: before).length := by
              rw [isBefore, List.length_append]
              have positive := List.length_pos_iff.mpr nonempty
              omega
            rw [isBefore] at unbare ⊢
            refine Passed.prepend taken (expand groups rule.template) ?_ isMatch.grown
              (fun glyph mem => mem_expand ways mem) (ih behind.length shorter ?_ ?_ ?_ ?_ ?_ rfl)
            · exact replaced
            · rw [getLast?_append_map, reached]
            · exact isMatch.lasts
            · simpa using unbare
            · simpa using passed.1
            · simpa using passed.2
          · refine absurd ?_ (unbare isQuoted)
            rw [isBefore]
            exact isMatch.bare reached
          · rw [← split] at replaced
            rcases isMatch.reaches goesOn with ⟨rfl, rfl, rfl⟩ | ⟨extra, isRemoved, rfl⟩
            · refine isMatch.pass_closes ?_ isBefore mem reached lasts same
              rw [List.nil_append] at isBeyond
              have last : lastChar prev taken = some (char quote) := by
                simp [isMatch.taken_eq]
              rw [isBeyond, ← last]
              rw [isBeyond] at replaced
              exact replaced
            · refine isMatch.pass_covers consumes replaced isBefore isRemoved quoted ?_ calm
              rw [← List.append_assoc, ← isBeyond, isText]

end Outcomes

end Redact

end Asmb8Ikvm
