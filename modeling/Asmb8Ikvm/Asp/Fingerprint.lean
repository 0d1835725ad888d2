import Asmb8Ikvm.Asp.Tls

/-!
# Fingerprints

What `normalize_fingerprint` accepts and returns. It strips and lowers its
argument, takes away the prefix and then the colons and spaces, and checks the
rest with an expression whose `$` also matches before a line break at the end.
A line break that ends the text is stripped at the start, but one that only
colons and spaces follow comes to the end when those are taken away.
-/

namespace Asmb8Ikvm.Asp

open PyText

/-- 64 digits of `[0-9a-f]`. -/
def IsFingerprint (text : String) : Prop :=
  text.toList.length = 64 ∧ ∀ c ∈ text.toList, isHexDigit c = true

/-- A colon or a space. -/
def isFiller (c : Char) : Bool :=
  c == ':' || c == ' '

/-- The text is what stands between white space and behind the prefix, if there is one. -/
structure Reads (raw text : List Char) : Prop where
  split : ∃ lead start trail, raw = lead ++ ((start ++ text) ++ trail) ∧
    (∀ c ∈ lead, isSpace c = true) ∧ (∀ c ∈ trail, isSpace c = true) ∧
    (start = [] ∨ start.map Char.toLower = "sha256:".toList) ∧
    (∀ c ∈ (start ++ text).head?, isSpace c = false) ∧
    ∀ c ∈ (start ++ text).getLast?, isSpace c = false

/-- The digits are written in the text, in any case and with fillers between them. -/
def Spelled (text digits : List Char) : Prop :=
  (text.filter fun c => !isFiller c).map Char.toLower = digits

/-- The result is a `TlsValidationError`, or a fingerprint that is its own normal form. -/
def SoundFingerprint (raw : String) : Prop :=
  (∃ message, normalizeFingerprint raw = .error (tlsValidationError message)) ∨
    ∃ pin, normalizeFingerprint raw = .ok pin ∧ IsFingerprint pin ∧
      normalizeFingerprint pin = .ok pin

/-- The fingerprint is sound, and it is the digits if the argument is a way to write them. -/
def Normalizes (raw : String) : Prop :=
  SoundFingerprint raw ∧
    ∀ text digits, Reads raw.toList text → Spelled text digits → digits.length = 64 →
      (∀ c ∈ digits, isHexDigit c = true) → normalizeFingerprint raw = .ok (String.ofList digits)

/-- The argument is a way to write 63 digits followed by a line break and then by fillers. -/
def HidesLineBreak (raw : String) : Prop :=
  ∃ front tail digits, Reads raw.toList (front ++ '\n' :: tail) ∧ Spelled front digits ∧
    digits.length = 63 ∧ (∀ c ∈ digits, isHexDigit c = true) ∧ ∀ c ∈ tail, isFiller c = true

section Reading

variable {raw text cand : List Char}

theorem isFiller_toLower (c : Char) : isFiller c.toLower = isFiller c := by
  rw [Bool.eq_iff_iff]
  simp only [isFiller, Bool.or_eq_true, beq_iff_eq]
  constructor
  · rintro (same | same)
    · exact .inl (eq_of_toLower_eq same rfl)
    · exact .inr (eq_of_toLower_eq same rfl)
  · rintro (rfl | rfl)
    · exact .inl rfl
    · exact .inr rfl

/-- The two removals take away the fillers. -/
theorem filter_fillers (text : List Char) :
    ((text.map Char.toLower).filter (· ≠ ':')).filter (· ≠ ' ') =
      (text.filter fun c => !isFiller c).map Char.toLower := by
  rw [List.filter_filter, List.filter_map]
  congr 1
  refine List.filter_congr fun c _ => ?_
  have same := isFiller_toLower c
  simp only [isFiller] at same
  rw [Function.comp_apply, isFiller, ← same]
  by_cases colon : c.toLower = ':'
  · simp [colon]
  · by_cases space : c.toLower = ' ' <;> simp [colon, space]

/-- The characters an accepted text is made of: digits, fillers and a line break. -/
def isUsual (c : Char) : Bool :=
  isHexDigit c || isFiller c || c == '\n'

theorem isUsual_cases {c : Char} (usual : isUsual c = true) : c ≠ 'i' ∧ c ≠ 'k' ∧ c ≠ 's' := by
  refine ⟨?_, ?_, ?_⟩
  · rintro rfl
    cases usual
  · rintro rfl
    cases usual
  · rintro rfl
    cases usual

theorem isHexDigit_ascii {c : Char} (digit : isHexDigit c = true) : c.toNat < 128 := by
  simp only [isHexDigit, Bool.or_eq_true, Bool.and_eq_true, decide_eq_true_eq, Char.le_def,
    UInt32.le_iff_toNat_le] at digit
  have values : '9'.val.toNat = 57 ∧ 'f'.val.toNat = 102 := by decide
  have value : c.val.toNat = c.toNat := rfl
  omega

theorem isUsual_ascii {c : Char} (usual : isUsual c = true) : c.toNat < 128 := by
  simp only [isUsual, isFiller, Bool.or_eq_true, beq_iff_eq] at usual
  rcases usual with (digit | rfl | rfl) | rfl
  · exact isHexDigit_ascii digit
  · decide
  · decide
  · decide

/-- The two letters with an ASCII lower case of their own are no capitals of the table. -/
theorem plain_of_ascii {c : Char} (ascii : c.toLower.toNat < 128) :
    c.toNat ≠ 0x130 ∧ c.toNat ≠ 0x212A := by
  refine ⟨?_, ?_⟩
  · intro dotted
    obtain rfl : c = Char.ofNat 0x130 := Char.toNat_inj.mp dotted
    revert ascii
    decide
  · intro kelvin
    obtain rfl : c = Char.ofNat 0x212A := Char.toNat_inj.mp kelvin
    revert ascii
    decide

/-- What becomes of a text that is read. -/
theorem normalizeFingerprint_of_reads {raw : String} (reads : Reads raw.toList text)
    (nonempty : text ≠ []) (usual : ∀ c ∈ text, isUsual c.toLower = true) :
    (∃ message, normalizeFingerprint raw = .error (tlsValidationError message)) ∧
        ¬ (((text.filter fun c => !isFiller c).map Char.toLower).length = 64 ∧
          matchesHex ((text.filter fun c => !isFiller c).map Char.toLower) = true) ∨
      normalizeFingerprint raw =
          .ok (String.ofList ((text.filter fun c => !isFiller c).map Char.toLower)) ∧
        ((text.filter fun c => !isFiller c).map Char.toLower).length = 64 ∧
          matchesHex ((text.filter fun c => !isFiller c).map Char.toLower) = true := by
  rcases reads.split with ⟨lead, start, trail, split, leads, trails, isStart, opens, closes⟩
  have stripped : strip raw.toList = start ++ text := by
    rw [split]
    exact strip_append leads trails (by simp [nonempty]) opens closes
  have lowered : lower (start ++ text) = (start ++ text).map Char.toLower := by
    apply lower_of_plain
    intro c mem
    apply plain_of_ascii
    rcases List.mem_append.mp mem with mem | mem
    · rcases isStart with rfl | isStart
      · cases mem
      · have letters : ∀ d ∈ "sha256:".toList, d.toNat < 128 := by simp
        exact letters _ (isStart ▸ List.mem_map_of_mem mem)
    · exact isUsual_ascii (usual c mem)
  have candidate : (if "sha256:".toList.isPrefixOf ((start ++ text).map Char.toLower) then
      ((start ++ text).map Char.toLower).drop "sha256:".length
      else (start ++ text).map Char.toLower) = text.map Char.toLower := by
    rcases isStart with rfl | isStart
    · obtain ⟨c, rest, rfl⟩ := List.exists_cons_of_ne_nil nonempty
      have other := (isUsual_cases (usual c (List.mem_cons_self ..))).2.2
      rw [List.nil_append, if_neg]
      rw [List.isPrefixOf_iff_prefix]
      intro starts
      rw [List.map_cons] at starts
      exact other (List.cons_prefix_cons.mp starts).1.symm
    · rw [List.map_append, isStart, if_pos]
      · exact List.drop_left' rfl
      · rw [List.isPrefixOf_iff_prefix]
        exact List.prefix_append _ _
  unfold normalizeFingerprint
  rw [stripped, if_neg (by simp [nonempty]), lowered]
  dsimp only
  rw [candidate, filter_fillers]
  generalize (text.filter fun c => !isFiller c).map Char.toLower = cand
  by_cases rejected : cand.length ≠ fingerprintHexLength ∨ matchesHex cand = false
  · rw [if_pos rejected]
    refine .inl ⟨⟨_, rfl⟩, ?_⟩
    rintro ⟨length, matched⟩
    rcases rejected with other | other
    · exact other length
    · rw [matched] at other
      cases other
  · rw [if_neg rejected]
    rw [not_or, not_not, Bool.not_eq_false] at rejected
    exact .inr ⟨rfl, rejected⟩

/-- The expression accepts digits, with a line break behind them or without. -/
theorem matchesHex_iff : matchesHex cand = true ↔
    ∃ digits, digits ≠ [] ∧ (∀ c ∈ digits, isHexDigit c = true) ∧
      (cand = digits ∨ cand = digits ++ ['\n']) := by
  have noDigit : isHexDigit '\n' = false := rfl
  unfold matchesHex
  rcases List.eq_nil_or_concat cand with rfl | ⟨front, last, rfl⟩
  · simp
  · rw [List.concat_eq_append]
    simp only [List.getLast?_concat, Option.some.injEq, List.dropLast_concat]
    constructor
    · intro matched
      split_ifs at matched with isBreak
      · rw [Bool.and_eq_true, List.all_eq_true] at matched
        exact ⟨front, by simpa using matched.1, matched.2, .inr (by rw [isBreak])⟩
      · rw [Bool.and_eq_true, List.all_eq_true] at matched
        exact ⟨_, by simp, matched.2, .inl rfl⟩
    · rintro ⟨digits, nonempty, isDigits, same | same⟩
      · have other : last ≠ '\n' := by
          rintro rfl
          have digit := isDigits '\n' (by rw [← same]; simp)
          cases digit
        rw [if_neg other, same]
        simpa [nonempty] using isDigits
      · rcases List.append_inj' same rfl with ⟨rfl, isBreak⟩
        rw [List.singleton_inj] at isBreak
        rw [if_pos isBreak]
        simpa [nonempty] using isDigits

/-- An argument that is accepted is read, and consists of digits, fillers and line breaks. -/
theorem exists_reads {raw pin : String} (accepted : normalizeFingerprint raw = .ok pin) :
    ∃ text, Reads raw.toList text ∧ Spelled text pin.toList ∧ pin.toList.length = 64 ∧
      matchesHex pin.toList = true := by
  obtain ⟨lead, trail, split, leads, trails, opens, closes, -⟩ := exists_strip raw.toList
  unfold normalizeFingerprint at accepted
  by_cases blank : strip raw.toList = []
  · rw [if_pos blank] at accepted
    cases accepted
  rw [if_neg blank] at accepted
  dsimp only at accepted
  obtain ⟨rest, same, behind⟩ : ∃ rest,
      (if "sha256:".toList.isPrefixOf (lower (strip raw.toList)) then
        (lower (strip raw.toList)).drop "sha256:".length
        else lower (strip raw.toList)) = rest ∧
      (lower (strip raw.toList) = rest ∨
        lower (strip raw.toList) = "sha256:".toList ++ rest) := by
    refine ⟨_, rfl, ?_⟩
    split_ifs with starts
    · obtain ⟨rest, whole⟩ := List.isPrefixOf_iff_prefix.mp starts
      rw [← whole]
      exact .inr (congrArg _ (List.drop_left' rfl).symm)
    · exact .inl rfl
  rw [same] at accepted
  by_cases rejected : ((rest.filter (· ≠ ':')).filter (· ≠ ' ')).length ≠ fingerprintHexLength ∨
      matchesHex ((rest.filter (· ≠ ':')).filter (· ≠ ' ')) = false
  · rw [if_pos rejected] at accepted
    cases accepted
  rw [if_neg rejected, Except.ok.injEq] at accepted
  rw [not_or, not_not, Bool.not_eq_false] at rejected
  rcases rejected with ⟨length, matched⟩
  rw [← accepted, String.toList_ofList]
  have usual : ∀ c ∈ rest, isUsual c = true := by
    intro c mem
    by_cases filler : isFiller c = true
    · simp [isUsual, filler]
    · obtain ⟨digits, -, isDigits, kept⟩ := matchesHex_iff.mp matched
      have kept' : c ∈ (rest.filter (· ≠ ':')).filter (· ≠ ' ') := by
        simp only [isFiller, Bool.or_eq_true, beq_iff_eq, not_or] at filler
        simp [mem, filler]
      rcases kept with kept | kept
      · rw [kept] at kept'
        simp [isUsual, isDigits c kept']
      · rw [kept, List.mem_append, List.mem_singleton] at kept'
        rcases kept' with digit | rfl
        · simp [isUsual, isDigits c digit]
        · rfl
  have lowered : lower (strip raw.toList) = (strip raw.toList).map Char.toLower := by
    apply lower_of_plain
    apply plain_of_mem_lower
    intro c mem
    rcases behind with whole | whole
    · rw [whole] at mem
      exact ⟨(isUsual_cases (usual c mem)).1, (isUsual_cases (usual c mem)).2.1⟩
    · rw [whole, List.mem_append] at mem
      rcases mem with letter | mem
      · have letters : ∀ d ∈ "sha256:".toList, d ≠ 'i' ∧ d ≠ 'k' := by simp
        exact letters c letter
      · exact ⟨(isUsual_cases (usual c mem)).1, (isUsual_cases (usual c mem)).2.1⟩
  rw [lowered] at behind
  rcases behind with whole | whole
  · refine ⟨strip raw.toList, ⟨lead, [], trail, split, leads, trails, .inl rfl, opens, closes⟩, ?_,
      length, matched⟩
    rw [Spelled, ← filter_fillers, whole]
  · rcases List.map_eq_append_iff.mp whole with ⟨start, text, parts, isStart, isRest⟩
    refine ⟨text, ⟨lead, start, trail, parts ▸ split, leads, trails, .inr isStart, parts ▸ opens,
      parts ▸ closes⟩, ?_, length, matched⟩
    rw [Spelled, ← filter_fillers, isRest]

theorem normalizeFingerprint_error {raw : String} {exn : Exn}
    (failed : normalizeFingerprint raw = .error exn) :
    ∃ message, normalizeFingerprint raw = .error (tlsValidationError message) := by
  unfold normalizeFingerprint at failed ⊢
  dsimp only at failed ⊢
  generalize (if "sha256:".toList.isPrefixOf (lower (strip raw.toList)) then
    (lower (strip raw.toList)).drop "sha256:".length else lower (strip raw.toList)) =
      rest at failed ⊢
  split_ifs at failed ⊢
  · exact ⟨_, rfl⟩
  · exact ⟨_, rfl⟩

theorem isUsual_of_spelled {digits : List Char} (spelled : Spelled text digits)
    (usual : ∀ c ∈ digits, isUsual c = true) : ∀ c ∈ text, isUsual c.toLower = true := by
  intro c mem
  cases filler : isFiller c with
  | true => simp [isUsual, isFiller_toLower, filler]
  | false =>
      apply usual
      rw [← spelled]
      exact List.mem_map_of_mem (List.mem_filter.mpr ⟨mem, by simp [filler]⟩)

/-- Digits that are written in an argument are its normal form. -/
theorem normalizeFingerprint_of_spelled {raw : String} {digits : List Char}
    (reads : Reads raw.toList text) (spelled : Spelled text digits) (length : digits.length = 64)
    (matched : matchesHex digits = true) (usual : ∀ c ∈ digits, isUsual c = true) :
    normalizeFingerprint raw = .ok (String.ofList digits) := by
  have nonempty : text ≠ [] := by
    rintro rfl
    rw [← show [] = digits from spelled] at length
    cases length
  rcases normalizeFingerprint_of_reads reads nonempty (isUsual_of_spelled spelled usual) with
    ⟨-, rejected⟩ | ⟨accepted, -⟩
  · rw [show (text.filter fun c => !isFiller c).map Char.toLower = digits from spelled] at rejected
    exact absurd ⟨length, matched⟩ rejected
  · rw [accepted, show (text.filter fun c => !isFiller c).map Char.toLower = digits from spelled]

theorem isUsual_of_digits {digits : List Char} (isDigits : ∀ c ∈ digits, isHexDigit c = true) :
    ∀ c ∈ digits, isUsual c = true := by
  intro c mem
  simp [isUsual, isDigits c mem]

theorem isSpace_of_digit {c : Char} (digit : isHexDigit c = true) : isSpace c = false := by
  simp only [isHexDigit, Bool.or_eq_true, Bool.and_eq_true, decide_eq_true_eq, Char.le_def,
    UInt32.le_iff_toNat_le] at digit
  have values : '0'.val.toNat = 48 ∧ '9'.val.toNat = 57 ∧ 'a'.val.toNat = 97 ∧
    'f'.val.toNat = 102 := by decide
  have value : c.val.toNat = c.toNat := rfl
  rw [Bool.eq_false_iff]
  intro space
  simp only [isSpace, Bool.or_eq_true, Bool.and_eq_true, decide_eq_true_eq, beq_iff_eq] at space
  omega

theorem toLower_of_digit {c : Char} (digit : isHexDigit c = true) : c.toLower = c := by
  simp only [isHexDigit, Bool.or_eq_true, Bool.and_eq_true, decide_eq_true_eq, Char.le_def,
    UInt32.le_iff_toNat_le] at digit
  have values : '9'.val.toNat = 57 ∧ 'a'.val.toNat = 97 ∧ 'A'.val.toNat = 65 ∧
    'Z'.val.toNat = 90 := by decide
  refine Char.toLower_eq_of_not_isUpper ?_
  simp only [Char.isUpper, decide_eq_true_eq, ge_iff_le, UInt32.le_iff_toNat_le]
  omega

theorem spelled_of_digits {digits : List Char} (isDigits : ∀ c ∈ digits, isHexDigit c = true) :
    Spelled digits digits := by
  have noFiller : (digits.filter fun c => !isFiller c) = digits := by
    rw [List.filter_eq_self]
    intro c mem
    rw [Bool.not_eq_true', Bool.eq_false_iff]
    intro filler
    simp only [isFiller, Bool.or_eq_true, beq_iff_eq] at filler
    have digit := isDigits c mem
    rcases filler with rfl | rfl <;> cases digit
  have lowered : digits.map Char.toLower = digits.map id :=
    List.map_congr_left fun c mem => toLower_of_digit (isDigits c mem)
  rw [Spelled, noFiller, lowered, List.map_id]

/-- A fingerprint is its own normal form. -/
theorem normalizeFingerprint_self {pin : String} (isFingerprint : IsFingerprint pin) :
    normalizeFingerprint pin = .ok pin := by
  rcases isFingerprint with ⟨length, isDigits⟩
  have nonempty : pin.toList ≠ [] := by
    intro empty
    rw [empty] at length
    cases length
  have reads : Reads pin.toList pin.toList := by
    refine ⟨[], [], [], by simp, by simp, by simp, .inl rfl, ?_, ?_⟩
    · exact fun c mem => isSpace_of_digit (isDigits c (List.mem_of_head? mem))
    · exact fun c mem => isSpace_of_digit (isDigits c (List.mem_of_getLast? mem))
  have normal := normalizeFingerprint_of_spelled reads (spelled_of_digits isDigits) length
    (matchesHex_iff.mpr ⟨_, nonempty, isDigits, .inl rfl⟩) (isUsual_of_digits isDigits)
  rwa [String.ofList_toList] at normal

/-- A line break that comes to the end is returned with the digits. -/
theorem not_soundFingerprint {raw : String} (hides : HidesLineBreak raw) :
    ¬ SoundFingerprint raw := by
  rcases hides with ⟨front, tail, digits, reads, spelled, length, isDigits, fillers⟩
  intro sound
  have whole : Spelled (front ++ '\n' :: tail) (digits ++ ['\n']) := by
    have noneLeft : (tail.filter fun c => !isFiller c) = [] := by
      rw [List.filter_eq_nil_iff]
      intro c mem
      simp [fillers c mem]
    have kept : ('\n' :: tail).filter (fun c => !isFiller c) = ['\n'] := by
      rw [List.filter_cons_of_pos rfl, noneLeft]
    rw [Spelled, List.filter_append, List.map_append, kept]
    exact congrArg (· ++ ['\n']) spelled
  have usual : ∀ c ∈ digits ++ ['\n'], isUsual c = true := by
    simp only [List.mem_append, List.mem_singleton]
    rintro c (digit | rfl)
    · exact isUsual_of_digits isDigits c digit
    · rfl
  have nonempty : digits ≠ [] := by
    rintro rfl
    cases length
  have accepted := normalizeFingerprint_of_spelled reads whole (by simp [length])
    (matchesHex_iff.mpr ⟨digits, nonempty, isDigits, .inr rfl⟩) usual
  rcases sound with ⟨message, failed⟩ | ⟨pin, normal, ⟨-, isDigits'⟩, -⟩
  · rw [accepted] at failed
    cases failed
  · rw [accepted, Except.ok.injEq] at normal
    have digit := isDigits' '\n' (by rw [← normal]; simp)
    cases digit

end Reading

/-- An argument is normalized as it should be unless it hides a line break. -/
theorem normalizes_iff (raw : String) : Normalizes raw ↔ ¬ HidesLineBreak raw := by
  constructor
  · exact fun normalizes hides => not_soundFingerprint hides normalizes.1
  · intro shown
    refine ⟨?_, ?_⟩
    · cases outcome : normalizeFingerprint raw with
      | error exn => exact .inl (outcome ▸ normalizeFingerprint_error outcome)
      | ok pin =>
          rcases exists_reads outcome with ⟨text, reads, spelled, length, matched⟩
          rcases matchesHex_iff.mp matched with ⟨digits, -, isDigits, same | same⟩
          · have isFingerprint : IsFingerprint pin := ⟨length, same ▸ isDigits⟩
            exact .inr ⟨pin, outcome, isFingerprint, normalizeFingerprint_self isFingerprint⟩
          · refine absurd ?_ shown
            rw [same, Spelled, List.map_eq_append_iff] at spelled
            rcases spelled with ⟨front, last, kept, isFront, isLast⟩
            rcases List.map_eq_singleton_iff.mp isLast with ⟨c, rfl, isBreak⟩
            obtain rfl : c = '\n' := eq_of_toLower_eq isBreak rfl
            rcases List.filter_eq_append_iff.mp kept with ⟨left, right, rfl, isLeft, isRight⟩
            rcases List.filter_eq_cons_iff.mp isRight with ⟨before, tail, rfl, skipped, -, behind⟩
            refine ⟨left ++ before, tail, digits, by rwa [List.append_assoc], ?_, ?_, isDigits, ?_⟩
            · have noneLeft : (before.filter fun c => !isFiller c) = [] :=
                List.filter_eq_nil_iff.mpr skipped
              rw [Spelled, List.filter_append, noneLeft, List.append_nil, isLeft, isFront]
            · rw [same, List.length_append, List.length_singleton] at length
              omega
            · intro c mem
              simpa using List.filter_eq_nil_iff.mp behind c mem
    · intro text digits reads spelled length isDigits
      have nonempty : digits ≠ [] := by
        rintro rfl
        cases length
      exact normalizeFingerprint_of_spelled reads spelled length
        (matchesHex_iff.mpr ⟨digits, nonempty, isDigits, .inl rfl⟩) (isUsual_of_digits isDigits)

/-- 63 digits, a line break and a colon. -/
theorem not_normalizes_line_break :
    ¬ Normalizes (String.ofList (List.replicate 63 'a' ++ ['\n', ':'])) := by
  intro normalizes
  have isDigits : ∀ c ∈ List.replicate 63 'a', isHexDigit c = true := by
    intro c mem
    rw [List.eq_of_mem_replicate mem]
    rfl
  refine not_soundFingerprint ⟨List.replicate 63 'a', [':'], List.replicate 63 'a', ?_,
    spelled_of_digits isDigits, by simp, isDigits, by simp [isFiller]⟩ normalizes.1
  rw [String.toList_ofList]
  exact ⟨[], [], [], by simp, by simp, by simp, .inl rfl, by simp [isSpace], by simp [isSpace]⟩

end Asmb8Ikvm.Asp
