import Asmb8Ikvm.Lib.Text

/-!
# Numbers in texts

`int` of a text and `str.partition`. `int` takes more than digits: white space
around the number, a sign, underscores between the digits and the digits of every
script; on the other hand it refuses a number with too many digits.
-/

namespace PyText

/-- `text.partition(sep)` without the separator in the middle. -/
def partition (sep : Char) (text : List Char) : List Char × List Char :=
  (text.takeWhile (· ≠ sep), (text.dropWhile (· ≠ sep)).tail)

/-- The white space `int` takes around a number. -/
def isNumberSpace (c : Char) : Bool :=
  let code := c.toNat
  (9 ≤ code && code ≤ 13) || code == 32 || (127 < code && isSpace c)

/-- The number of digits the interpreter converts. -/
def maxStrDigits : ℕ := 4300

/-- The digits of a number, in which single underscores may stand between digits. -/
def digitValues (table : CharTable) (body : List Char) : Option (List ℕ) :=
  let groups := body.splitOn '_'
  if groups.any List.isEmpty then none else groups.flatten.mapM table.digit

/-- The sign of a number and what follows it. -/
def splitSign : List Char → Bool × List Char
  | '-' :: rest => (true, rest)
  | '+' :: rest => (false, rest)
  | rest => (false, rest)

/-- `int(text)`; `none` is the `ValueError`. -/
def int (table : CharTable) (text : List Char) : Option ℤ :=
  let number := (((text.dropWhile isNumberSpace).reverse).dropWhile isNumberSpace).reverse
  let (negative, body) := splitSign number
  match digitValues table body with
  | none => none
  | some digits =>
      if maxStrDigits < digits.length then none
      else
        let value : ℕ := digits.foldl (fun value digit => 10 * value + digit) 0
        some (if negative then -(value : ℤ) else value)

/-- The value of a digit to base 16. -/
def hexValue (table : CharTable) (c : Char) : Option ℕ :=
  if 'a' ≤ c ∧ c ≤ 'f' then some (c.toNat - 'a'.toNat + 10)
  else if 'A' ≤ c ∧ c ≤ 'F' then some (c.toNat - 'A'.toNat + 10)
  else table.digit c

/-- The digits behind `0x` or `0x_`, where the text has such a prefix. -/
def dropHexPrefix (table : CharTable) : List Char → List Char
  | zero :: mark :: rest =>
      if table.digit zero = some 0 ∧ (mark = 'x' ∨ mark = 'X') then
        if rest.head? = some '_' then rest.tail else rest
      else zero :: mark :: rest
  | body => body

/-- `int(text, 16)`; `none` is the `ValueError`. There is no limit on the digits here. -/
def intHex (table : CharTable) (text : List Char) : Option ℤ :=
  let number := (((text.dropWhile isNumberSpace).reverse).dropWhile isNumberSpace).reverse
  let (negative, body) := splitSign number
  let groups := (dropHexPrefix table body).splitOn '_'
  if groups.any List.isEmpty then none
  else
    (groups.flatten.mapM (hexValue table)).map fun digits =>
      let value : ℕ := digits.foldl (fun value digit => 16 * value + digit) 0
      if negative then -(value : ℤ) else value

section Partition

variable {sep : Char} {text before after : List Char}

theorem partition_append (absent : sep ∉ before) :
    partition sep (before ++ sep :: after) = (before, after) := by
  have passes : ∀ c ∈ before, decide (c ≠ sep) = true := by
    intro c mem
    rw [decide_eq_true_eq]
    rintro rfl
    exact absent mem
  rw [partition, List.takeWhile_append_of_pos passes, List.dropWhile_append_of_pos passes]
  simp

/-- A text is split at the first separator. -/
theorem exists_partition (present : sep ∈ text) :
    ∃ before after, text = before ++ sep :: after ∧ sep ∉ before ∧
      partition sep text = (before, after) := by
  induction text with
  | nil => cases present
  | cons c text ih =>
      by_cases first : sep = c
      · subst first
        exact ⟨[], text, rfl, List.not_mem_nil, partition_append List.not_mem_nil⟩
      · rcases ih ((List.mem_cons.mp present).resolve_left first) with
          ⟨before, after, split, absent, -⟩
        have absent' : sep ∉ c :: before := by
          rw [List.mem_cons, not_or]
          exact ⟨first, absent⟩
        refine ⟨c :: before, after, by rw [split]; rfl, absent', ?_⟩
        rw [split, ← List.cons_append, partition_append absent']

end Partition

section Digits

variable {table : CharTable} {text : List Char}

theorem isNumberSpace_of_isDigit {c : Char} (digit : c.isDigit = true) :
    isNumberSpace c = false := by
  simp only [Char.isDigit, Bool.and_eq_true, decide_eq_true_eq, UInt32.le_iff_toNat_le] at digit
  have value : c.val.toNat = c.toNat := rfl
  have bounds : '0'.val.toNat = 48 ∧ '9'.val.toNat = 57 := by decide
  simp only [isNumberSpace, Bool.or_eq_false_iff, Bool.and_eq_false_iff, decide_eq_false_iff_not,
    beq_eq_false_iff_ne]
  refine ⟨⟨?_, ?_⟩, .inl ?_⟩
  · omega
  · omega
  · omega

theorem mapM_digit (digits : ∀ c ∈ text, c.isDigit = true) :
    text.mapM table.digit = some (text.map fun c => c.toNat - 48) := by
  induction text with
  | nil => rfl
  | cons c text ih =>
      rw [List.forall_mem_cons] at digits
      have value : table.digit c = some (c.toNat - 48) := by
        have isDigit := digits.1
        simp only [Char.isDigit, Bool.and_eq_true, decide_eq_true_eq, UInt32.le_iff_toNat_le]
          at isDigit
        have code : c.val.toNat = c.toNat := rfl
        have bounds : '0'.val.toNat = 48 ∧ '9'.val.toNat = 57 := by decide
        rw [table.digit_ascii c (by omega), if_pos digits.1]
      rw [List.mapM_cons, value, ih digits.2]
      rfl

theorem foldl_digits (text : List Char) :
    (text.map fun c => c.toNat - 48).foldl (fun value digit => 10 * value + digit) 0 =
      Nat.ofDigitChars 10 text 0 := by
  rw [List.foldl_map, Nat.ofDigitChars_eq_foldl]
  rfl

theorem splitSign_digits (digits : ∀ c ∈ text, c.isDigit = true) :
    splitSign text = (false, text) := by
  unfold splitSign
  split
  case h_1 => exact absurd (digits '-' (List.mem_cons_self ..)) (by decide)
  case h_2 => exact absurd (digits '+' (List.mem_cons_self ..)) (by decide)
  case h_3 => rfl

/-- Plain digits are read unless there are too many. -/
theorem int_digits (nonempty : text ≠ []) (digits : ∀ c ∈ text, c.isDigit = true) :
    int table text =
      if maxStrDigits < text.length then none else some (Nat.ofDigitChars 10 text 0 : ℤ) := by
  have solid : ∀ list : List Char, (∀ c ∈ list, c.isDigit = true) →
      list.dropWhile isNumberSpace = list := by
    intro list isDigit
    rcases list with _ | ⟨c, rest⟩
    · rfl
    · rw [List.dropWhile_cons, isNumberSpace_of_isDigit (isDigit c (List.mem_cons_self ..))]
      rfl
  have whole : ((text.dropWhile isNumberSpace).reverse.dropWhile isNumberSpace).reverse = text := by
    rw [solid text digits, solid _ (fun c mem => digits c (List.mem_reverse.mp mem)),
      List.reverse_reverse]
  have noUnderscore : '_' ∉ text := fun mem => absurd (digits '_' mem) (by decide)
  have values : digitValues table text = some (text.map fun c => c.toNat - 48) := by
    have someDigit : ¬ [text].any List.isEmpty = true := by
      simpa using nonempty
    simp only [digitValues, List.splitOn_eq_singleton noUnderscore]
    rw [if_neg someDigit, List.flatten_singleton, mapM_digit digits]
  rw [int, whole, splitSign_digits digits]
  dsimp only
  rw [values]
  dsimp only
  rw [List.length_map, foldl_digits, if_neg Bool.false_ne_true]

/-- A number is negative only by its sign. -/
theorem int_nonneg {n : ℤ} (unsigned : '-' ∉ text) (isNumber : int table text = some n) :
    0 ≤ n := by
  unfold int at isNumber
  have inside : '-' ∉ ((text.dropWhile isNumberSpace).reverse.dropWhile isNumberSpace).reverse := by
    intro mem
    rw [List.mem_reverse] at mem
    have reversed := (List.dropWhile_suffix _).subset mem
    rw [List.mem_reverse] at reversed
    exact unsigned ((List.dropWhile_suffix _).subset reversed)
  generalize ((text.dropWhile isNumberSpace).reverse.dropWhile isNumberSpace).reverse = number
    at inside isNumber
  have positive : (splitSign number).1 = false := by
    unfold splitSign
    split
    case h_1 => exact absurd (List.mem_cons_self ..) inside
    case h_2 => rfl
    case h_3 => rfl
  dsimp only at isNumber
  rw [positive] at isNumber
  split at isNumber
  case h_1 => cases isNumber
  case h_2 =>
    rw [if_neg Bool.false_ne_true] at isNumber
    split_ifs at isNumber
    · cases isNumber
      exact Int.natCast_nonneg _

end Digits

end PyText
