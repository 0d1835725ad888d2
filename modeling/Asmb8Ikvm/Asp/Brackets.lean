import Asmb8Ikvm.Asp.Webvar

/-!
# Matching brackets

`_scan_matching_bracket` as the source has it, on positions of the text, and the
scan on the rest of the text that the parser is modelled with.

The specification reads the text with a small tokenizer: strings are quoted with
either quote, a backslash in a string escapes the next character, and the depth
of a part of the text counts the brackets outside strings. The scanner returns
the position behind the first one at which the depth is zero again.
-/

namespace Asmb8Ikvm

namespace Webvar

/-- The exceptions of the scanner; the two `ValueError`s carry what their texts show. -/
inductive ScanFault where
  | indexError
  | mismatch (openChar : Char) (openPos : ℕ) (found : Char)
  | unterminated (openChar closeChar : Char) (openPos : ℕ)
deriving DecidableEq, Repr

/-- The loop of `_scan_matching_bracket` at position `i`. -/
def scanLoop (text : List Char) (openPos : ℕ) (openChar closeChar : Char) (depth : ℤ)
    (inString : Option Char) (i : ℕ) : Except ScanFault ℕ :=
  if i < text.length then
    match text[i]? with
    | none => .error .indexError
    | some ch =>
        match inString with
        | some quote =>
            if ch = '\\' then scanLoop text openPos openChar closeChar depth (some quote) (i + 2)
            else if ch = quote then scanLoop text openPos openChar closeChar depth none (i + 1)
            else scanLoop text openPos openChar closeChar depth (some quote) (i + 1)
        | none =>
            if ch = '\'' ∨ ch = '"' then
              scanLoop text openPos openChar closeChar depth (some ch) (i + 1)
            else if ch = openChar then
              scanLoop text openPos openChar closeChar (depth + 1) none (i + 1)
            else if ch = closeChar then
              if depth - 1 = 0 then .ok (i + 1)
              else scanLoop text openPos openChar closeChar (depth - 1) none (i + 1)
            else scanLoop text openPos openChar closeChar depth none (i + 1)
  else .error (.unterminated openChar closeChar openPos)
termination_by text.length - i

/-- `_scan_matching_bracket(text, open_pos, open_char, close_char)`. -/
def scanMatchingBracketAt (text : List Char) (openPos : ℕ) (openChar closeChar : Char) :
    Except ScanFault ℕ :=
  match text[openPos]? with
  | none => .error .indexError
  | some found =>
      if found ≠ openChar then .error (.mismatch openChar openPos found)
      else scanLoop text openPos openChar closeChar 0 none openPos

/-- Where a reader of the text is: outside strings, in a string, or behind a backslash in one. -/
inductive Quoting where
  | outside
  | inside (quote : Char)
  | escaped (quote : Char)
deriving DecidableEq, Repr

namespace Quoting

def next : Quoting → Char → Quoting
  | outside, ch => if ch = '\'' ∨ ch = '"' then inside ch else outside
  | inside quote, ch =>
      if ch = '\\' then escaped quote else if ch = quote then outside else inside quote
  | escaped quote, _ => inside quote

/-- The characters outside strings. -/
def unquoted : Quoting → List Char → List Char
  | _, [] => []
  | outside, ch :: rest =>
      if ch = '\'' ∨ ch = '"' then unquoted (next outside ch) rest
      else ch :: unquoted (next outside ch) rest
  | state, ch :: rest => unquoted (state.next ch) rest

/-- The brackets that are opened outside strings, less those that are closed there. -/
def depth (openChar closeChar : Char) (state : Quoting) (text : List Char) : ℤ :=
  ((state.unquoted text).count openChar : ℤ) - (state.unquoted text).count closeChar

end Quoting

/-- Position `i` is the first one from `openPos` on at which the depth is zero. -/
structure ReturnsToZero (openChar closeChar : Char) (text : List Char) (openPos i : ℕ) : Prop where
  inText : openPos ≤ i ∧ i < text.length
  zero : Quoting.outside.depth openChar closeChar
    ((text.drop openPos).take (i + 1 - openPos)) = 0
  first : ∀ j, openPos ≤ j → j < i → Quoting.outside.depth openChar closeChar
    ((text.drop openPos).take (j + 1 - openPos)) ≠ 0

section Scan

variable {openChar closeChar : Char} {openPos : ℕ}

/-- What the scan of the rest of the text says about the text. -/
def behind (openChar closeChar : Char) (openPos i : ℕ) :
    Option (List Char × List Char) → Except ScanFault ℕ
  | some (front, _) => .ok (i + front.length)
  | none => .error (.unterminated openChar closeChar openPos)

theorem behind_pass (i : ℕ) (ch : Char) (found : Option (List Char × List Char)) :
    behind openChar closeChar openPos i (pass ch found) =
      behind openChar closeChar openPos (i + 1) found := by
  rcases found with _ | ⟨front, back⟩
  · rfl
  · rw [pass, Option.map_some, behind, behind, List.length_cons, Nat.add_right_comm,
      Nat.add_assoc]

/-- The loop on positions is the scan of the rest of the text; an escape steps over the next
character, which may be behind the end. -/
theorem scanLoop_eq {text rest : List Char} {i : ℕ} (isRest : text.drop i = rest) (depth : ℤ)
    (inString : Option Char) :
    scanLoop text openPos openChar closeChar depth inString i =
        behind openChar closeChar openPos i
          (scanFrom openChar closeChar depth inString false rest) ∧
      scanLoop text openPos openChar closeChar depth inString (i + 1) =
        behind openChar closeChar openPos i
          (scanFrom openChar closeChar depth inString true rest) := by
  induction rest generalizing i depth inString with
  | nil =>
      have ends : text.length ≤ i := List.drop_eq_nil_iff.mp isRest
      constructor
      · rw [scanLoop, if_neg (by omega), scanFrom, behind]
      · rw [scanLoop, if_neg (by omega), scanFrom, behind]
  | cons ch rest ih =>
      have within : i < text.length := by
        by_contra beyond
        rw [List.drop_eq_nil_of_le (not_lt.mp beyond)] at isRest
        cases isRest
      have here : text[i]? = some ch := by
        rw [← List.head?_drop, isRest]
        rfl
      have later : text.drop (i + 1) = rest := by
        rw [← List.drop_drop, isRest]
        rfl
      constructor
      · rw [scanLoop, if_pos within, here]
        dsimp only
        cases inString with
        | some quote =>
            rw [scanFrom]
            dsimp only
            split_ifs
            · rw [behind_pass]
              exact (ih later depth (some quote)).2
            · rw [behind_pass]
              exact (ih later depth none).1
            · rw [behind_pass]
              exact (ih later depth (some quote)).1
        | none =>
            rw [scanFrom]
            dsimp only
            split_ifs
            · rw [behind_pass]
              exact (ih later depth (some ch)).1
            · rw [behind_pass]
              exact (ih later (depth + 1) none).1
            · rfl
            · rw [behind_pass]
              exact (ih later (depth - 1) none).1
            · rw [behind_pass]
              exact (ih later depth none).1
      · rw [scanFrom, behind_pass]
        exact (ih later depth inString).1

/-- The scanner of the source and the one the parser is modelled with. -/
theorem scanMatchingBracketAt_eq {text : List Char} (holds : text[openPos]? = some openChar) :
    scanMatchingBracketAt text openPos openChar closeChar =
      behind openChar closeChar openPos openPos
        (scanMatchingBracket (text.drop openPos) openChar closeChar) := by
  have heads : (text.drop openPos).head? = some openChar := by
    rw [List.head?_drop, holds]
  rw [scanMatchingBracketAt, holds, scanMatchingBracket, if_neg (not_not.mpr heads)]
  dsimp only
  rw [if_neg (not_not.mpr rfl)]
  exact (scanLoop_eq rfl 0 none).1

end Scan

namespace Quoting

variable {openChar closeChar : Char}

/-- What a character adds to the depth. -/
def weight (openChar closeChar : Char) : Quoting → Char → ℤ
  | outside, ch =>
      if ch = '\'' ∨ ch = '"' then 0
      else if ch = openChar then 1
      else if ch = closeChar then -1
      else 0
  | _, _ => 0

theorem depth_cons (distinct : openChar ≠ closeChar) (state : Quoting) (ch : Char)
    (rest : List Char) :
    state.depth openChar closeChar (ch :: rest) =
      state.weight openChar closeChar ch + (state.next ch).depth openChar closeChar rest := by
  cases state with
  | outside =>
      simp only [depth, unquoted, weight]
      split_ifs with quotes opens closes
      · simp
      · subst opens
        simp only [List.count_cons_self, List.count_cons_of_ne distinct]
        omega
      · subst closes
        simp only [List.count_cons_self, List.count_cons_of_ne (Ne.symm distinct)]
        omega
      · simp only [List.count_cons_of_ne opens, List.count_cons_of_ne closes]
        omega
  | inside quote => simp [depth, unquoted, weight]
  | escaped quote => simp [depth, unquoted, weight]

/-- The quote of the string the reader is in. -/
def inString : Quoting → Option Char
  | outside => none
  | inside quote | escaped quote => some quote

/-- The next character is escaped. -/
def skips : Quoting → Bool
  | outside | inside _ => false
  | escaped _ => true

end Quoting

/-- The depth is zero for the first time behind `n` characters, when it is `start` before them. -/
structure FirstZero (openChar closeChar : Char) (start : ℤ) (state : Quoting) (text : List Char)
    (n : ℕ) : Prop where
  inText : 0 < n ∧ n ≤ text.length
  zero : start + state.depth openChar closeChar (text.take n) = 0
  first : ∀ m, 0 < m → m < n → start + state.depth openChar closeChar (text.take m) ≠ 0

section FirstZero

variable {openChar closeChar : Char} {start : ℤ} {state : Quoting} {ch : Char}
  {text rest : List Char} {n k : ℕ}

theorem not_firstZero_nil : ¬ FirstZero openChar closeChar start state [] n := by
  intro found
  have inText := found.inText
  rw [List.length_nil] at inText
  omega

/-- The depth is zero behind the first character. -/
theorem FirstZero.one_iff (distinct : openChar ≠ closeChar)
    (zero : start + state.weight openChar closeChar ch = 0) :
    FirstZero openChar closeChar start state (ch :: rest) n ↔ n = 1 := by
  have depthOne : start + state.depth openChar closeChar ((ch :: rest).take 1) = 0 := by
    rw [List.take_succ_cons, List.take_zero, Quoting.depth_cons distinct]
    simpa [Quoting.depth, Quoting.unquoted] using zero
  constructor
  · intro found
    by_contra other
    have inText := found.inText
    exact found.first 1 Nat.one_pos (by omega) depthOne
  · rintro rfl
    exact ⟨⟨Nat.one_pos, by simp⟩, depthOne, by omega⟩

/-- The depth is not zero behind the first character: the rest of the text decides. -/
theorem FirstZero.succ_iff (distinct : openChar ≠ closeChar)
    (nonzero : start + state.weight openChar closeChar ch ≠ 0) :
    FirstZero openChar closeChar start state (ch :: rest) n ↔
      ∃ k, n = k + 1 ∧ FirstZero openChar closeChar
        (start + state.weight openChar closeChar ch) (state.next ch) rest k := by
  have shift (m : ℕ) : start + state.depth openChar closeChar ((ch :: rest).take (m + 1)) =
      start + state.weight openChar closeChar ch +
        (state.next ch).depth openChar closeChar (rest.take m) := by
    rw [List.take_succ_cons, Quoting.depth_cons distinct, add_assoc]
  have none : (state.next ch).depth openChar closeChar (rest.take 0) = 0 := by
    rw [List.take_zero]
    cases state.next ch <;> rfl
  constructor
  · intro found
    have inText := found.inText
    rw [List.length_cons] at inText
    obtain ⟨k, rfl⟩ : ∃ k, n = k + 1 := ⟨n - 1, by omega⟩
    have zero := found.zero
    rw [shift] at zero
    have positive : 0 < k := by
      rcases Nat.eq_zero_or_pos k with rfl | positive
      · rw [none, add_zero] at zero
        exact absurd zero nonzero
      · exact positive
    refine ⟨k, rfl, ⟨positive, by omega⟩, zero, ?_⟩
    intro m mPositive before
    rw [← shift]
    exact found.first (m + 1) (by omega) (by omega)
  · rintro ⟨k, rfl, found⟩
    have inText := found.inText
    refine ⟨⟨by omega, by rw [List.length_cons]; omega⟩, ?_, ?_⟩
    · rw [shift]
      exact found.zero
    · intro m mPositive before
      obtain ⟨m, rfl⟩ : ∃ m', m = m' + 1 := ⟨m - 1, by omega⟩
      rw [shift]
      rcases Nat.eq_zero_or_pos m with rfl | positive
      · rw [none, add_zero]
        exact nonzero
      · exact found.first m positive (by omega)

/-- A character that leaves the depth positive is passed over. -/
theorem length_pass (ch : Char) (found : Option (List Char × List Char)) :
    (pass ch found).map (fun found => found.1.length) = some n ↔
      ∃ k, n = k + 1 ∧ found.map (fun found => found.1.length) = some k := by
  rcases found with _ | ⟨front, back⟩
  · simp [pass]
  · simp only [pass, Option.map_some, List.length_cons, Option.some.injEq]
    constructor
    · rintro rfl
      exact ⟨_, rfl, rfl⟩
    · rintro ⟨k, rfl, rfl⟩
      rfl

/-- The scan returns the text up to the first place where the depth is zero. -/
theorem scanFrom_iff (distinct : openChar ≠ closeChar) (positive : 0 < start) :
    (scanFrom openChar closeChar start state.inString state.skips text).map
        (fun found => found.1.length) = some n ↔
      FirstZero openChar closeChar start state text n := by
  induction text generalizing start state n with
  | nil =>
      refine iff_of_false ?_ not_firstZero_nil
      simp [scanFrom]
  | cons ch rest ih =>
      have onward (weight : ℤ) (next : Quoting) (same : state.weight openChar closeChar ch = weight)
          (isNext : state.next ch = next) (stays : 0 < start + weight) :
          (pass ch (scanFrom openChar closeChar (start + weight) next.inString next.skips
              rest)).map (fun found => found.1.length) = some n ↔
            FirstZero openChar closeChar start state (ch :: rest) n := by
        rw [FirstZero.succ_iff distinct (by omega), same, isNext, length_pass]
        refine exists_congr fun k => and_congr_right fun _ => ?_
        exact ih stays
      cases state with
      | outside =>
          rw [Quoting.inString, Quoting.skips, scanFrom]
          by_cases quotes : ch = '\'' ∨ ch = '"'
          · have kept := onward 0 (.inside ch) (by rw [Quoting.weight, if_pos quotes])
              (by rw [Quoting.next, if_pos quotes]) (by omega)
            rw [add_zero] at kept
            rw [if_pos quotes]
            exact kept
          have isNext : Quoting.outside.next ch = .outside := by
            rw [Quoting.next, if_neg quotes]
          rw [if_neg quotes]
          by_cases opens : ch = openChar
          · rw [if_pos opens]
            exact onward 1 .outside (by rw [Quoting.weight, if_neg quotes, if_pos opens]) isNext
              (by omega)
          rw [if_neg opens]
          by_cases closes : ch = closeChar
          · have weight : Quoting.outside.weight openChar closeChar ch = -1 := by
              rw [Quoting.weight, if_neg quotes, if_neg opens, if_pos closes]
            rw [if_pos closes]
            by_cases last : start - 1 = 0
            · rw [if_pos last, FirstZero.one_iff distinct (by omega)]
              simp [eq_comm]
            · rw [if_neg last]
              exact onward (-1) .outside weight isNext (by omega)
          · have kept := onward 0 .outside
              (by rw [Quoting.weight, if_neg quotes, if_neg opens, if_neg closes]) isNext (by omega)
            rw [add_zero] at kept
            rw [if_neg closes]
            exact kept
      | inside quote =>
          rw [Quoting.inString, Quoting.skips, scanFrom]
          by_cases escapes : ch = '\\'
          · have kept := onward 0 (.escaped quote) rfl (by rw [Quoting.next, if_pos escapes])
              (by omega)
            rw [add_zero] at kept
            rw [if_pos escapes]
            exact kept
          rw [if_neg escapes]
          by_cases ends : ch = quote
          · have kept := onward 0 .outside rfl
              (by rw [Quoting.next, if_neg escapes, if_pos ends]) (by omega)
            rw [add_zero] at kept
            rw [if_pos ends]
            exact kept
          · have kept := onward 0 (.inside quote) rfl
              (by rw [Quoting.next, if_neg escapes, if_neg ends]) (by omega)
            rw [add_zero] at kept
            rw [if_neg ends]
            exact kept
      | escaped quote =>
          have kept := onward 0 (.inside quote) rfl rfl (by omega)
          rw [add_zero] at kept
          rw [Quoting.inString, Quoting.skips, scanFrom]
          exact kept

end FirstZero

section Result

variable {openChar closeChar : Char} {text : List Char} {openPos : ℕ}

/-- The first bracket is the open one, so the depth is one behind it. -/
theorem scanMatchingBracket_iff (distinct : openChar ≠ closeChar)
    (noQuote : ¬ (openChar = '\'' ∨ openChar = '"')) {rest : List Char} {n : ℕ} :
    (scanMatchingBracket (openChar :: rest) openChar closeChar).map
        (fun found => found.1.length) = some n ↔
      FirstZero openChar closeChar 0 .outside (openChar :: rest) n := by
  have weight : Quoting.outside.weight openChar closeChar openChar = 1 := by
    rw [Quoting.weight, if_neg noQuote, if_pos rfl]
  have next : Quoting.outside.next openChar = .outside := by
    rw [Quoting.next, if_neg noQuote]
  rw [scanMatchingBracket, List.head?_cons, if_neg (not_not.mpr rfl), scanFrom, if_neg noQuote,
    if_pos rfl, length_pass, FirstZero.succ_iff distinct (by omega), weight, next]
  have inside (k : ℕ) : (scanFrom openChar closeChar (0 + 1) Quoting.outside.inString
      Quoting.outside.skips rest).map (fun found => found.1.length) = some k ↔
        FirstZero openChar closeChar (0 + 1) .outside rest k :=
    scanFrom_iff distinct (by omega)
  exact exists_congr fun k => and_congr_right fun _ => inside k

theorem firstZero_iff_returnsToZero {n : ℕ} :
    FirstZero openChar closeChar 0 .outside (text.drop openPos) n ↔
      ∃ i, openPos + n = i + 1 ∧ ReturnsToZero openChar closeChar text openPos i := by
  constructor
  · intro found
    have inText := found.inText
    have zero := found.zero
    rw [List.length_drop] at inText
    rw [zero_add] at zero
    refine ⟨openPos + n - 1, by omega, by omega, ?_, ?_⟩
    · rw [show openPos + n - 1 + 1 - openPos = n by omega]
      exact zero
    · intro j behind before
      have nonzero := found.first (j + 1 - openPos) (by omega) (by omega)
      rw [zero_add] at nonzero
      exact nonzero
  · rintro ⟨i, same, returns⟩
    have inText := returns.inText
    obtain rfl : n = i + 1 - openPos := by omega
    refine ⟨⟨by omega, by rw [List.length_drop]; omega⟩, ?_, ?_⟩
    · rw [zero_add]
      exact returns.zero
    · intro m positive before
      have nonzero := returns.first (openPos + m - 1) (by omega) (by omega)
      rw [show openPos + m - 1 + 1 - openPos = m by omega] at nonzero
      rw [zero_add]
      exact nonzero

/-- A `ValueError` of the scanner. -/
def RaisesValueError (outcome : Except ScanFault ℕ) : Prop :=
  ∃ fault, outcome = .error fault ∧ fault ≠ .indexError

/-- The scanner returns the position behind the first one at which the depth is zero, raises a
`ValueError` when there is none, and never looks up a position outside the text. -/
theorem scanMatchingBracketAt_returnsToZero (holds : text[openPos]? = some openChar)
    (distinct : openChar ≠ closeChar)
    (brackets : ∀ mark ∈ ['\'', '"', '\\'], openChar ≠ mark ∧ closeChar ≠ mark) :
    (∀ past, scanMatchingBracketAt text openPos openChar closeChar = .ok past ↔
      ∃ i, past = i + 1 ∧ ReturnsToZero openChar closeChar text openPos i) ∧
    (RaisesValueError (scanMatchingBracketAt text openPos openChar closeChar) ↔
      ¬ ∃ i, ReturnsToZero openChar closeChar text openPos i) ∧
    scanMatchingBracketAt text openPos openChar closeChar ≠ .error .indexError := by
  have noQuote : ¬ (openChar = '\'' ∨ openChar = '"') := by
    rintro (same | same)
    · exact (brackets '\'' (by simp)).1 same
    · exact (brackets '"' (by simp)).1 same
  obtain ⟨rest, isRest⟩ : ∃ rest, text.drop openPos = openChar :: rest := by
    rw [← List.head?_eq_some_iff, List.head?_drop, holds]
  have returns (n : ℕ) : (scanMatchingBracket (text.drop openPos) openChar closeChar).map
      (fun found => found.1.length) = some n ↔
        ∃ i, openPos + n = i + 1 ∧ ReturnsToZero openChar closeChar text openPos i := by
    rw [← firstZero_iff_returnsToZero, isRest]
    exact scanMatchingBracket_iff distinct noQuote
  rw [scanMatchingBracketAt_eq holds]
  generalize scanMatchingBracket (text.drop openPos) openChar closeChar = outcome at returns ⊢
  rcases outcome with _ | ⟨front, back⟩
  · have nowhere : ¬ ∃ i, ReturnsToZero openChar closeChar text openPos i := by
      rintro ⟨i, found⟩
      have inText := found.inText
      have some := (returns (i + 1 - openPos)).mpr ⟨i, by omega, found⟩
      cases some
    refine ⟨?_, ?_, by simp [behind]⟩
    · intro past
      refine iff_of_false (by simp [behind]) ?_
      rintro ⟨i, -, found⟩
      exact nowhere ⟨i, found⟩
    · exact iff_of_true ⟨_, rfl, by simp⟩ nowhere
  · obtain ⟨i, past, found⟩ := (returns front.length).mp rfl
    refine ⟨?_, ?_, by simp [behind]⟩
    · intro past'
      simp only [behind, Except.ok.injEq]
      constructor
      · rintro rfl
        exact ⟨i, past, found⟩
      · rintro ⟨j, rfl, other⟩
        have inText := other.inText
        have some := (returns (j + 1 - openPos)).mpr ⟨j, by omega, other⟩
        simp only [Option.map_some, Option.some.injEq] at some
        omega
    · refine iff_of_false ?_ (not_not.mpr ⟨i, found⟩)
      rintro ⟨fault, same, -⟩
      cases same

/-- A bracket in a string is passed over. -/
theorem scanMatchingBracketAt_returnsToZero_quoted :
    ∃ i, 9 = i + 1 ∧ ReturnsToZero '[' ']' "x['a]',1];".toList 1 i :=
  ((scanMatchingBracketAt_returnsToZero rfl (by decide) (by simp)).1 9).mp
    (by simp [scanMatchingBracketAt, scanLoop])

end Result

end Webvar

end Asmb8Ikvm
