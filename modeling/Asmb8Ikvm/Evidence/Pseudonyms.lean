import Asmb8Ikvm.Evidence.Passes
import Asmb8Ikvm.Lib.Numerals

/-!
# The tokens of a run

A value has one token, and a token stands for one value of one category. No
pattern matches inside a token, as long as its counter is shorter than a bare
UUID.
-/

namespace Asmb8Ikvm.Evidence

open PyText Regex Lookaround

section Text

/-- Counters below it have fewer digits than a UUID without dashes. -/
def counterLimit : ℕ := 10 ^ 31

/-- The characters of a token without its brackets and dashes. -/
def tokenChars : List Char :=
  ['a', 'b', 'c', 'd', 'e', 'f', 'g', 'h', 'i', 'j', 'k', 'l', 'm', 'n', 'o', 'p', 'q', 'r', 's',
    't', 'u', 'v', 'w', 'x', 'y', 'z', '0', '1', '2', '3', '4', '5', '6', '7', '8', '9']

/-- The word all tokens begin with. -/
def redacted : List Char := ['r', 'e', 'd', 'a', 'c', 't', 'e', 'd']

/-- The text between the brackets of a token. -/
def tokenWord (category : Category) (n : ℕ) : List Char :=
  redacted ++ '-' :: (category.name ++ '-' :: Nat.toDigits 10 n)

theorem tokenText_eq (category : Category) (n : ℕ) :
    tokenText category n = '<' :: (tokenWord category n ++ ['>']) := by
  have opening : "<redacted-".toList = '<' :: (redacted ++ ['-']) := by rfl
  change "<redacted-".toList ++ category.name ++ '-' :: Nat.toDigits 10 n ++ ['>'] =
    '<' :: (redacted ++ '-' :: (category.name ++ '-' :: Nat.toDigits 10 n) ++ ['>'])
  rw [opening]
  simp only [List.cons_append, List.append_assoc, List.nil_append]

theorem Category.name_eq (category : Category) : category.name = match category with
    | .ipv4 => ['i', 'p', 'v', '4']
    | .ipv6 => ['i', 'p', 'v', '6']
    | .mac => ['m', 'a', 'c']
    | .uuid => ['u', 'u', 'i', 'd']
    | .fingerprint => ['f', 'i', 'n', 'g', 'e', 'r', 'p', 'r', 'i', 'n', 't']
    | .digest => ['d', 'i', 'g', 'e', 's', 't']
    | .fqdn => ['f', 'q', 'd', 'n']
    | .hostname => ['h', 'o', 's', 't', 'n', 'a', 'm', 'e']
    | .username => ['u', 's', 'e', 'r', 'n', 'a', 'm', 'e']
    | .path => ['p', 'a', 't', 'h'] := by
  cases category <;> rfl

theorem Category.name_mem_tokenChars (category : Category) :
    ∀ c ∈ category.name, c ∈ tokenChars := by
  have inside : category.name.all (· ∈ tokenChars) = true := by
    rw [name_eq]
    cases category <;> decide
  simpa using inside

theorem redacted_mem_tokenChars : ∀ c ∈ redacted, c ∈ tokenChars := by
  have inside : redacted.all (· ∈ tokenChars) = true := by decide
  simpa using inside

theorem Category.length_name_le (category : Category) : category.name.length ≤ 11 := by
  rw [name_eq]
  cases category <;> decide

theorem Category.name_injective : Function.Injective Category.name := by
  intro category category' same
  rw [name_eq, name_eq category'] at same
  revert same
  cases category <;> cases category' <;> decide

theorem mem_tokenChars_of_isDigit {c : Char} (digit : c.isDigit = true) : c ∈ tokenChars := by
  simp only [Char.isDigit, Bool.and_eq_true, decide_eq_true_eq, UInt32.le_iff_toNat_le] at digit
  have value : c.val.toNat = c.toNat := rfl
  have bounds : '0'.val.toNat = 48 ∧ '9'.val.toNat = 57 := by decide
  have low : 48 ≤ c.toNat := by omega
  have high : c.toNat ≤ 57 := by omega
  rw [← Char.ofNat_toNat c]
  interval_cases c.toNat <;> decide

theorem dash_notMem_tokenChars : '-' ∉ tokenChars := by decide

theorem mem_tokenChars_of_mem_toDigits {n : ℕ} {c : Char} (mem : c ∈ Nat.toDigits 10 n) :
    c ∈ tokenChars :=
  mem_tokenChars_of_isDigit (Nat.isDigit_of_mem_toDigits (by decide) (by decide) mem)

theorem tokenText_injective {category category' : Category} {n n' : ℕ}
    (same : tokenText category n = tokenText category' n') : category = category' ∧ n = n' := by
  rw [tokenText_eq, tokenText_eq, List.cons.injEq, tokenWord, tokenWord] at same
  have rest := List.append_cancel_left (List.append_cancel_right same.2)
  rw [List.cons.injEq] at rest
  have parts := congrArg (partition '-') rest.2
  have absent (category : Category) : '-' ∉ category.name := fun mem =>
    dash_notMem_tokenChars (category.name_mem_tokenChars _ mem)
  rw [partition_append (absent category), partition_append (absent category'), Prod.mk.injEq]
    at parts
  refine ⟨Category.name_injective parts.1, ?_⟩
  rw [← Nat.ofDigitChars_ten_toDigits (n := n), parts.2, Nat.ofDigitChars_ten_toDigits]

theorem spells_lits (c : Char) (text : List Char) :
    Spells (.chain (.lit c) (text.map .lit)) (c :: text) := by
  induction text generalizing c with
  | nil => exact ⟨c, rfl, beq_self_eq_true c⟩
  | cons d text ih => exact ⟨[c], d :: text, rfl, ⟨c, rfl, beq_self_eq_true c⟩, ih d⟩

/-- `set+`. -/
theorem spells_run {set : Char → Bool} {word : List Char} (nonempty : word ≠ [])
    (inside : ∀ c ∈ word, set c = true) : Spells (.atLeast 1 (.one set)) word := by
  have optional (word : List Char) (inside : ∀ c ∈ word, set c = true) (extra : ℕ)
      (enough : word.length ≤ extra) : Optional (Spells (.one set)) extra word := by
    induction word generalizing extra with
    | nil => exact optional_nil extra
    | cons c word ih =>
        rw [List.forall_mem_cons] at inside
        rw [List.length_cons] at enough
        rcases extra with _ | extra
        · omega
        · exact .inr ⟨[c], word, rfl, by simp, ⟨c, rfl, inside.1⟩, ih inside.2 extra (by omega)⟩
  rcases word with _ | ⟨c, word⟩
  · exact absurd rfl nonempty
  · rw [List.forall_mem_cons] at inside
    exact ⟨[c], word, rfl, ⟨c, rfl, inside.1⟩, optional word inside.2 _ (Nat.le_succ _)⟩

/-- `_TOKEN_RE` knows the tokens. -/
theorem isToken_tokenText (table : CharTable) (category : Category) (n : ℕ) :
    isToken table (tokenText category n) = true := by
  have digits : ∀ c ∈ Nat.toDigits 10 n, (table.digit c).isSome = true := by
    intro c mem
    have digit := Nat.isDigit_of_mem_toDigits (by decide) (by decide) mem
    have low : c.toNat < 128 := by
      simp only [Char.isDigit, Bool.and_eq_true, decide_eq_true_eq, UInt32.le_iff_toNat_le] at digit
      have value : c.val.toNat = c.toNat := rfl
      have bound : '9'.val.toNat = 57 := by decide
      omega
    rw [table.digit_ascii c low, if_pos digit]
    rfl
  have name : ∀ c ∈ category.name,
      ((('a' ≤ c && c ≤ 'z') || isDigit c || c == '_') : Bool) = true := by
    rw [← List.all_eq_true, Category.name_eq]
    cases category <;> decide
  have nonempty : category.name ≠ [] := by
    rw [Category.name_eq]
    cases category <;> decide
  have spelled : Spells (tokenRe table) (tokenText category n) := by
    change Spells _ (('<' :: "redacted-".toList) ++ category.name ++ '-' :: Nat.toDigits 10 n ++
      ['>'])
    rw [List.append_assoc, List.append_assoc]
    refine ⟨_, _, rfl, spells_lits _ _, _, _, rfl, spells_run nonempty name, ['-'],
      Nat.toDigits 10 n ++ ['>'], rfl, ⟨'-', rfl, rfl⟩, _, _, rfl,
      spells_run Nat.toDigits_ne_nil digits, '>', rfl, rfl⟩
  rw [isToken, decide_eq_true_eq, listsLengths_lengths, List.take_length, map_char]
  exact ⟨le_rfl, spelled⟩

end Text

section Silence

variable {taken : List Char} {category : Category} {n : ℕ}

/-- An infix without the separator is in one of the parts. -/
theorem infix_of_notMem {sep : Char} {left right : List Char}
    (isInfix : taken <:+: left ++ sep :: right)
    (absent : sep ∉ taken) : taken <:+: left ∨ taken <:+: right := by
  rcases isInfix with ⟨front, back, split⟩
  rw [List.append_assoc] at split
  rcases List.append_eq_append_iff.mp split with ⟨middle, rfl, rest⟩ | ⟨middle, rfl, rest⟩
  · left
    have inside : ∀ c ∈ taken, c ≠ sep := fun c mem same => absent (same ▸ mem)
    rcases append_eq_append_cons rest inside (by simp) with ⟨after, rfl, -⟩
    exact ⟨front, after, List.append_assoc _ _ _⟩
  · rcases middle with _ | ⟨c, middle⟩
    · rcases taken with _ | ⟨c, taken⟩
      · exact .inl (List.nil_infix)
      · simp only [List.nil_append, List.cons_append, List.cons.injEq] at rest
        exact absurd (by rw [rest.1]; simp) absent
    · right
      simp only [List.cons_append, List.cons.injEq] at rest
      exact ⟨middle, back, by rw [List.append_assoc]; exact rest.2.symm⟩

theorem countP_tokenWord :
    (tokenWord category n).countP (· ∉ tokenChars) = 2 := by
  have none {text : List Char} (inside : ∀ c ∈ text, c ∈ tokenChars) :
      text.countP (· ∉ tokenChars) = 0 := by
    rw [List.countP_eq_zero]
    intro c mem
    simp [inside c mem]
  have dash (text : List Char) : ('-' :: text).countP (· ∉ tokenChars) =
      text.countP (· ∉ tokenChars) + 1 :=
    List.countP_cons_of_pos (decide_eq_true dash_notMem_tokenChars)
  rw [tokenWord, List.countP_append, dash, List.countP_append, dash,
    none redacted_mem_tokenChars, none category.name_mem_tokenChars,
    none fun c mem => mem_tokenChars_of_mem_toDigits mem]

/-- A body that needs more than two characters outside these has no word in a token. -/
theorem not_spells_of_outside {body : Body} (many : 2 < body.outside tokenChars)
    (isInfix : taken <:+: tokenWord category n) : ¬ Spells body taken := by
  intro spelled
  have few := isInfix.sublist.countP_le (p := fun c => decide (c ∉ tokenChars))
  have needed := Body.outside_le_countP tokenChars spelled
  rw [countP_tokenWord] at few
  omega

/-- A body that needs another character has no word in a token. -/
theorem not_spells_of_avoided {body : Body} (needed : 0 < body.outside ('-' :: tokenChars))
    (isInfix : taken <:+: tokenWord category n) : ¬ Spells body taken := by
  intro spelled
  have some := Body.outside_le_countP ('-' :: tokenChars) spelled
  have inside : ∀ c ∈ tokenWord category n, c ∈ '-' :: tokenChars := by
    intro c mem
    simp only [tokenWord, List.mem_append, List.mem_cons] at mem ⊢
    rcases mem with mem | rfl | mem | rfl | mem
    · exact .inr (redacted_mem_tokenChars c mem)
    · exact .inl rfl
    · exact .inr (category.name_mem_tokenChars c mem)
    · exact .inl rfl
    · exact .inr (mem_tokenChars_of_mem_toDigits mem)
  have none : taken.countP (· ∉ '-' :: tokenChars) = 0 := by
    rw [List.countP_eq_zero]
    intro c mem
    simpa [or_iff_not_imp_left] using inside c (isInfix.subset mem)
  omega

/-- The parts of a token are shorter than a run of hexadecimal digits. -/
theorem not_spells_hexRun {least : ℕ} (long : 32 ≤ least) (few : n < counterLimit)
    (isInfix : taken <:+: tokenWord category n) : ¬ Spells (hexRunRe least).body taken := by
  intro spelled
  have within : (hexRunRe least).body.Within isHex := fun _ isHex => isHex
  have absent : '-' ∉ taken := by
    intro mem
    exact absurd (within.mem spelled '-' mem) (by decide)
  have size := Body.outside_nil_le_length spelled
  have least_le : least ≤ (hexRunRe least).body.outside [] := by
    simp [hexRunRe, Body.exactly, Body.outside, hex]
  have digits : (Nat.toDigits 10 n).length ≤ 31 :=
    (Nat.length_toDigits_le_iff (by decide) (by decide)).mpr few
  have name := category.length_name_le
  have opening : redacted.length = 8 := rfl
  rcases infix_of_notMem isInfix absent with isInfix | isInfix
  · have := isInfix.length_le
    omega
  · rcases infix_of_notMem isInfix absent with isInfix | isInfix
    · have := isInfix.length_le
      omega
    · have := isInfix.length_le
      omega

theorem not_spells_of_infix {rule : Category × Pattern} (mem : rule ∈ patterns)
    (few : n < counterLimit) (isInfix : taken <:+: tokenWord category n) :
    ¬ Spells rule.2.body taken := by
  simp only [patterns, List.mem_cons, List.not_mem_nil, or_false] at mem
  rcases mem with rfl | rfl | rfl | rfl | rfl | rfl | rfl | rfl
  · exact not_spells_of_avoided (by decide +kernel) isInfix
  · exact not_spells_hexRun (by decide) few isInfix
  · exact not_spells_of_outside (by decide +kernel) isInfix
  · exact not_spells_of_outside (by decide +kernel) isInfix
  · exact not_spells_hexRun (by decide) few isInfix
  · exact not_spells_of_avoided (by decide +kernel) isInfix
  · exact not_spells_of_avoided (by decide +kernel) isInfix
  · exact not_spells_of_avoided (by decide +kernel) isInfix

/-- No match begins inside a token. -/
theorem matchLength_token {rule : Category × Pattern} (mem : rule ∈ patterns)
    (few : n < counterLimit) (prev : Option Char) {suffix : List Char} (right : List Char)
    (nonempty : suffix ≠ []) (isSuffix : suffix <:+ tokenText category n) :
    matchLength rule.2 prev (suffix ++ right) = none := by
  rw [matchLength_eq_none_iff]
  intro taken after split fits
  have plain := (guarded mem).reads.body.mem fits.spelled
  rw [map_char] at plain
  have begins := taken_ne_nil (guarded mem).consumes fits
  have bracket : ∀ bracket, isPlain bracket = false → ∀ rest, taken ++ after ≠ bracket :: rest := by
    rintro bracket notPlain rest split
    rcases taken with _ | ⟨c, taken⟩
    · exact begins rfl
    · rw [List.cons_append, List.cons.injEq] at split
      rw [split.1] at plain
      rw [plain bracket (by simp)] at notPlain
      cases notPlain
  rw [tokenText_eq, List.suffix_cons_iff] at isSuffix
  rcases isSuffix with rfl | isSuffix
  · exact bracket '<' (by decide) _ split.symm
  · rcases isSuffix with ⟨front, whole⟩
    rcases List.eq_nil_or_concat' suffix with rfl | ⟨word, last, rfl⟩
    · exact nonempty rfl
    · rw [← List.append_assoc, List.append_singleton_inj] at whole
      rcases whole with ⟨whole, rfl⟩
      rw [List.append_assoc, List.singleton_append] at split
      rcases append_eq_append_cons split.symm plain (by decide) with ⟨left, rfl, -⟩
      have isInfix : taken <:+: tokenWord category n :=
        ⟨front, left, by rw [← whole, List.append_assoc]⟩
      refine not_spells_of_infix mem few isInfix ?_
      rw [← map_char taken]
      exact fits.spelled

end Silence

namespace Redactor

variable {redactor : Redactor} {key key' : Category × List Char} {token : List Char}
  {category : Category} {value : List Char}

/-- The keys have tokens of their category, each its own, and `token_for` returned no others. -/
structure Sound (redactor : Redactor) : Prop where
  keys : (redactor.tokens.map Prod.fst).Nodup
  texts : (redactor.tokens.map Prod.snd).Nodup
  numbered : ∀ entry ∈ redactor.tokens, ∃ n ≤ redactor.counts entry.1.1,
    entry.2 = tokenText entry.1.1 n
  issued : ∀ call ∈ redactor.issued, call ∈ redactor.tokens

theorem sound_new : ({} : Redactor).Sound :=
  ⟨List.nodup_nil, List.nodup_nil, fun _ mem => (by cases mem), fun _ mem => (by cases mem)⟩

theorem mem_tokens_of_lookup (found : redactor.lookup key = some token) :
    (key, token) ∈ redactor.tokens := by
  rw [lookup, Option.map_eq_some_iff] at found
  rcases found with ⟨entry, found, rfl⟩
  have same := List.find?_some found
  rw [decide_eq_true_eq] at same
  rw [← same]
  exact List.mem_of_find?_eq_some found

theorem notMem_of_lookup (absent : redactor.lookup key = none) :
    key ∉ redactor.tokens.map Prod.fst := by
  rw [lookup, Option.map_eq_none_iff, List.find?_eq_none] at absent
  rintro mem
  rcases List.mem_map.mp mem with ⟨entry, mem, same⟩
  exact absent entry mem (decide_eq_true same)

/-- What a call of `token_for` does to the state of a run. -/
structure Issues (redactor : Redactor) (key : Category × List Char) (token : List Char)
    (redactor' : Redactor) : Prop where
  sound : redactor'.Sound
  grows : redactor.tokens <+: redactor'.tokens
  mem : (key, token) ∈ redactor'.tokens
  counts : ∀ category, redactor'.counts category ≤ redactor.counts category + 1
  issued : redactor'.issued = redactor.issued ++ [(key, token)]

theorem issues_tokenFor (sound : redactor.Sound) (category : Category) (value : List Char) :
    redactor.Issues (category, value) (tokenFor category value redactor).1
      (tokenFor category value redactor).2 := by
  cases found : redactor.lookup (category, value) with
  | some token =>
      have mem := mem_tokens_of_lookup found
      simp only [tokenFor, found]
      refine ⟨⟨sound.keys, sound.texts, sound.numbered, ?_⟩, List.prefix_rfl, mem,
        fun _ => Nat.le_succ _, rfl⟩
      intro call isCall
      rcases List.mem_append.mp isCall with isCall | isCall
      · exact sound.issued call isCall
      · rw [List.mem_singleton.mp isCall]
        exact mem
  | none =>
      have absent := notMem_of_lookup found
      simp only [tokenFor, found]
      have grown (category' : Category) : redactor.counts category' ≤
          Function.update redactor.counts category (redactor.counts category + 1) category' := by
        by_cases same : category' = category
        · subst same
          rw [Function.update_self]
          exact Nat.le_succ _
        · rw [Function.update_of_ne same]
      have fresh : tokenText category (redactor.counts category + 1) ∉
          redactor.tokens.map Prod.snd := by
        intro mem
        rcases List.mem_map.mp mem with ⟨entry, mem, same⟩
        rcases sound.numbered entry mem with ⟨n, counted, text⟩
        rw [text] at same
        rcases tokenText_injective same with ⟨isCategory, rfl⟩
        rw [isCategory] at counted
        exact absurd counted (Nat.not_succ_le_self _)
      refine ⟨⟨?_, ?_, ?_, ?_⟩, List.prefix_append _ _, by simp, ?_, rfl⟩
      · rw [List.map_append, List.nodup_append]
        refine ⟨sound.keys, by simp, ?_⟩
        rintro key mem key' mem' rfl
        rw [List.map_singleton, List.mem_singleton] at mem'
        subst mem'
        exact absent mem
      · rw [List.map_append, List.nodup_append]
        refine ⟨sound.texts, by simp, ?_⟩
        rintro token mem token' mem' rfl
        rw [List.map_singleton, List.mem_singleton] at mem'
        subst mem'
        exact fresh mem
      · intro entry mem
        rcases List.mem_append.mp mem with mem | mem
        · rcases sound.numbered entry mem with ⟨n, counted, text⟩
          exact ⟨n, counted.trans (grown _), text⟩
        · rw [List.mem_singleton.mp mem]
          refine ⟨redactor.counts category + 1, ?_, rfl⟩
          exact (Function.update_self category _ redactor.counts).ge
      · intro call isCall
        rcases List.mem_append.mp isCall with isCall | isCall
        · exact List.mem_append_left _ (sound.issued call isCall)
        · exact List.mem_append_right _ isCall
      · intro category'
        by_cases same : category' = category
        · subst same
          exact (Function.update_self category' _ redactor.counts).le
        · exact (Function.update_of_ne same _ redactor.counts).trans_le (Nat.le_succ _)

/-- Tokens tell the values apart. -/
theorem Sound.key_eq_iff (sound : redactor.Sound) {call call' : (Category × List Char) × List Char}
    (mem : call ∈ redactor.tokens) (mem' : call' ∈ redactor.tokens) :
    call.1 = call'.1 ↔ call.2 = call'.2 := by
  constructor
  · intro same
    rw [List.inj_on_of_nodup_map sound.keys mem mem' same]
  · intro same
    rw [List.inj_on_of_nodup_map sound.texts mem mem' same]

end Redactor

end Asmb8Ikvm.Evidence
