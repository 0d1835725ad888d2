import Asmb8Ikvm.Evidence.Redactor

/-!
# What the passes leave

A text is followed through the passes of `redact_text` with a hole for every part
that is replaced. A later pass can free a match of an earlier one: it takes away
the character that the lookarounds of the earlier pattern refused. Since no
pattern matches next to a hexadecimal digit, a match that is freed has a colon or
a DNS name next to the hole.
-/

namespace Asmb8Ikvm.Evidence

open PyText Regex Lookaround

/-- A text with holes. A hole reads as the `<` of a token. -/
abbrev Shape := List (Option Char)

instance : Glyph (Option Char) where
  char glyph := glyph.getD '<'
  ofChar := some
  char_ofChar _ := rfl

/-- The match is replaced. -/
def accepts (category : Category) (value : List Char) : Bool :=
  category != .fqdn || isDnsName value

/-- What a match is replaced by. -/
def hole (category : Category) (taken : Shape) (state : Unit) : Shape × Unit :=
  if accepts category (taken.map char) = true then ([none], state) else (taken, state)

/-- One pass. -/
def cut (rule : Category × Pattern) (shape : Shape) : Shape :=
  (sub rule.2 (hole rule.1) shape ()).1

/-- What the passes leave of a value. -/
def pieces (value : List Char) : Shape :=
  patterns.foldl (fun shape rule => cut rule shape) (value.map some)

section Patterns

/-- The characters other than the brackets of a token. -/
def isPlain (c : Char) : Bool :=
  c != '<' && c != '>'

/-- The characters of dotted names. -/
def isNameChar (c : Char) : Bool :=
  isLabelChar c || c == '.'

/-- What the patterns have in common. -/
structure Guarded (pattern : Pattern) : Prop where
  reads : pattern.Reads isPlain
  consumes : pattern.Consumes
  open_ : pattern.notAfter '<' = false
  close : pattern.notAfter '>' = false
  hexBefore : ∀ c, isHex c = true → pattern.notAfter c = true
  hexAfter : ∀ c, isHex c = true → Spells pattern.notBefore [c]

theorem reads_plain {pattern : Pattern}
    (body : ['<', '>'].all pattern.body.avoids = true)
    (notBefore : ['<', '>'].all pattern.notBefore.avoids = true) :
    pattern.Reads isPlain := by
  have others : ∀ c : Char, c ∉ ['<', '>'] → isPlain c = true := by
    intro c absent
    simpa [isPlain] using absent
  rw [List.all_eq_true] at body notBefore
  exact ⟨Body.within_of_avoids others body, Body.within_of_avoids others notBefore⟩

theorem consumes_of_outside {pattern : Pattern} (positive : 0 < pattern.body.outside []) :
    pattern.Consumes := by
  intro spelled
  have short := Body.outside_nil_le_length spelled
  rw [List.length_nil] at short
  omega

theorem isAlnum_of_isHex {c : Char} (isHex : isHex c = true) : isAlnum c = true := by
  simp only [Evidence.isHex, isDigit, Bool.or_eq_true, Bool.and_eq_true, decide_eq_true_eq] at isHex
  simp only [isAlnum, isDigit, isLetter, Bool.or_eq_true, Bool.and_eq_true, decide_eq_true_eq]
  rcases isHex with (digit | upper) | lower
  · exact .inl digit
  · exact .inr (.inl ⟨upper.1, upper.2.trans (by decide)⟩)
  · exact .inr (.inr ⟨lower.1, lower.2.trans (by decide)⟩)

/-- A lookahead for one character of a set that has the hexadecimal digits. -/
theorem guarded_single {pattern : Pattern} {set : Char → Bool}
    (single : pattern.notBefore = .one set)
    (reads : pattern.Reads isPlain) (positive : 0 < pattern.body.outside [])
    (brackets : pattern.notAfter '<' = false ∧ pattern.notAfter '>' = false)
    (hex : ∀ c, isHex c = true → pattern.notAfter c = true ∧ set c = true) : Guarded pattern where
  reads := reads
  consumes := consumes_of_outside positive
  open_ := brackets.1
  close := brackets.2
  hexBefore c isHex := (hex c isHex).1
  hexAfter c isHex := by
    rw [single]
    exact ⟨c, rfl, (hex c isHex).2⟩

theorem guarded_fingerprint : Guarded fingerprintRe where
  reads := reads_plain (by decide) (by decide)
  consumes := consumes_of_outside (by decide)
  open_ := by decide
  close := by decide
  hexBefore _ isHex := isHex
  hexAfter c isHex := ⟨[], [c], rfl, .inl rfl, c, rfl, isHex⟩

theorem guarded_digest : Guarded digestRe :=
  guarded_single rfl (reads_plain (by decide) (by decide)) (by decide) (by decide)
    fun _ isHex => ⟨isAlnum_of_isHex isHex, isAlnum_of_isHex isHex⟩

theorem guarded_bareUuid : Guarded bareUuidRe :=
  guarded_single rfl (reads_plain (by decide) (by decide)) (by decide) (by decide)
    fun _ isHex => ⟨isAlnum_of_isHex isHex, isAlnum_of_isHex isHex⟩

theorem guarded_mac : Guarded macRe :=
  guarded_single rfl (reads_plain (by decide) (by decide)) (by decide) (by decide) fun c isHex => by
    simp [macRe, isAlnum_of_isHex isHex]

theorem guarded_uuid : Guarded uuidRe :=
  guarded_single rfl (reads_plain (by decide) (by decide)) (by decide) (by decide) fun c isHex => by
    simp [uuidRe, isAlnum_of_isHex isHex]

theorem guarded_ipv4 : Guarded ipv4Re :=
  guarded_single rfl (reads_plain (by decide) (by decide)) (by decide) (by decide) fun c isHex => by
    simp [ipv4Re, isAlnum_of_isHex isHex]

theorem guarded_ipv6 : Guarded ipv6Re :=
  guarded_single rfl (reads_plain (by decide) (by decide)) (by decide) (by decide) fun c isHex => by
    simp [ipv6Re, isHex]

theorem guarded_fqdn : Guarded fqdnRe :=
  guarded_single rfl (reads_plain (by decide) (by decide)) (by decide) (by decide) fun c isHex => by
    simp [fqdnRe, isLabelChar, isAlnum_of_isHex isHex]

theorem guarded {rule : Category × Pattern} (mem : rule ∈ patterns) : Guarded rule.2 := by
  simp only [patterns, List.mem_cons, List.not_mem_nil, or_false] at mem
  rcases mem with rfl | rfl | rfl | rfl | rfl | rfl | rfl | rfl
  · exact guarded_fingerprint
  · exact guarded_digest
  · exact guarded_mac
  · exact guarded_uuid
  · exact guarded_bareUuid
  · exact guarded_ipv4
  · exact guarded_ipv6
  · exact guarded_fqdn

/-- The matches of the pattern begin and end with a hexadecimal digit. -/
structure HexEnded (pattern : Pattern) : Prop where
  first : ∀ c, pattern.body.first c = true → isHex c = true
  last : ∀ c, pattern.body.last c = true → isHex c = true

theorem isHex_of_isDigit {c : Char} (isDigit : isDigit c = true) : isHex c = true := by
  simp [isHex, isDigit]

theorem octet_within : octet.Within isDigit := by
  have digits : ∀ low high : Char, '0' ≤ low → high ≤ '9' → ∀ c : Char,
      (decide (low ≤ c) && decide (c ≤ high)) = true → isDigit c = true := by
    intro low high above below c inside
    rw [Bool.and_eq_true, decide_eq_true_eq, decide_eq_true_eq] at inside
    rw [isDigit, Bool.and_eq_true, decide_eq_true_eq, decide_eq_true_eq]
    exact ⟨above.trans inside.1, inside.2.trans below⟩
  have literal : ∀ digit : Char, isDigit digit = true → ∀ c : Char, (c == digit) = true →
      isDigit c = true := by
    intro digit isDigit c same
    rwa [beq_iff_eq.mp same]
  refine ⟨⟨?_, ?_, ?_⟩, ⟨?_, ?_, ?_⟩, ⟨?_, ?_⟩, ?_, ?_⟩
  · exact literal '2' (by decide)
  · exact literal '5' (by decide)
  · exact digits '0' '5' (by decide) (by decide)
  · exact literal '2' (by decide)
  · exact digits '0' '4' (by decide) (by decide)
  · exact fun _ isDigit => isDigit
  · exact literal '1' (by decide)
  · exact fun _ isDigit => isDigit
  · exact digits '1' '9' (by decide) (by decide)
  · exact fun _ isDigit => isDigit

theorem hexEnded_fingerprint : HexEnded fingerprintRe where
  first c isFirst := by
    simpa [fingerprintRe, pair, Body.exactly, Body.first, Body.outside, hex] using isFirst
  last c isLast := by
    simpa [fingerprintRe, pair, Body.exactly, Body.last, Body.outside, hex] using isLast

theorem hexEnded_hexRun {n : ℕ} : HexEnded (hexRunRe n) :=
  ⟨fun _ isHex => isHex, fun _ isHex => isHex⟩

theorem hexEnded_mac : HexEnded macRe where
  first c isFirst := by
    simpa [macRe, pair, Body.exactly, Body.first, Body.outside, hex] using isFirst
  last c isLast := by simpa [macRe, pair, Body.exactly, Body.last, Body.outside, hex] using isLast

theorem hexEnded_uuid : HexEnded uuidRe where
  first c isFirst := by
    simpa [uuidRe, Body.chain, Body.exactly, Body.first, Body.outside, hex] using isFirst
  last c isLast := by
    simpa [uuidRe, Body.chain, Body.exactly, Body.last, Body.outside, hex] using isLast

theorem hexEnded_ipv4 : HexEnded ipv4Re where
  first c isFirst := by
    have positive : octet.outside [] = 1 := by decide
    refine isHex_of_isDigit (octet_within.first ?_)
    simpa [ipv4Re, Body.exactly, Body.first, Body.outside, positive] using isFirst
  last c isLast := by
    have positive : octet.outside [] = 1 := by decide
    refine isHex_of_isDigit (octet_within.last ?_)
    simpa [ipv4Re, Body.exactly, Body.last, Body.outside, positive] using isLast

end Patterns

section Cutting

variable {rule : Category × Pattern} {prev : Option Char} {shape result : Shape}

/-- How a pass goes through a text. -/
inductive Cut (rule : Category × Pattern) : Option Char → Shape → Shape → Prop where
  | nil {prev : Option Char} : Cut rule prev [] []
  | copy {prev glyph : Option Char} {rest result : Shape}
      (refused : ∀ n, matchLength rule.2 prev (glyph :: rest) = some n →
        accepts rule.1 (((glyph :: rest).take n).map char) = false)
      (later : Cut rule (some (char glyph)) rest result) :
      Cut rule prev (glyph :: rest) (glyph :: result)
  | replace {prev : Option Char} {taken rest result : Shape} (nonempty : taken ≠ [])
      (found : matchLength rule.2 prev (taken ++ rest) = some taken.length)
      (accepted : accepts rule.1 (taken.map char) = true)
      (later : Cut rule (lastChar prev taken) rest result) :
      Cut rule prev (taken ++ rest) (none :: result)

theorem eq_fqdn_of_rejected {value : List Char} (mem : rule ∈ patterns)
    (rejected : accepts rule.1 value = false) : rule = (.fqdn, fqdnRe) := by
  simp only [patterns, List.mem_cons, List.not_mem_nil, or_false] at mem
  rcases mem with rfl | rfl | rfl | rfl | rfl | rfl | rfl | rfl
  case inr.inr.inr.inr.inr.inr.inr => rfl
  all_goals exact absurd rejected (by simp [accepts])

/-- No DNS name begins behind a character of another name. -/
theorem Cut.append_of_named {left rest : Shape} (named : prev.any isNameChar = true)
    (names : ∀ glyph ∈ left, isNameChar (char glyph) = true)
    (later : Cut (.fqdn, fqdnRe) (lastChar prev left) rest result) :
    Cut (.fqdn, fqdnRe) prev (left ++ rest) (left ++ result) := by
  induction left generalizing prev with
  | nil => exact later
  | cons glyph left ih =>
      rw [List.forall_mem_cons] at names
      refine .copy ?_ (ih names.1 names.2 later)
      intro n found
      rcases prev with _ | c
      · cases named
      · have before := (matchLength_eq_some found).2.before
        simp only [Option.any_some, isNameChar, Bool.or_eq_true] at named
        simp only [fqdnRe, Option.any_some, Bool.or_eq_false_iff] at before
        rw [before.1.1, before.1.2] at named
        simp at named

theorem reads_fqdn : fqdnRe.Reads isNameChar := by
  have label : ∀ c, isLabelChar c = true → isNameChar c = true := by
    intro c isLabel
    simp [isNameChar, isLabel]
  have letter : ∀ c, isLetter c = true → isNameChar c = true := by
    intro c isLetter
    simp [isNameChar, isLabelChar, isAlnum, isLetter]
  have dot : ∀ c : Char, (c == '.') = true → isNameChar c = true := by
    intro c isDot
    simp [isNameChar, isDot]
  refine ⟨⟨⟨label, dot⟩, label, letter, label, dot, letter⟩, ?_⟩
  intro c refused
  simp only [Bool.or_eq_true] at refused
  rcases refused with (isAlnum | isDot) | isDash
  · simp [isNameChar, isLabelChar, isAlnum]
  · exact dot c isDot
  · simp [isNameChar, isLabelChar, isDash]

theorem cut_spec (mem : rule ∈ patterns) (shape : Shape) :
    Cut rule none shape (cut rule shape) := by
  refine scan_induction
    (motive :=
      fun prev shape => Cut rule prev shape (subFrom rule.2 (hole rule.1) prev 0 shape ()).1)
    (guarded mem).consumes ?_ ?_ ?_ none shape
  · exact fun _ => .nil
  · intro prev glyph rest none later
    rw [subFrom_copy none]
    refine .copy ?_ later
    intro n found
    rw [none] at found
    cases found
  · intro prev taken rest nonempty found fits later
    rw [subFrom_found nonempty found]
    cases accepted : accepts rule.1 (taken.map char) with
    | true =>
        rw [hole, if_pos accepted]
        exact .replace nonempty found accepted later
    | false =>
        rw [hole, if_neg (by simp [accepted])]
        cases eq_fqdn_of_rejected mem accepted
        rcases taken with _ | ⟨glyph, taken⟩
        · exact absurd rfl nonempty
        · have names := reads_fqdn.body.mem fits.spelled
          rw [List.map_cons, List.forall_mem_cons] at names
          refine .copy ?_ (Cut.append_of_named (by simp [names.1]) ?_ later)
          · intro n found'
            cases found.symm.trans found'
            change accepts _ (((glyph :: taken ++ rest).take (glyph :: taken).length).map char) = _
            rwa [List.take_left]
          · intro glyph' mem
            exact names.2 _ (List.mem_map_of_mem mem)

/-- The result keeps parts of a text and has holes for the others. -/
inductive Shadow : Shape → Shape → Prop where
  | nil : Shadow [] []
  | keep {glyph : Option Char} {rest result : Shape} (later : Shadow rest result) :
      Shadow (glyph :: rest) (glyph :: result)
  | hole {taken rest result : Shape} (nonempty : taken ≠ []) (later : Shadow rest result) :
      Shadow (taken ++ rest) (none :: result)

theorem Cut.shadow (goes : Cut rule prev shape result) : Shadow shape result := by
  induction goes with
  | nil => exact .nil
  | copy refused later ih => exact .keep ih
  | replace nonempty found accepted later ih => exact .hole nonempty ih

theorem Shadow.head? (shadow : Shadow shape result) (kept : result.head? ≠ some none) :
    shape.head? = result.head? := by
  cases shadow with
  | nil => rfl
  | keep later => rfl
  | hole nonempty later => exact absurd rfl kept

theorem Shadow.getLast? (shadow : Shadow shape result) (kept : result.getLast? ≠ some none) :
    shape.getLast? = result.getLast? := by
  induction shadow with
  | nil => rfl
  | @keep glyph rest result later ih =>
      rw [List.getLast?_cons] at kept ⊢
      rw [List.getLast?_cons]
      cases last : result.getLast? with
      | none =>
          rw [List.getLast?_eq_none_iff] at last
          subst last
          cases later
          rfl
      | some glyph' =>
          rw [last, Option.getD_some] at kept
          rw [ih (by rwa [last]), last]
  | @hole taken rest result nonempty later ih =>
      rw [List.getLast?_cons] at kept ⊢
      cases last : result.getLast? with
      | none =>
          rw [last] at kept
          exact absurd rfl kept
      | some glyph' =>
          rw [last, Option.getD_some] at kept
          rw [List.getLast?_append, ih (by rwa [last]), last]
          rfl

/-- What is kept was there. -/
theorem Shadow.of_kept {kept back : Shape} (shadow : Shadow shape (kept ++ back))
    (present : ∀ glyph ∈ kept, glyph ≠ none) :
    ∃ after, shape = kept ++ after ∧ Shadow after back := by
  induction kept generalizing shape with
  | nil => exact ⟨shape, rfl, shadow⟩
  | cons glyph kept ih =>
      rw [List.forall_mem_cons] at present
      rcases glyph with _ | c
      · exact absurd rfl present.1
      · cases shadow with
        | keep later =>
            rcases ih later present.2 with ⟨after, rfl, shadow⟩
            exact ⟨after, rfl, shadow⟩

/-- A character that is kept was passed over: nothing is replaced at its place. -/
theorem Cut.split {front back : Shape} {c : Char} (goes : Cut rule prev shape result)
    (kept : result = front ++ some c :: back) :
    ∃ before after, shape = before ++ some c :: after ∧ Shadow before front ∧
      Cut rule (some c) after back ∧
      ∀ n, matchLength rule.2 (lastChar prev before) (some c :: after) = some n →
        accepts rule.1 (((some c :: after).take n).map char) = false := by
  induction goes generalizing front with
  | nil => simp at kept
  | @copy prev glyph rest result refused later ih =>
      rcases front with _ | ⟨glyph', front⟩
      · rw [List.nil_append, List.cons.injEq] at kept
        rcases kept with ⟨rfl, rfl⟩
        exact ⟨[], rest, rfl, .nil, later, refused⟩
      · rw [List.cons_append, List.cons.injEq] at kept
        rcases kept with ⟨rfl, kept⟩
        rcases ih kept with ⟨before, after, rfl, shadow, later, refused⟩
        exact ⟨glyph :: before, after, rfl, .keep shadow, later, refused⟩
  | @replace prev taken rest result nonempty found accepted later ih =>
      rcases front with _ | ⟨glyph', front⟩
      · simp at kept
      · rw [List.cons_append, List.cons.injEq] at kept
        rcases kept with ⟨rfl, kept⟩
        rcases ih kept with ⟨before, after, rfl, shadow, later, refused⟩
        refine ⟨taken ++ before, after, (List.append_assoc _ _ _).symm, .hole nonempty shadow,
          later,
          ?_⟩
        rwa [lastChar_append]

theorem Fits.present {pattern : Pattern} {taken after : Shape} (guarded : Guarded pattern)
    (fits : Fits pattern prev taken after) : ∀ glyph ∈ taken, glyph ≠ none := by
  rintro glyph mem rfl
  have plain := guarded.reads.body.mem fits.spelled _ (List.mem_map_of_mem mem)
  revert plain
  decide

/-- No hole is next to a hexadecimal digit. -/
def Apart (left right : Option Char) : Prop :=
  (left = none → ∀ c ∈ right, isHex c = false) ∧ (right = none → ∀ c ∈ left, isHex c = false)

theorem apart_none : Apart none none :=
  ⟨fun _ _ mem => (by cases mem), fun _ _ mem => (by cases mem)⟩

theorem Cut.isChain (guarded : Guarded rule.2) (goes : Cut rule prev shape result)
    (apart : shape.IsChain Apart) : result.IsChain Apart ∧
      (result.head? = shape.head? ∨
        result.head? = some none ∧ ∀ c ∈ prev, isHex c = false) := by
  induction goes with
  | nil => exact ⟨apart, .inl rfl⟩
  | @copy prev glyph rest result refused later ih =>
      rw [List.isChain_cons] at apart
      rcases ih apart.2 with ⟨chain, same | ⟨head, before⟩⟩
      · refine ⟨List.isChain_cons.mpr ⟨?_, chain⟩, .inl rfl⟩
        rw [same]
        exact apart.1
      · refine ⟨List.isChain_cons.mpr ⟨?_, chain⟩, .inl rfl⟩
        rw [head]
        rintro _ ⟨⟩
        refine ⟨fun _ _ mem => (by cases mem), fun _ c mem => before c ?_⟩
        rw [Option.mem_def] at mem
        rw [mem]
        rfl
  | @replace prev taken rest result nonempty found accepted later ih =>
      have fits := (matchLength_eq_some found).2
      rw [List.take_left, List.drop_left] at fits
      rw [List.isChain_append] at apart
      have clear : ∀ c ∈ prev, isHex c = false := by
        intro c mem
        have before := fits.before
        rw [Option.mem_def] at mem
        rw [mem, Option.any_some] at before
        refine Bool.eq_false_of_not_eq_true fun isHex => ?_
        rw [guarded.hexBefore c isHex] at before
        cases before
      rcases ih apart.2.1 with ⟨chain, same | ⟨head, -⟩⟩
      · refine ⟨List.isChain_cons.mpr ⟨?_, chain⟩, .inr ⟨rfl, clear⟩⟩
        rw [same]
        intro glyph mem
        refine ⟨fun _ c mem' => ?_, fun _ c mem' => (by cases mem')⟩
        rw [Option.mem_def] at mem'
        subst mem'
        refine Bool.eq_false_of_not_eq_true fun isHex => ?_
        rcases List.head?_eq_some_iff.mp mem with ⟨rest, rfl⟩
        exact fits.allows [c] (rest.map char) rfl (guarded.hexAfter c isHex)
      · refine ⟨List.isChain_cons.mpr ⟨?_, chain⟩, .inr ⟨rfl, clear⟩⟩
        rw [head]
        rintro _ ⟨⟩
        exact apart_none

theorem isChain_cut (mem : rule ∈ patterns) (apart : shape.IsChain Apart) :
    (cut rule shape).IsChain Apart :=
  ((cut_spec mem shape).isChain (guarded mem) apart).1

end Cutting

section Exposure

variable {rule other : Category × Pattern} {prev : Option Char} {pattern : Pattern}
  {shape result front back before after taken : Shape}

/-- Where a match can be freed by what is replaced next to it: a fingerprint before a colon and
a hole, an IPv6 address that touches a hole, a DNS name behind a hole. -/
def Exposed : Category → Shape → Shape → Prop
  | .fingerprint, _, back => back.head? = some (some ':') ∧ back.tail.head? = some none
  | .ipv6, front, back => front.getLast? = some none ∨ back.head? = some none
  | .fqdn, front, _ => front.getLast? = some none
  | _, _, _ => False

theorem lastChar_none (front : Shape) : lastChar none front = front.getLast?.map char := by
  induction front using List.reverseRecOn with
  | nil => rfl
  | append_singleton front glyph ih => simp

theorem fingerprint_allows_iff : fingerprintRe.Allows back ↔
    (∀ glyph ∈ back.head?, isHex (char glyph) = false) ∧
      (back.head? = some (some ':') → ∀ glyph ∈ back.tail.head?, isHex (char glyph) = false) := by
  have isColon : ∀ glyph : Option Char, (char glyph == ':') = true ↔ glyph = some ':' := by
    rintro (_ | c)
    · decide
    · rw [beq_iff_eq, Option.some_inj]
      rfl
  rw [allows_iff]
  rcases back with _ | ⟨glyph, _ | ⟨glyph', back⟩⟩
  · simp [Lookaround.lengths, rounds, Lookaround.optional, fingerprintRe, Body.between, Body.lit,
    hex]
  · cases colon : char glyph == ':' <;> cases digit : isHex (char glyph) <;>
      simp [Lookaround.lengths, rounds, Lookaround.optional, fingerprintRe, Body.between, Body.lit,
        hex, colon, digit]
  · rw [List.head?_cons, List.tail_cons, List.head?_cons, Option.some_inj, ← isColon]
    cases colon : char glyph == ':' <;> cases digit : isHex (char glyph) <;>
      cases digit' : isHex (char glyph') <;>
      simp [Lookaround.lengths, rounds, Lookaround.optional, fingerprintRe, Body.between, Body.lit,
        hex, colon, digit, digit']

theorem fits_of_shadow (fits : Fits pattern (lastChar none front) taken back)
    (shadow : Shadow before front) (kept : front.getLast? ≠ some none)
    (allows : pattern.Allows after) : Fits pattern (lastChar none before) taken after := by
  refine ⟨?_, fits.spelled, allows⟩
  rw [lastChar_none, shadow.getLast? kept, ← lastChar_none]
  exact fits.before

theorem allows_of_shadow {set : Char → Bool} (single : pattern.notBefore = .one set)
    (shadow : Shadow after back) (kept : back.head? ≠ some none) (allows : pattern.Allows back) :
    pattern.Allows after := by
  rw [allows_one_iff single] at allows ⊢
  rwa [shadow.head? kept]

theorem fingerprint_allows_of_shadow (shadow : Shadow after back) (kept : back.head? ≠ some none)
    (covered : ¬ Exposed .fingerprint front back) (allows : fingerprintRe.Allows back) :
    fingerprintRe.Allows after := by
  rw [fingerprint_allows_iff] at allows ⊢
  cases shadow with
  | nil => exact allows
  | hole nonempty later => exact absurd rfl kept
  | keep later =>
      refine ⟨allows.1, fun isColon => ?_⟩
      rw [List.tail_cons, later.head? fun isHole => covered ⟨isColon, isHole⟩]
      exact allows.2 isColon

theorem isHex_char_of_apart {left right : Option Char} (apart : Apart left right) :
    (left = none → isHex (char right) = false) ∧ (right = none → isHex (char left) = false) := by
  constructor
  · intro isHole
    cases right with
    | none => decide
    | some c => exact apart.1 isHole c rfl
  · intro isHole
    cases left with
    | none => decide
    | some c => exact apart.2 isHole c rfl

/-- A match that ends in hexadecimal digits touches no hole. -/
theorem HexEnded.apart (ends : HexEnded pattern) (consumes : pattern.Consumes)
    (apart : (front ++ (taken ++ back)).IsChain Apart) (fits : Fits pattern prev taken back) :
    front.getLast? ≠ some none ∧ back.head? ≠ some none := by
  have nonempty := taken_ne_nil consumes fits
  have spelled := fits.spelled
  rw [List.isChain_append, List.isChain_append] at apart
  constructor
  · intro isHole
    rcases taken with _ | ⟨glyph, taken⟩
    · exact absurd rfl nonempty
    · have isHex := ends.first _ (Body.first_of_spells spelled)
      have separate := isHex_char_of_apart (apart.2.2 none isHole glyph rfl)
      exact absurd isHex (by rw [separate.1 rfl]; decide)
  · intro isHole
    rcases List.eq_nil_or_concat' taken with rfl | ⟨taken, glyph, rfl⟩
    · exact absurd rfl nonempty
    · rw [List.map_append] at spelled
      have isHex := ends.last _ (Body.last_of_spells spelled)
      have separate := isHex_char_of_apart (apart.2.1.2.2 glyph (by simp) none isHole)
      exact absurd isHex (by rw [separate.2 rfl]; decide)

/-- A match behind a pass is exposed, or it was there before the pass. -/
theorem exposed_or_fits (mem : rule ∈ patterns) (total : rule.1 ≠ .fqdn)
    (apart : (front ++ (taken ++ back)).IsChain Apart)
    (fits : Fits rule.2 (lastChar none front) taken back) (shadow : Shadow before front)
    (shadow' : Shadow after back) :
    Exposed rule.1 front back ∨ Fits rule.2 (lastChar none before) taken after := by
  by_cases covered : Exposed rule.1 front back
  · exact .inl covered
  · right
    have single {set : Char → Bool} (single : rule.2.notBefore = .one set)
        (kept : front.getLast? ≠ some none ∧ back.head? ≠ some none) :
        Fits rule.2 (lastChar none before) taken after :=
      fits_of_shadow fits shadow kept.1 (allows_of_shadow single shadow' kept.2 fits.allows)
    have consumes := (guarded mem).consumes
    simp only [patterns, List.mem_cons, List.not_mem_nil, or_false] at mem
    rcases mem with rfl | rfl | rfl | rfl | rfl | rfl | rfl | rfl
    · have kept := hexEnded_fingerprint.apart consumes apart fits
      exact fits_of_shadow fits shadow kept.1
        (fingerprint_allows_of_shadow shadow' kept.2 covered fits.allows)
    · exact single rfl (hexEnded_hexRun.apart consumes apart fits)
    · exact single rfl (hexEnded_mac.apart consumes apart fits)
    · exact single rfl (hexEnded_uuid.apart consumes apart fits)
    · exact single rfl (hexEnded_hexRun.apart consumes apart fits)
    · exact single rfl (hexEnded_ipv4.apart consumes apart fits)
    · exact single rfl (not_or.mp covered)
    · exact absurd rfl total

/-- What is exposed stays exposed. -/
theorem exposed_of_shadow (mem : rule ∈ patterns) (total : rule.1 ≠ .fqdn)
    (apart : (front ++ (taken ++ back)).IsChain Apart)
    (fits : Fits rule.2 prev taken back) (shadow : Shadow before front)
    (shadow' : Shadow after back)
    (exposed : Exposed rule.1 before after) : Exposed rule.1 front back := by
  have consumes := (guarded mem).consumes
  simp only [patterns, List.mem_cons, List.not_mem_nil, or_false] at mem
  rcases mem with rfl | rfl | rfl | rfl | rfl | rfl | rfl | rfl
  · have kept := (hexEnded_fingerprint.apart consumes apart fits).2
    cases shadow' with
    | nil => exact exposed
    | hole nonempty later => exact absurd rfl kept
    | keep later =>
        refine ⟨exposed.1, by_contra fun present => present ?_⟩
        rw [List.tail_cons, ← later.head? present]
        exact exposed.2
  · exact exposed
  · exact exposed
  · exact exposed
  · exact exposed
  · exact exposed
  · refine by_contra fun covered => ?_
    rw [Exposed, not_or] at covered
    rw [Exposed, shadow.getLast? covered.1, shadow'.head? covered.2] at exposed
    exact exposed.elim covered.1 covered.2
  · exact absurd rfl total

/-- Every match of the pattern is exposed. -/
def OnlyExposed (rule : Category × Pattern) (shape : Shape) : Prop :=
  ∀ front taken back, shape = front ++ (taken ++ back) →
    Fits rule.2 (lastChar none front) taken back → Exposed rule.1 front back

/-- Where a match behind a pass comes from. -/
theorem exists_fits_of_cut (mem : rule ∈ patterns) (mem' : other ∈ patterns)
    (total : rule.1 ≠ .fqdn)
    (apart : shape.IsChain Apart) (split : cut other shape = front ++ (taken ++ back))
    (fits : Fits rule.2 (lastChar none front) taken back) (covered : ¬ Exposed rule.1 front back) :
    ∃ before after, shape = before ++ (taken ++ after) ∧
      Fits rule.2 (lastChar none before) taken after ∧ ¬ Exposed rule.1 before after ∧
      ∀ n, matchLength other.2 (lastChar none before) (taken ++ after) = some n →
        accepts other.1 (((taken ++ after).take n).map char) = false := by
  have apart' := isChain_cut mem' apart
  rw [split] at apart'
  have present := Fits.present (guarded mem) fits
  have nonempty := taken_ne_nil (guarded mem).consumes fits
  rcases taken with _ | ⟨glyph, taken⟩
  · exact absurd rfl nonempty
  · rw [List.forall_mem_cons] at present
    rcases glyph with _ | c
    · exact absurd rfl present.1
    · rcases (cut_spec mem' shape).split split with ⟨before, after, rfl, shadow, later, refused⟩
      rcases later.shadow.of_kept present.2 with ⟨after, rfl, shadow'⟩
      refine ⟨before, after, rfl, ?_, fun exposed => covered ?_, refused⟩
      · exact (exposed_or_fits mem total apart' fits shadow shadow').resolve_left covered
      · exact exposed_of_shadow mem total apart' fits shadow shadow' exposed

theorem onlyExposed_cut_self (mem : rule ∈ patterns) (total : rule.1 ≠ .fqdn)
    (apart : shape.IsChain Apart) : OnlyExposed rule (cut rule shape) := by
  intro front taken back split fits
  refine by_contra fun covered => ?_
  rcases exists_fits_of_cut mem mem total apart split fits covered with
    ⟨before, after, rfl, fits, -, refused⟩
  cases found : matchLength rule.2 (lastChar none before) (taken ++ after) with
  | none => exact matchLength_eq_none_iff.mp found taken after rfl fits
  | some n =>
      have rejected := refused n found
      rw [accepts, bne_iff_ne.mpr total] at rejected
      cases rejected

theorem OnlyExposed.cut (mem : rule ∈ patterns) (mem' : other ∈ patterns) (total : rule.1 ≠ .fqdn)
    (apart : shape.IsChain Apart) (only : OnlyExposed rule shape) :
    OnlyExposed rule (Evidence.cut other shape) := by
  intro front taken back split fits
  refine by_contra fun covered => ?_
  rcases exists_fits_of_cut mem mem' total apart split fits covered with
    ⟨before, after, rfl, fits, covered', -⟩
  exact covered' (only before taken after rfl fits)

end Exposure

end Asmb8Ikvm.Evidence
