import Asmb8Ikvm.Evidence.Pseudonyms

/-!
# What is left of a text

The text behind `redact_text` is what the passes leave of the value, with a token
in every hole. So no pattern but those of fingerprints, IPv6 addresses and DNS
names matches in it, and these only next to a token.
-/

namespace Asmb8Ikvm.Evidence

open Regex Lookaround

section Filling

variable {redactor : Redactor} {tokens tokens' : List ((Category × List Char) × List Char)}
  {shape front back : Shape} {text taken rest : List Char} {prev prev' : Option Char}

/-- The holes are filled with tokens. -/
inductive Filled (tokens : List ((Category × List Char) × List Char)) :
    Shape → List Char → Prop where
  | nil : Filled tokens [] []
  | keep {c : Char} {shape : Shape} {text : List Char} (later : Filled tokens shape text) :
      Filled tokens (some c :: shape) (c :: text)
  | token {entry : (Category × List Char) × List Char} {shape : Shape} {text : List Char}
      (mem : entry ∈ tokens) (later : Filled tokens shape text) :
      Filled tokens (none :: shape) (entry.2 ++ text)

theorem filled_map_some (value : List Char) : Filled tokens (value.map some) value := by
  induction value with
  | nil => exact .nil
  | cons c value ih => exact .keep ih

theorem Filled.mono (filled : Filled tokens shape text) (grows : tokens <+: tokens') :
    Filled tokens' shape text := by
  induction filled with
  | nil => exact .nil
  | keep later ih => exact .keep ih
  | token mem later ih => exact .token (grows.subset mem) ih

theorem Filled.append (filled : Filled tokens front taken) (filled' : Filled tokens back rest) :
    Filled tokens (front ++ back) (taken ++ rest) := by
  induction filled with
  | nil => exact filled'
  | keep later ih => exact .keep ih
  | token mem later ih =>
      rw [List.append_assoc]
      exact .token mem ih

theorem Filled.split (filled : Filled tokens (front ++ back) text) :
    ∃ before after, text = before ++ after ∧ Filled tokens front before ∧
      Filled tokens back after := by
  induction front generalizing text with
  | nil => exact ⟨[], text, rfl, .nil, filled⟩
  | cons glyph front ih =>
      cases filled with
      | keep later =>
          rcases ih later with ⟨before, after, rfl, before', after'⟩
          exact ⟨_, after, rfl, .keep before', after'⟩
      | token mem later =>
          rcases ih later with ⟨before, after, rfl, before', after'⟩
          exact ⟨_, after, (List.append_assoc _ _ _).symm, .token mem before', after'⟩

theorem Redactor.Sound.exists_word (sound : redactor.Sound)
    {entry : (Category × List Char) × List Char} (mem : entry ∈ redactor.tokens) :
    ∃ word, entry.2 = '<' :: (word ++ ['>']) := by
  rcases sound.numbered entry mem with ⟨n, -, text⟩
  exact ⟨_, text.trans (tokenText_eq _ n)⟩

/-- A hole reads as the start of a token does. -/
theorem Filled.reading (sound : redactor.Sound) (filled : Filled redactor.tokens shape text) :
    reading isPlain shape = reading isPlain text := by
  induction filled with
  | nil => rfl
  | @keep c shape text later ih =>
      rw [reading_cons, reading_cons, ih]
      rfl
  | token mem later ih =>
      rcases sound.exists_word mem with ⟨word, text⟩
      rw [text, List.cons_append, reading_cons, reading_cons]
      rfl

/-- The lookbehind of a pattern takes the end of a token for a hole. -/
theorem Filled.any_lastChar {pattern : Pattern} (guarded : Guarded pattern)
    (sound : redactor.Sound) (filled : Filled redactor.tokens shape text)
    (before : prev.any pattern.notAfter = prev'.any pattern.notAfter) :
    (lastChar prev shape).any pattern.notAfter = (lastChar prev' text).any pattern.notAfter := by
  induction filled generalizing prev prev' with
  | nil => exact before
  | keep later ih => exact ih rfl
  | token mem later ih =>
      rcases sound.exists_word mem with ⟨word, text⟩
      rw [text, lastChar_append, lastChar_cons]
      refine ih ?_
      simp only [lastChar_cons, lastChar_append, lastChar_nil, Option.any_some]
      exact guarded.open_.trans guarded.close.symm

/-- The part of a text before its first token is in the shape. -/
theorem Filled.of_plain (sound : redactor.Sound) (plain : ∀ c ∈ taken, isPlain c = true)
    (filled : Filled redactor.tokens shape (taken ++ rest)) :
    ∃ after, shape = taken.map some ++ after ∧ Filled redactor.tokens after rest := by
  induction taken generalizing shape with
  | nil => exact ⟨shape, rfl, filled⟩
  | cons c taken ih =>
      rw [List.forall_mem_cons] at plain
      rw [List.cons_append] at filled
      generalize whole : c :: (taken ++ rest) = text at filled
      cases filled with
      | nil => cases whole
      | keep later =>
          cases whole
          rcases ih plain.2 later with ⟨after, rfl, filled⟩
          exact ⟨after, rfl, filled⟩
      | token mem later =>
          rcases sound.exists_word mem with ⟨word, text⟩
          rw [text, List.cons_append, List.cons.injEq] at whole
          rw [whole.1] at plain
          exact absurd plain.1 (by decide)

/-- A place in a text is a place in the shape or inside a token. -/
theorem Filled.place {before after : List Char} (filled : Filled tokens shape (before ++ after)) :
    (∃ front back, shape = front ++ back ∧ Filled tokens front before ∧ Filled tokens back after) ∨
      ∃ entry ∈ tokens, ∃ suffix right, suffix ≠ [] ∧ suffix <:+ entry.2 ∧
        after = suffix ++ right := by
  generalize whole : before ++ after = text at filled
  induction filled generalizing before with
  | nil =>
      rcases List.append_eq_nil_iff.mp whole with ⟨rfl, rfl⟩
      exact .inl ⟨[], [], rfl, .nil, .nil⟩
  | @keep c shape text later ih =>
      rcases before with _ | ⟨d, before⟩
      · subst whole
        exact .inl ⟨[], _, rfl, .nil, .keep later⟩
      · rw [List.cons_append, List.cons.injEq] at whole
        rcases whole with ⟨rfl, whole⟩
        rcases ih whole with ⟨front, back, rfl, filled, filled'⟩ | inside
        · exact .inl ⟨_, back, rfl, .keep filled, filled'⟩
        · exact .inr inside
  | @token entry shape text mem later ih =>
      rcases List.append_eq_append_iff.mp whole with ⟨left, token, rest⟩ | ⟨before', rfl, rest⟩
      · rcases left with _ | ⟨c, left⟩
        · rcases @ih [] rest with ⟨front, back, rfl, filled, filled'⟩ | inside
          · refine .inl ⟨none :: front, back, rfl, ?_, filled'⟩
            rw [List.append_nil] at token
            rw [← token, ← List.append_nil entry.2]
            exact .token mem filled
          · exact .inr inside
        · exact .inr ⟨entry, mem, c :: left, text, by simp, ⟨before, token.symm⟩, rest⟩
      · rcases ih rest.symm with ⟨front, back, rfl, filled, filled'⟩ | inside
        · exact .inl ⟨_, back, rfl, .token mem filled, filled'⟩
        · exact .inr inside

end Filling

section Passing

variable {table : PyText.CharTable} {rule : Category × Pattern} {redactor : Redactor}
    {shape : Shape}
  {text value : List Char}

/-- How many characters are still those of the value. -/
def kept (shape : Shape) : ℕ := shape.countP Option.isSome

/-- What a pass does to a text, to what is kept of the value and to the state of a run. -/
structure Passed (redactor : Redactor) (before : Shape) (result : List Char × Redactor)
    (after : Shape) : Prop where
  sound : result.2.Sound
  grows : redactor.tokens <+: result.2.tokens
  counts :
      ∀ category, result.2.counts category + kept after ≤ redactor.counts category + kept before
  filled : Filled result.2.tokens after result.1

theorem Passed.trans {before middle after : Shape} {result result' : List Char × Redactor}
    (first : Passed redactor before result middle) (second : Passed result.2 middle result' after) :
    Passed redactor before result' after where
  sound := second.sound
  grows := first.grows.trans second.grows
  counts category := (second.counts category).trans (first.counts category)
  filled := second.filled

theorem isToken_of_plain (table : PyText.CharTable) {c : Char} (plain : isPlain c = true)
    (rest : List Char) :
    isToken table (c :: rest) = false := by
  have other : (c == '<') = false := by
    simp only [isPlain, Bool.and_eq_true, bne_iff_ne] at plain
    exact beq_eq_false_iff_ne.mpr plain.1
  simp [isToken, tokenRe, Body.chain, Body.lit, Lookaround.lengths, other]

/-- A match is kept, or a token is issued for it. -/
theorem replace_eq (plain : ∀ c ∈ value, isPlain c = true) (nonempty : value ≠ []) :
    replace table rule.1 value redactor =
      if accepts rule.1 value = true then tokenFor rule.1 value redactor
      else (value, redactor) := by
  rcases value with _ | ⟨c, rest⟩
  · exact absurd rfl nonempty
  · have notToken := isToken_of_plain table (plain c (by simp)) rest
    rw [replace, notToken, if_neg (by decide)]
    by_cases isName : rule.1 = .fqdn <;> cases accepted : isDnsName (c :: rest) <;>
      simp [accepts, isName, accepted]

theorem lastChar_map_some (prev prev' : Option Char) {taken : List Char} (nonempty : taken ≠ []) :
    lastChar prev (taken.map some : Shape) = lastChar prev' taken := by
  rcases taken with _ | ⟨c, taken⟩
  · exact absurd rfl nonempty
  · rw [lastChar, lastChar, List.foldl_map]
    rfl

theorem kept_cons (c : Char) (shape : Shape) : kept (some c :: shape) = kept shape + 1 :=
  List.countP_cons_of_pos rfl

theorem kept_hole (shape : Shape) : kept (none :: shape) = kept shape :=
  List.countP_cons_of_neg (by decide)

theorem kept_map_some_append (taken : List Char) (shape : Shape) :
    kept (taken.map some ++ shape) = taken.length + kept shape := by
  rw [kept, List.countP_append, List.countP_map]
  congr 1
  rw [List.countP_eq_length]
  exact fun _ _ => rfl

theorem kept_map_some (value : List Char) : kept (value.map some) = value.length := by
  rw [← List.append_nil (value.map some), kept_map_some_append]
  rfl

/-- A text as a pass finds it: the holes have tokens, and no counter can reach its limit. -/
structure Ready (redactor : Redactor) (shape : Shape) (text : List Char) : Prop where
  sound : redactor.Sound
  room : ∀ category, redactor.counts category + kept shape < counterLimit
  filled : Filled redactor.tokens shape text

/-- The pass goes on in the text as it does in the shape. -/
def Follows (table : PyText.CharTable) (rule : Category × Pattern) (prev : Option Char)
    (shape : Shape) : Prop :=
  ∀ prev' text redactor, prev.any rule.2.notAfter = prev'.any rule.2.notAfter →
    Ready redactor shape text →
    Passed redactor shape (subFrom rule.2 (replace table rule.1) prev' 0 text redactor)
      (subFrom rule.2 (hole rule.1) prev 0 shape ()).1

theorem follows_copy (mem : rule ∈ patterns) {prev glyph : Option Char} {rest : Shape}
    (none : matchLength rule.2 prev (glyph :: rest) = none)
    (later : Follows table rule (some (char glyph)) rest) :
    Follows table rule prev (glyph :: rest) := by
  have isGuarded := guarded mem
  intro prev' text redactor before ready
  rcases ready with ⟨sound, room, filled⟩
  rw [subFrom_copy none]
  have reads := filled.reading sound
  cases filled with
  | @keep c _ text filled =>
      rw [matchLength_congr isGuarded.reads before reads] at none
      rw [subFrom_copy none]
      have room' (category : Category) : redactor.counts category + kept rest < counterLimit := by
        have := room category
        rw [kept_cons] at this
        omega
      have passed := later (some c) text redactor rfl ⟨sound, room', filled⟩
      refine ⟨passed.sound, passed.grows, fun category => ?_, .keep passed.filled⟩
      have spent := passed.counts category
      rw [kept_cons, kept_cons]
      exact Nat.succ_le_succ spent
  | @token entry _ text isToken filled =>
      rcases sound.numbered entry isToken with ⟨n, counted, tokenIs⟩
      rcases sound.exists_word isToken with ⟨word, wordIs⟩
      have few : n < counterLimit := by
        have := room entry.1.1
        omega
      have silent (prev : Option Char) (suffix : List Char) (nonempty : suffix ≠ [])
          (isSuffix : suffix <:+ entry.2) : matchLength rule.2 prev (suffix ++ text) = .none :=
        matchLength_token mem few prev text nonempty (tokenIs ▸ isSuffix)
      have before' : (some (char (.none : Option Char))).any rule.2.notAfter =
          (lastChar prev' entry.2).any rule.2.notAfter := by
        rw [wordIs]
        simp only [lastChar_cons, lastChar_append, lastChar_nil, Option.any_some]
        exact isGuarded.open_.trans isGuarded.close.symm
      rw [subFrom_append_of_silent prev' entry.2 text silent]
      have passed := later _ text redactor before' ⟨sound, room, filled⟩
      exact ⟨passed.sound, passed.grows, passed.counts,
        .token (passed.grows.subset isToken) passed.filled⟩

theorem follows_found (mem : rule ∈ patterns) {prev : Option Char} {taken rest : Shape}
    (nonempty : taken ≠ [])
    (found : matchLength rule.2 prev (taken ++ rest) = some taken.length)
    (fits : Fits rule.2 prev taken rest) (later : Follows table rule (lastChar prev taken) rest) :
    Follows table rule prev (taken ++ rest) := by
  have isGuarded := guarded mem
  intro prev' text redactor before ready
  rcases ready with ⟨sound, room, filled⟩
  rw [subFrom_found nonempty found]
  have reads := filled.reading sound
  rcases filled.split with ⟨value, text, rfl, filledTaken, filledRest⟩
  obtain rfl : taken = value.map some := by
    have present := Fits.present isGuarded fits
    clear * - filledTaken present
    induction filledTaken with
    | nil => rfl
    | keep later ih => rw [List.map_cons, ih fun glyph mem => present glyph (by simp [mem])]
    | token mem later ih => exact absurd rfl (present none (by simp))
  have plain := isGuarded.reads.body.mem fits.spelled
  rw [List.map_map, show (char ∘ some : Char → Char) = id from rfl, List.map_id] at plain
  rw [List.length_map, matchLength_congr isGuarded.reads before reads] at found
  have nonempty' : value ≠ [] := fun empty => nonempty (by rw [empty]; rfl)
  rw [subFrom_found nonempty' found, replace_eq plain nonempty']
  have before' : (lastChar prev (value.map some : Shape)).any rule.2.notAfter =
      (lastChar prev' value).any rule.2.notAfter := by
    rw [lastChar_map_some prev prev' nonempty']
  have readable : (value.map some : Shape).map char = value := by
    rw [List.map_map, show (char ∘ some : Char → Char) = id from rfl, List.map_id]
  rw [hole, readable]
  split_ifs with accepted
  · have issues := Redactor.issues_tokenFor sound rule.1 value
    have room' (category : Category) :
        (tokenFor rule.1 value redactor).2.counts category + kept rest < counterLimit := by
      have := room category
      have := issues.counts category
      have := List.length_pos_iff.mpr nonempty'
      rw [kept_map_some_append] at *
      omega
    have passed := later _ text _ before' ⟨issues.sound, room', filledRest.mono issues.grows⟩
    refine ⟨passed.sound, issues.grows.trans passed.grows, fun category => ?_, ?_⟩
    · have := passed.counts category
      have := issues.counts category
      have := List.length_pos_iff.mpr nonempty'
      rw [List.singleton_append, kept_hole, kept_map_some_append]
      dsimp only
      omega
    · exact .token (passed.grows.subset issues.mem) passed.filled
  · have room' (category : Category) : redactor.counts category + kept rest < counterLimit := by
      have := room category
      rw [kept_map_some_append] at this
      omega
    have passed := later _ text redactor before' ⟨sound, room', filledRest⟩
    refine ⟨passed.sound, passed.grows, fun category => ?_,
      (filled_map_some value).append passed.filled⟩
    have := passed.counts category
    rw [kept_map_some_append, kept_map_some_append]
    dsimp only
    omega

theorem passed_pass (table : PyText.CharTable) (mem : rule ∈ patterns)
    (ready : Ready redactor shape text) :
    Passed redactor shape (pass table rule text redactor) (cut rule shape) :=
  scan_induction (motive := Follows table rule) (guarded mem).consumes
    (fun _ _ _ _ _ ready => by
      cases ready.filled
      exact ⟨ready.sound, List.prefix_rfl, fun _ => le_rfl, .nil⟩)
    (fun _ _ _ => follows_copy mem) (fun _ _ _ => follows_found mem) none shape none text redactor
    rfl
    ready

/-- The text behind the passes is what they leave of the value, with tokens in the holes. -/
theorem passed_redactText (table : PyText.CharTable) (sound : redactor.Sound)
    (room : ∀ category, redactor.counts category + value.length < counterLimit) :
    Passed redactor (value.map some) (redactText table value redactor) (pieces value) := by
  suffices run : ∀ rules ⊆ patterns, ∀ shape text redactor, Ready redactor shape text →
      Passed redactor shape (rules.foldl (fun s rule => pass table rule s.1 s.2) (text, redactor))
        (rules.foldl (fun shape rule => cut rule shape) shape) by
    refine run patterns (fun _ mem => mem) _ value redactor ⟨sound, ?_, filled_map_some value⟩
    rwa [kept_map_some]
  intro rules
  induction rules with
  | nil =>
      intro _ shape text redactor ready
      exact ⟨ready.sound, List.prefix_rfl, fun _ => le_rfl, ready.filled⟩
  | cons rule rules ih =>
      intro inside shape text redactor ready
      rw [List.cons_subset] at inside
      have passed := passed_pass table inside.1 ready
      refine passed.trans (ih inside.2 _ _ _ ⟨passed.sound, fun category => ?_, passed.filled⟩)
      exact (passed.counts category).trans_lt (ready.room category)

end Passing

section Pieces

variable {rule : Category × Pattern} {prev : Option Char} {shape result : Shape} {value : List Char}

theorem isChain_map_some (value : List Char) : (value.map some).IsChain Apart := by
  induction value with
  | nil => exact .nil
  | cons c value ih =>
      refine List.isChain_cons.mpr ⟨?_, ih⟩
      rintro glyph mem
      rcases value with _ | ⟨d, value⟩
      · cases mem
      · cases mem
        exact ⟨fun impossible => (by cases impossible), fun impossible => (by cases impossible)⟩

/-- A later pass brings no match back that is not exposed. -/
theorem onlyExposed_foldl (rules : List (Category × Pattern)) (inside : rules ⊆ patterns)
    (mem : rule ∈ patterns) (total : rule.1 ≠ .fqdn) (shape : Shape) (apart : shape.IsChain Apart)
    (reached : rule ∈ rules ∨ OnlyExposed rule shape) :
    OnlyExposed rule (rules.foldl (fun shape rule => cut rule shape) shape) := by
  induction rules generalizing shape with
  | nil => exact reached.resolve_left List.not_mem_nil
  | cons other rules ih =>
      rw [List.cons_subset] at inside
      refine ih inside.2 _ (isChain_cut inside.1 apart) ?_
      rcases reached with reached | only
      · rcases List.mem_cons.mp reached with rfl | reached
        · exact .inr (onlyExposed_cut_self mem total apart)
        · exact .inl reached
      · exact .inr (only.cut mem inside.1 total apart)

theorem onlyExposed_pieces (mem : rule ∈ patterns) (total : rule.1 ≠ .fqdn) (value : List Char) :
    OnlyExposed rule (pieces value) :=
  onlyExposed_foldl patterns (fun _ mem => mem) mem total _ (isChain_map_some value) (.inl mem)

/-- Behind a character of a name nothing is replaced before the name ends. -/
theorem Cut.reading (goes : Cut (.fqdn, fqdnRe) prev shape result)
    (named : prev.any isNameChar = true) :
    reading isNameChar shape = reading isNameChar result := by
  generalize same : ((Category.fqdn, fqdnRe) : Category × Pattern) = rule at goes
  induction goes with
  | nil => rfl
  | @copy prev glyph rest result refused later ih =>
      rw [reading_cons, reading_cons]
      split_ifs with isName
      · rw [ih (by simpa using isName)]
      · rfl
  | @replace prev taken rest result nonempty found accepted later ih =>
      cases same
      rcases prev with _ | c
      · cases named
      · have before := (matchLength_eq_some found).2.before
        simp only [Option.any_some, isNameChar, Bool.or_eq_true] at named
        simp only [fqdnRe, Option.any_some, Bool.or_eq_false_iff] at before
        rw [before.1.1, before.1.2] at named
        simp at named

/-- Behind the last pass, a DNS name is found only behind a hole. -/
theorem exposed_of_name {front taken back : Shape}
    (split : pieces value = front ++ (taken ++ back))
    (found : matchLength fqdnRe (lastChar none front) (taken ++ back) = some taken.length)
    (isName : isDnsName (taken.map char) = true) : Exposed .fqdn front back := by
  refine by_contra fun kept => ?_
  have mem : ((Category.fqdn, fqdnRe) : Category × Pattern) ∈ patterns := by simp [patterns]
  rcases matchLength_eq_some found with ⟨-, fits⟩
  rw [List.take_left, List.drop_left] at fits
  have present := Fits.present (guarded mem) fits
  have names := reads_fqdn.body.mem fits.spelled
  rcases taken with _ | ⟨glyph, taken⟩
  · exact taken_ne_nil (guarded mem).consumes fits rfl
  · rcases glyph with _ | c
    · exact absurd rfl (present none (by simp))
    · have last : pieces value = cut (.fqdn, fqdnRe)
          (patterns.dropLast.foldl (fun shape rule => cut rule shape) (value.map some)) := rfl
      rw [last, List.cons_append] at split
      rcases (cut_spec mem _).split split with ⟨before, after, -, shadow, later, refused⟩
      have named : isNameChar c = true := names (char (some c)) (by simp)
      have same : reading isNameChar (some c :: after : Shape) =
          reading isNameChar (some c :: taken ++ back : Shape) := by
        rw [List.cons_append, reading_cons, reading_cons, later.reading (by simpa using named)]
      have before' : lastChar none before = lastChar none front := by
        rw [lastChar_none, lastChar_none, shadow.getLast? kept]
      have short := le_length_reading (matchLength_eq_some found).1
        (by rw [List.take_left]; exact names)
      have found' := refused (some c :: taken : Shape).length
        ((matchLength_congr reads_fqdn (by rw [before']) same).trans found)
      rw [take_map_char (by rwa [same]), same, ← take_map_char short, List.take_left] at found'
      rw [accepts, isName] at found'
      cases found'

end Pieces

section Remaining

variable {rule : Category × Pattern} {redactor : Redactor} {shape : Shape} {text value : List Char}
  {tokens tokens' : List ((Category × List Char) × List Char)} {front taken back : List Char}

/-- The match touches a token: a fingerprint before a colon and a token, an IPv6 address on
either side of one, a DNS name behind one. -/
def Touches (tokens : List ((Category × List Char) × List Char)) :
    Category → List Char → List Char → Prop
  | .fingerprint, _, back => ∃ entry ∈ tokens, ∃ rest, back = ':' :: (entry.2 ++ rest)
  | .ipv6, front, back => (∃ entry ∈ tokens, entry.2 <:+ front) ∨ ∃ entry ∈ tokens, entry.2 <+: back
  | .fqdn, front, _ => ∃ entry ∈ tokens, entry.2 <:+ front
  | _, _, _ => False

/-- What the patterns match in the text touches a token. Of the matches of DNS names these are
those that are found and that are replaced. -/
structure Clean (tokens : List ((Category × List Char) × List Char)) (text : List Char) : Prop where
  fits : ∀ rule ∈ patterns, rule.1 ≠ .fqdn → ∀ front taken back, text = front ++ (taken ++ back) →
    Fits rule.2 (lastChar none front) taken back → Touches tokens rule.1 front back
  names : ∀ front taken back, text = front ++ (taken ++ back) →
    matchLength fqdnRe (lastChar none front) (taken ++ back) = some taken.length →
    isDnsName taken = true → Touches tokens .fqdn front back

theorem Touches.mono {category : Category} (touches : Touches tokens category front back)
    (grows : tokens <+: tokens') : Touches tokens' category front back := by
  cases category with
  | fingerprint =>
      rcases touches with ⟨entry, mem, rest, split⟩
      exact ⟨entry, grows.subset mem, rest, split⟩
  | ipv6 =>
      rcases touches with ⟨entry, mem, touches⟩ | ⟨entry, mem, touches⟩
      · exact .inl ⟨entry, grows.subset mem, touches⟩
      · exact .inr ⟨entry, grows.subset mem, touches⟩
  | fqdn =>
      rcases touches with ⟨entry, mem, touches⟩
      exact ⟨entry, grows.subset mem, touches⟩
  | _ => exact touches

theorem Clean.mono (clean : Clean tokens text) (grows : tokens <+: tokens') :
    Clean tokens' text where
  fits rule mem total front taken back split fits :=
    (clean.fits rule mem total front taken back split fits).mono grows
  names front taken back split found isName :=
    (clean.names front taken back split found isName).mono grows

/-- A match in the text is one in the shape. -/
theorem Ready.place (mem : rule ∈ patterns)
    (ready : Ready redactor shape (front ++ (taken ++ back)))
    (fits : Fits rule.2 (lastChar none front) taken back) :
    ∃ before after, shape = before ++ (taken.map some ++ after) ∧
      Filled redactor.tokens before front ∧ Filled redactor.tokens after back := by
  rcases ready.filled.place with ⟨before, rest, rfl, filled, filled'⟩ |
    ⟨entry, isToken, suffix, right, nonempty, isSuffix, rest⟩
  · have plain := (guarded mem).reads.body.mem fits.spelled
    rw [map_char] at plain
    rcases filled'.of_plain ready.sound plain with ⟨after, rfl, filledAfter⟩
    exact ⟨before, after, rfl, filled, filledAfter⟩
  · rcases ready.sound.numbered entry isToken with ⟨n, counted, tokenIs⟩
    have few : n < counterLimit := by
      have := ready.room entry.1.1
      omega
    have none := matchLength_token mem few (lastChar none front) right nonempty (tokenIs ▸ isSuffix)
    rw [matchLength_eq_none_iff] at none
    exact absurd fits (none taken back rest.symm)

theorem Filled.getLast? {before : Shape} (filled : Filled tokens before front)
    (isHole : before.getLast? = some none) : ∃ entry ∈ tokens, entry.2 <:+ front := by
  rcases List.getLast?_eq_some_iff.mp isHole with ⟨before, rfl⟩
  rcases filled.split with ⟨front, token, rfl, -, filled⟩
  cases filled with
  | token mem later =>
      cases later
      rw [List.append_nil]
      exact ⟨_, mem, List.suffix_append _ _⟩

theorem Filled.head? {after : Shape} (filled : Filled tokens after back)
    (isHole : after.head? = some none) : ∃ entry ∈ tokens, entry.2 <+: back := by
  rcases List.head?_eq_some_iff.mp isHole with ⟨after, rfl⟩
  cases filled with
  | token mem later => exact ⟨_, mem, List.prefix_append _ _⟩

theorem touches_of_exposed {category : Category} {before after : Shape}
    (filled : Filled tokens before front) (filled' : Filled tokens after back)
    (exposed : Exposed category before after) : Touches tokens category front back := by
  cases category with
  | fingerprint =>
      rcases List.head?_eq_some_iff.mp exposed.1 with ⟨rest, rfl⟩
      cases filled' with
      | keep later =>
          rcases later.head? exposed.2 with ⟨entry, mem, tail, rfl⟩
          exact ⟨entry, mem, tail, rfl⟩
  | ipv6 => exact exposed.imp filled.getLast? filled'.head?
  | fqdn => exact filled.getLast? exposed
  | _ => exact exposed

/-- What is left of a value is clean. -/
theorem Ready.clean (ready : Ready redactor (pieces value) text) : Clean redactor.tokens text where
  fits rule mem total front taken back split fits := by
    subst split
    rcases ready.place mem fits with ⟨before, after, isPieces, filled, filled'⟩
    have isGuarded := guarded mem
    refine touches_of_exposed filled filled'
      (onlyExposed_pieces mem total value before _ after isPieces ⟨?_, ?_, ?_⟩)
    · rw [filled.any_lastChar isGuarded ready.sound rfl]
      exact fits.before
    · rw [List.map_map, show (char ∘ some : Char → Char) = id from rfl, List.map_id,
      ← map_char taken]
      exact fits.spelled
    · have allows := fits.allows
      rw [allows_iff] at allows ⊢
      rwa [(alike_lengths isGuarded.reads.notBefore).same (filled'.reading ready.sound)]
  names front taken back split found isName := by
    subst split
    have mem : ((Category.fqdn, fqdnRe) : Category × Pattern) ∈ patterns := by simp [patterns]
    have fits := (matchLength_eq_some found).2
    rw [List.take_left, List.drop_left] at fits
    rcases ready.place mem fits with ⟨before, after, isPieces, filled, filled'⟩
    have same := ((filled_map_some taken).append filled').reading ready.sound
    have before' := @Filled.any_lastChar _ _ _ none none _ (guarded mem) ready.sound filled rfl
    refine touches_of_exposed filled filled' (exposed_of_name isPieces ?_ ?_)
    · rw [matchLength_congr (guarded mem).reads before' same, List.length_map]
      exact found
    · rwa [List.map_map, show (char ∘ some : Char → Char) = id from rfl, List.map_id]

end Remaining

end Asmb8Ikvm.Evidence
