import Asmb8Ikvm.Lib.OrderedDict
import Asmb8Ikvm.Redact.Secrets

/-!
# The arguments of a JNLP document

`parse_jnlp_arguments` and `_unescape_entities` of `asp.py`. The contents of the
`<argument>` elements are read one after the other; a content that starts with a
hyphen is a flag, and the one after it is taken for its value, whatever it is.
So a flag that follows a flag is taken for a value and loses its own.

The lower case of a flag is a parameter, `str.lower`.

The entities are decoded in five replacements, `&amp;` first. What the first one
yields can be read by the others as an entity once more.
-/

namespace Asmb8Ikvm.Asp

open PyText Regex

def sameChar (a b : Char) : Bool :=
  a == b

/-- `_ARGUMENT_RE`. -/
def argumentRe : Expr :=
  .chain (.word "<argument>".toList sameChar) [
    .many isSpace,
    .group 1 (.run (fun _ => true) 0 none false),
    .many isSpace,
    .word "</argument>".toList sameChar]

def unescapeEntities (text : List Char) : List Char :=
  let text := replaceFrom "&amp;".toList ['&'] 0 text
  let text := replaceFrom "&lt;".toList ['<'] 0 text
  let text := replaceFrom "&gt;".toList ['>'] 0 text
  let text := replaceFrom "&quot;".toList ['"'] 0 text
  replaceFrom "&apos;".toList ['\''] 0 text

/-- The contents of the elements: `values`. -/
def argumentContents (document : List Char) : List (List Char) :=
  (findIter argumentRe document).map fun groups => unescapeEntities (groups 1)

/-- `name.startswith("-")`. -/
def isFlag (content : List Char) : Bool :=
  content.head? == some '-'

section Arguments

variable (lower : List Char → List Char)

/-- `name[1:].lower()`. -/
def flagName (content : List Char) : List Char :=
  lower (content.drop 1)

/-- The loop of `parse_jnlp_arguments`. -/
def pairArguments (arguments : OrderedDict (List Char) (List Char)) :
    List (List Char) → OrderedDict (List Char) (List Char)
  | name :: value :: values =>
      if isFlag name then pairArguments (arguments.set (flagName lower name) value) values
      else pairArguments arguments (value :: values)
  | _ => arguments

def parseJnlpArguments (document : List Char) : OrderedDict (List Char) (List Char) :=
  pairArguments lower .empty (argumentContents document)

/-- The flags that are followed by something other than a flag, with what follows them. -/
def properPairs (values : List (List Char)) : List (List Char × List Char) :=
  ((values.zip values.tail).filter fun pair => isFlag pair.1 && !isFlag pair.2).map fun pair =>
    (flagName lower pair.1, pair.2)

/-- The flags at an even place in their run of flags that are followed by something, with what
follows them; `even` says whether the first place of the list is an even one. -/
def evenPairs : Bool → List (List Char) → List (List Char × List Char)
  | even, name :: value :: values =>
      if isFlag name then
        (if even then [(flagName lower name, value)] else []) ++ evenPairs (!even) (value :: values)
      else evenPairs true (value :: values)
  | _, _ => []

end Arguments

/-- The value of the last pair with this name. -/
def lastValue (name : List Char) (pairs : List (List Char × List Char)) : Option (List Char) :=
  (pairs.reverse.find? fun pair => pair.1 = name).map Prod.snd

/-- How many flags stand directly before this position. -/
def place (values : List (List Char)) (i : ℕ) : ℕ :=
  ((values.take i).reverse.takeWhile isFlag).length

section Positions

variable (lower : List Char → List Char) (values : List (List Char))

/-- At this position stands a flag with this name, and behind it this content. -/
def FlagAt (i : ℕ) (name next : List Char) : Prop :=
  ∃ flag, values[i]? = some flag ∧ isFlag flag = true ∧ flagName lower flag = name ∧
    values[i + 1]? = some next

/-- The flag is directly followed by a flag and has an even number of flags directly before it. -/
def Astray (i : ℕ) (name : List Char) : Prop :=
  Even (place values i) ∧ ∃ next, FlagAt lower values i name next ∧ isFlag next = true

/-- The flag is followed by something other than a flag. -/
def Followed (i : ℕ) (name value : List Char) : Prop :=
  FlagAt lower values i name value ∧ isFlag value = false

def Kept (i : ℕ) (name value : List Char) : Prop :=
  Even (place values i) ∧ Followed lower values i name value

def Missed (i : ℕ) (name value : List Char) : Prop :=
  ¬ Even (place values i) ∧ Followed lower values i name value

/-- The runs of flags do no harm. What a flag that goes astray writes is written over by a later
flag of its name that is kept. A flag that is missed and is the last of its name to be followed
by a value has the value of the last flag of its name that was kept. -/
structure Harmless : Prop where
  astray :
      ∀ {i name}, Astray lower values i name → ∃ j value, i < j ∧ Kept lower values j name value
  missed : ∀ {i name value}, Missed lower values i name value →
    (∀ j, i < j → ∀ later, ¬ Followed lower values j name later) →
      ∃ j < i, Kept lower values j name value ∧
        ∀ k, j < k → k < i → ∀ other, ¬ Kept lower values k name other

end Positions

/-- A document is read as the map of its flags to the values that follow them. -/
def MapsArguments (lower : List Char → List Char) (document : List Char) : Prop :=
  ∀ name, (parseJnlpArguments lower document).get? name =
    lastValue name (properPairs lower (argumentContents document))

section Pairs

variable {lower : List Char → List Char} {name value : List Char}
  {values : List (List Char)} {pairs : List (List Char × List Char)}
  {arguments : OrderedDict (List Char) (List Char)}

@[simp]
theorem lastValue_nil : lastValue name [] = none := rfl

theorem lastValue_cons (pair : List Char × List Char) :
    lastValue name (pair :: pairs) =
      (lastValue name pairs).or (if pair.1 = name then some pair.2 else none) := by
  rw [lastValue, List.reverse_cons, List.find?_append, lastValue]
  cases pairs.reverse.find? fun pair => pair.1 = name with
  | none => by_cases same : pair.1 = name <;> simp [same]
  | some found => rfl

/-- What follows a flag at an odd place is not paired with it. -/
theorem evenPairs_false :
    evenPairs lower false (value :: values) = evenPairs lower true values := by
  rcases values with _ | ⟨next, values⟩
  · rfl
  · rw [evenPairs]
    cases isFlag value <;> rfl

/-- The loop pairs the flags at even places. -/
theorem get?_pairArguments :
    (pairArguments lower arguments values).get? name =
      (lastValue name (evenPairs lower true values)).or (arguments.get? name) := by
  induction size : values.length using Nat.strong_induction_on generalizing values arguments with
  | _ size' ih =>
      subst size
      rcases values with _ | ⟨flag, _ | ⟨next, values⟩⟩
      · rfl
      · rfl
      · rw [pairArguments, evenPairs]
        cases flagged : isFlag flag with
        | false =>
            simp only [Bool.false_eq_true, if_false]
            exact ih _ (by simp) rfl
        | true =>
            simp only [if_true, Bool.not_true, List.singleton_append, evenPairs_false,
              lastValue_cons]
            rw [ih _ (by simp) rfl, OrderedDict.get?_set, Option.or_assoc]
            congr 1
            simp only [eq_comm (a := name)]
            split_ifs <;> rfl

/-- Without a flag after a flag the even places are all there are. -/
theorem evenPairs_eq_properPairs
    (apart : values.IsChain fun left right => ¬ (isFlag left = true ∧ isFlag right = true)) :
    evenPairs lower true values = properPairs lower values := by
  induction size : values.length using Nat.strong_induction_on generalizing values with
  | _ size' ih =>
      subst size
      rcases values with _ | ⟨flag, _ | ⟨next, values⟩⟩
      · rfl
      · rfl
      · rw [List.isChain_cons_cons] at apart
        have rest := ih _ (by simp) apart.2 rfl
        rw [evenPairs]
        cases flagged : isFlag flag with
        | false =>
            simp only [Bool.false_eq_true, if_false, rest]
            simp [properPairs, flagged]
        | true =>
            have other : isFlag next = false := by
              simpa [flagged] using apart.1
            have shifted : evenPairs lower false (next :: values) =
                evenPairs lower true (next :: values) := by
              rcases values with _ | ⟨next', values⟩
              · rfl
              · simp only [evenPairs, other, Bool.false_eq_true, if_false]
            simp only [if_true, Bool.not_true, shifted, rest]
            simp [properPairs, flagged, other]

end Pairs

section Harm

variable {lower : List Char → List Char} {name value : List Char}
  {values : List (List Char)} {pairs : List (List Char × List Char)}

/-- The pair at a position, if a flag stands there and something behind it. -/
def pairAt (lower : List Char → List Char) (values : List (List Char)) (i : ℕ) :
    Option (List Char × List Char) :=
  match values[i]?, values[i + 1]? with
  | some flag, some next => if isFlag flag then some (flagName lower flag, next) else none
  | _, _ => none

theorem pairAt_eq_some_iff {i : ℕ} :
    pairAt lower values i = some (name, value) ↔ FlagAt lower values i name value := by
  unfold pairAt FlagAt
  rcases values[i]? with _ | flag
  · simp
  · rcases values[i + 1]? with _ | next
    · simp
    · cases flagged : isFlag flag <;> simp [flagged]

theorem lastValue_append {others : List (List Char × List Char)} :
    lastValue name (pairs ++ others) = (lastValue name others).or (lastValue name pairs) := by
  rw [lastValue, List.reverse_append, List.find?_append, lastValue, lastValue]
  cases others.reverse.find? fun pair => pair.1 = name <;> rfl

theorem lastValue_eq_none_iff : lastValue name pairs = none ↔ ∀ other, (name, other) ∉ pairs := by
  simp only [lastValue, Option.map_eq_none_iff, List.find?_eq_none, List.mem_reverse,
    decide_eq_true_eq]
  constructor
  · intro absent other mem
    exact absent _ mem rfl
  · rintro absent ⟨name', other⟩ mem rfl
    exact absent other mem

/-- The value at the last position with a pair of this name. -/
theorem lastValue_range {f : ℕ → Option (List Char × List Char)} {n : ℕ} :
    lastValue name ((List.range n).filterMap f) = some value ↔
      ∃ i < n, f i = some (name, value) ∧
        ∀ k, i < k → k < n → ∀ other, f k ≠ some (name, other) := by
  induction n with
  | zero => simp
  | succ n ih =>
      rw [List.range_succ, List.filterMap_append, lastValue_append]
      by_cases last : ∃ other, f n = some (name, other)
      · rcases last with ⟨other, last⟩
        have single : lastValue name ([n].filterMap f) = some other := by
          simp [last, lastValue]
        rw [single, Option.some_or, Option.some.injEq]
        constructor
        · rintro rfl
          exact ⟨n, Nat.lt_succ_self n, last, fun k above below => by omega⟩
        · rintro ⟨i, within, here, latest⟩
          rcases Nat.lt_succ_iff_lt_or_eq.mp within with earlier | rfl
          · exact absurd last (latest n earlier (Nat.lt_succ_self n) other)
          · rw [here] at last
            cases last
            rfl
      · have single : lastValue name ([n].filterMap f) = none := by
          rw [lastValue_eq_none_iff]
          intro other mem
          exact last ⟨other, by simpa using mem⟩
        rw [single, Option.none_or, ih]
        constructor
        · rintro ⟨i, within, here, latest⟩
          refine ⟨i, Nat.lt_succ_of_lt within, here, ?_⟩
          intro k above below other taken
          rcases Nat.lt_succ_iff_lt_or_eq.mp below with earlier | rfl
          · exact latest k above earlier other taken
          · exact last ⟨other, taken⟩
        · rintro ⟨i, within, here, latest⟩
          have earlier : i < n := by
            rcases Nat.lt_succ_iff_lt_or_eq.mp within with earlier | rfl
            · exact earlier
            · exact absurd ⟨value, here⟩ last
          exact ⟨i, earlier, here, fun k above below => latest k above (Nat.lt_succ_of_lt below)⟩

theorem place_append_cons (front : List (List Char)) :
    place (front ++ value :: values) (front.length + 1) =
      if isFlag value then place (front ++ value :: values) front.length + 1 else 0 := by
  have upTo : (front ++ value :: values).take (front.length + 1) = front ++ [value] := by
    rw [List.take_length_add_append]
    rfl
  rw [place, place, upTo, List.take_left, List.reverse_append, List.reverse_singleton,
    List.singleton_append, List.takeWhile_cons]
  split_ifs <;> rfl

theorem properPairs_eq :
    properPairs lower values =
      (List.range values.length).filterMap fun i =>
        (pairAt lower values i).filter fun pair => !isFlag pair.2 := by
  induction values with
  | nil => rfl
  | cons flag values ih =>
      rw [List.length_cons, List.range_succ_eq_map, List.filterMap_cons, List.filterMap_map]
      have later : (fun i => (pairAt lower (flag :: values) i).filter fun pair => !isFlag pair.2) ∘
          Nat.succ = fun i => (pairAt lower values i).filter fun pair => !isFlag pair.2 := rfl
      rw [later, ← ih]
      rcases values with _ | ⟨next, values⟩
      · rfl
      · cases flagged : isFlag flag <;> cases other : isFlag next <;>
          simp [properPairs, pairAt, flagged, other, Option.filter]

theorem evenPairs_eq (front : List (List Char)) :
    evenPairs lower (decide (Even (place (front ++ values) front.length))) values =
      (List.range values.length).filterMap fun i =>
        if Even (place (front ++ values) (front.length + i)) then pairAt lower values i
        else none := by
  induction values generalizing front with
  | nil => rfl
  | cons flag values ih =>
      have rest := ih (front ++ [flag])
      rw [List.append_assoc, List.singleton_append, List.length_append, List.length_singleton,
        place_append_cons] at rest
      rw [List.length_cons, List.range_succ_eq_map, List.filterMap_cons, List.filterMap_map]
      have later : (fun i =>
          if Even (place (front ++ flag :: values) (front.length + i)) then
            pairAt lower (flag :: values) i
          else none) ∘ Nat.succ = fun i =>
          if Even (place (front ++ flag :: values) (front.length + 1 + i)) then
            pairAt lower values i
          else none := by
        funext i
        simp only [Function.comp, Nat.succ_eq_add_one, pairAt, List.getElem?_cons_succ]
        rw [show front.length + (i + 1) = front.length + 1 + i by omega]
      rw [later, ← rest, Nat.add_zero]
      rcases values with _ | ⟨next, values⟩
      · by_cases even : Even (place (front ++ [flag]) front.length) <;>
          simp [even, evenPairs, pairAt]
      · rw [evenPairs]
        by_cases even : Even (place (front ++ flag :: next :: values) front.length) <;>
          cases flagged : isFlag flag <;>
            simp [pairAt, even, flagged, Nat.even_add_one]

theorem evenPairs_true :
    evenPairs lower true values =
      (List.range values.length).filterMap fun i =>
        if Even (place values i) then pairAt lower values i else none := by
  have positions : evenPairs lower (decide (Even (place ([] ++ values) 0))) values = _ :=
    evenPairs_eq []
  have beginning : Even (place values 0) := ⟨0, rfl⟩
  simpa only [List.nil_append, List.length_nil, Nat.zero_add, beginning, decide_true]
    using positions

theorem FlagAt.unique {i : ℕ} {other : List Char} (flagAt : FlagAt lower values i name value)
    (again : FlagAt lower values i name other) : value = other := by
  rcases flagAt with ⟨_, -, -, -, next⟩
  rcases again with ⟨_, -, -, -, next'⟩
  rw [next] at next'
  exact Option.some.inj next'

theorem FlagAt.lt {i : ℕ} (flagAt : FlagAt lower values i name value) : i < values.length := by
  rcases flagAt with ⟨flag, here, -⟩
  exact (List.getElem?_eq_some_iff.mp here).1

/-- The last value the loop gives to a name. -/
theorem lastValue_evenPairs :
    lastValue name (evenPairs lower true values) = some value ↔
      ∃ i, Even (place values i) ∧ FlagAt lower values i name value ∧
        ∀ k, i < k → Even (place values k) → ∀ other, ¬ FlagAt lower values k name other := by
  rw [evenPairs_true, lastValue_range]
  simp only [Option.ite_none_right_eq_some, ne_eq, not_and, pairAt_eq_some_iff]
  constructor
  · rintro ⟨i, -, ⟨even, here⟩, latest⟩
    exact ⟨i, even, here, fun k above evenly other there =>
      latest k above there.lt other evenly there⟩
  · rintro ⟨i, even, here, latest⟩
    exact ⟨i, here.lt, ⟨even, here⟩, fun k above _ other evenly => latest k above evenly other⟩

theorem exists_lastValue_evenPairs {i : ℕ} (even : Even (place values i))
    (here : FlagAt lower values i name value) :
    ∃ last, lastValue name (evenPairs lower true values) = some last := by
  rw [← Option.ne_none_iff_exists', ne_eq, lastValue_eq_none_iff, evenPairs_true]
  intro absent
  refine absent value (List.mem_filterMap.mpr ⟨i, List.mem_range.mpr here.lt, ?_⟩)
  rw [if_pos even]
  exact pairAt_eq_some_iff.mpr here

theorem lastValue_properPairs :
    lastValue name (properPairs lower values) = some value ↔
      ∃ i, Followed lower values i name value ∧
        ∀ k, i < k → ∀ other, ¬ Followed lower values k name other := by
  rw [properPairs_eq, lastValue_range]
  simp only [Option.filter_eq_some_iff, pairAt_eq_some_iff, Bool.not_eq_true', ne_eq]
  constructor
  · rintro ⟨i, -, here, latest⟩
    exact ⟨i, here, fun k above other there => latest k above there.1.lt other there⟩
  · rintro ⟨i, here, latest⟩
    exact ⟨i, here.1.lt, here, fun k above _ other there => latest k above other there⟩

theorem exists_lastValue_properPairs {i : ℕ} (here : Followed lower values i name value) :
    ∃ last, lastValue name (properPairs lower values) = some last := by
  rw [← Option.ne_none_iff_exists', ne_eq, lastValue_eq_none_iff, properPairs_eq]
  intro absent
  refine absent value (List.mem_filterMap.mpr ⟨i, List.mem_range.mpr here.1.lt, ?_⟩)
  rw [pairAt_eq_some_iff.mpr here.1, Option.filter_some, here.2]
  rfl

/-- The loop's pairs and those of the documentation agree on the last one of every name exactly
when the runs of flags do no harm. -/
theorem lastValue_eq_iff_harmless :
    (∀ name, lastValue name (evenPairs lower true values) =
        lastValue name (properPairs lower values)) ↔ Harmless lower values := by
  constructor
  · intro same
    refine ⟨?_, ?_⟩
    · rintro i name ⟨even, next, here, flagged⟩
      rcases exists_lastValue_evenPairs even here with ⟨value, last⟩
      rcases lastValue_evenPairs.mp last with ⟨j, evenly, there, latest⟩
      rw [same] at last
      rcases lastValue_properPairs.mp last with ⟨-, ⟨-, plain⟩, -⟩
      refine ⟨j, value, ?_, evenly, there, plain⟩
      rcases Nat.lt_trichotomy i j with before | rfl | behind
      · exact before
      · rw [here.unique there, plain] at flagged
        cases flagged
      · exact absurd here (latest i behind even next)
    · rintro i name value ⟨odd, here⟩ latest
      have last := lastValue_properPairs.mpr ⟨i, here, latest⟩
      rw [← same] at last
      rcases lastValue_evenPairs.mp last with ⟨j, evenly, there, latest'⟩
      have kept : Kept lower values j name value := ⟨evenly, there, here.2⟩
      refine ⟨j, ?_, kept, ?_⟩
      · rcases Nat.lt_trichotomy i j with before | rfl | behind
        · exact absurd kept.2 (latest j before value)
        · exact absurd evenly odd
        · exact behind
      · rintro k above - other ⟨even, followed⟩
        exact latest' k above even other followed.1
  · intro harmless name
    rcases taken : lastValue name (evenPairs lower true values) with _ | value
    · rcases due : lastValue name (properPairs lower values) with _ | value
      · rfl
      · rcases lastValue_properPairs.mp due with ⟨i, here, latest⟩
        have even : ∃ j, Even (place values j) ∧ FlagAt lower values j name value := by
          by_cases even : Even (place values i)
          · exact ⟨i, even, here.1⟩
          · rcases harmless.missed ⟨even, here⟩ latest with ⟨j, -, kept, -⟩
            exact ⟨j, kept.1, kept.2.1⟩
        rcases even with ⟨j, even, there⟩
        rcases exists_lastValue_evenPairs even there with ⟨last, some⟩
        rw [taken] at some
        cases some
    · rcases lastValue_evenPairs.mp taken with ⟨j, even, here, latest⟩
      have plain : isFlag value = false := by
        rw [← Bool.not_eq_true]
        intro flagged
        rcases harmless.astray ⟨even, value, here, flagged⟩ with ⟨k, last, above, kept⟩
        exact latest k above kept.1 last kept.2.1
      rcases exists_lastValue_properPairs ⟨here, plain⟩ with ⟨last, due⟩
      rcases lastValue_properPairs.mp due with ⟨i, there, latest'⟩
      rw [due, Option.some.injEq]
      rcases Nat.lt_trichotomy i j with before | rfl | behind
      · exact absurd ⟨here, plain⟩ (latest' j before value)
      · exact here.unique there.1
      · have odd : ¬ Even (place values i) := fun evenly => latest i behind evenly last there.1
        rcases harmless.missed ⟨odd, there⟩ latest' with ⟨k, -, kept, between⟩
        rcases Nat.lt_trichotomy k j with lower' | rfl | upper
        · exact absurd ⟨even, here, plain⟩ (between j lower' behind value)
        · exact here.unique kept.2.1
        · exact absurd kept.2.1 (latest k upper kept.1 last)

end Harm

section Documents

variable (lower : List Char → List Char) (document : List Char)

theorem get?_parseJnlpArguments (name : List Char) :
    (parseJnlpArguments lower document).get? name =
      lastValue name (evenPairs lower true (argumentContents document)) := by
  rw [parseJnlpArguments, get?_pairArguments, OrderedDict.get?_empty, Option.or_none]

/-- A document is read as it should be when no flag follows a flag. -/
theorem mapsArguments_of_apart
    (apart : (argumentContents document).IsChain fun left right =>
      ¬ (isFlag left = true ∧ isFlag right = true)) : MapsArguments lower document := by
  intro name
  rw [get?_parseJnlpArguments, evenPairs_eq_properPairs apart]

/-- A document is read as it should be exactly when its runs of flags do no harm. -/
theorem mapsArguments_iff :
    MapsArguments lower document ↔ Harmless lower (argumentContents document) := by
  rw [← lastValue_eq_iff_harmless]
  simp only [MapsArguments, get?_parseJnlpArguments]

/-- A flag behind a flag. -/
theorem not_mapsArguments_two_flags :
    ¬ MapsArguments PyText.lower
      "<argument>-a</argument><argument>-b</argument><argument>x</argument>".toList := by
  intro maps
  have missing := maps ['b']
  revert missing
  decide +kernel

end Documents

/-- The entities of XML. -/
def xmlEntities : List (Char × List Char) :=
  [('&', "&amp;".toList), ('<', "&lt;".toList), ('>', "&gt;".toList), ('"', "&quot;".toList),
    ('\'', "&apos;".toList)]

/-- A character, written as its entity if it has one. -/
def encodeChar (entities : List (Char × List Char)) (c : Char) : List Char :=
  match entities.find? fun entity => entity.1 = c with
  | some entity => entity.2
  | none => [c]

/-- The text with its special characters written as entities. -/
def escapeEntities (text : List Char) : List Char :=
  text.flatMap (encodeChar xmlEntities)

/-- The text of none of the entities but that of the ampersand occurs. -/
def Plain (text : List Char) : Prop :=
  ¬ "&lt;".toList <:+: text ∧ ¬ "&gt;".toList <:+: text ∧ ¬ "&quot;".toList <:+: text ∧
    ¬ "&apos;".toList <:+: text

section Replace

open Redact

variable {old new text rest : List Char}

theorem replaceFrom_copy {taken : List Char}
    (nowhere : ∀ front back, taken = front ++ back → back ≠ [] → ¬ old <+: back ++ rest) :
    replaceFrom old new 0 (taken ++ rest) = taken ++ replaceFrom old new 0 rest := by
  induction taken with
  | nil => rfl
  | cons c taken ih =>
      have here : ¬ old <+: c :: (taken ++ rest) :=
        nowhere [] (c :: taken) rfl (List.cons_ne_nil _ _)
      rw [List.cons_append, replaceFrom, if_neg (mt startsWith_eq_iff.mp here), List.cons_append]
      refine congrArg _ (ih ?_)
      rintro front back rfl nonempty
      exact nowhere (c :: front) back rfl nonempty

theorem replaceFrom_found (nonempty : old ≠ []) :
    replaceFrom old new 0 (old ++ rest) = new ++ replaceFrom old new 0 rest := by
  rcases old with _ | ⟨c, tail⟩
  · exact absurd rfl nonempty
  · have starts : startsWith (fun a b => a == b) (c :: tail) (c :: (tail ++ rest)) = true :=
      startsWith_eq_iff.mpr ⟨rest, rfl⟩
    rw [List.cons_append, replaceFrom, if_pos starts, List.length_cons, Nat.add_sub_cancel,
      replaceFrom_skip, map_ofChar]

theorem replaceFrom_absent (absent : ¬ old <:+: text) : replaceFrom old new 0 text = text := by
  have copied : replaceFrom old new 0 (text ++ []) = text ++ replaceFrom old new 0 [] :=
    replaceFrom_copy (by
      rintro front back rfl _ ⟨tail, split⟩
      rw [List.append_nil] at split
      exact absent ⟨front, tail, by rw [← split, List.append_assoc]⟩)
  rw [List.append_nil] at copied
  rw [copied]
  exact List.append_nil _

variable (old new) in
/-- A replacement by something shorter shortens the text unless there is nothing to replace. -/
theorem length_replaceFrom_le (shorter : new.length < old.length) (text : List Char) :
    (replaceFrom old new 0 text).length ≤ text.length ∧
      (old <:+: text → (replaceFrom old new 0 text).length < text.length) := by
  have nonempty : old ≠ [] := by
    rintro rfl
    cases shorter
  refine replaceFrom_induction (motive := fun text replaced => replaced.length ≤ text.length ∧
    (old <:+: text → replaced.length < text.length)) nonempty ?_ ?_ ?_ text
  · refine ⟨le_rfl, ?_⟩
    intro occurs
    exact absurd (List.infix_nil.mp occurs) nonempty
  · intro c rest here ih
    refine ⟨Nat.succ_le_succ ih.1, ?_⟩
    intro occurs
    rcases List.infix_cons_iff.mp occurs with starts | occurs
    · exact absurd starts here
    · exact Nat.succ_lt_succ (ih.2 occurs)
  · intro rest ih
    simp only [List.length_append]
    refine ⟨by omega, fun _ => by omega⟩

end Replace

section Stages

open Redact

variable {entities : List (Char × List Char)} {c : Char} {name text : List Char}

/-- Texts of entities that are not taken for the entity with this name, nor for a part of it. -/
def Distinct (name : List Char) (entities : List (Char × List Char)) : Prop :=
  ∀ entity ∈ entities, entity.1 ≠ '&' ∧
    ∃ other, entity.2 = '&' :: other ∧ '&' ∉ other ∧ ∀ rest, ¬ name <+: other ++ rest

theorem encodeChar_cases (entities : List (Char × List Char)) (c : Char) :
    (∃ entity ∈ entities, entity.1 = c ∧ encodeChar entities c = entity.2) ∨
      (∀ entity ∈ entities, entity.1 ≠ c) ∧ encodeChar entities c = [c] := by
  unfold encodeChar
  cases found : entities.find? fun entity => entity.1 = c with
  | some entity =>
      exact .inl ⟨entity, List.mem_of_find?_eq_some found, by simpa using List.find?_some found,
        rfl⟩
  | none => exact .inr ⟨by simpa using found, rfl⟩

theorem encodeChar_cons_self : encodeChar ((c, text) :: entities) c = text := by
  simp [encodeChar]

theorem encodeChar_cons_of_ne {d : Char} (differs : d ≠ c) :
    encodeChar ((c, text) :: entities) d = encodeChar entities d := by
  simp [encodeChar, differs.symm]

/-- A character of another entity, or without one, is copied. -/
theorem replaceFrom_encodeChar {d : Char} {new rest : List Char} (distinct : Distinct name entities)
    (plain : d ≠ '&') :
    replaceFrom ('&' :: name) new 0 (encodeChar entities d ++ rest) =
      encodeChar entities d ++ replaceFrom ('&' :: name) new 0 rest := by
  apply replaceFrom_copy
  intro front back split nonempty starts
  rcases encodeChar_cases entities d with ⟨entity, mem, rfl, same⟩ | ⟨-, same⟩
  · rcases (distinct entity mem).2 with ⟨other, text, absent, unlike⟩
    rw [same, text] at split
    rcases front with _ | ⟨head, front⟩
    · obtain rfl : '&' :: other = back := split
      rw [List.cons_append, List.cons_prefix_cons] at starts
      exact unlike rest starts.2
    · rw [List.cons_append, List.cons.injEq] at split
      rcases back with _ | ⟨head', back⟩
      · exact nonempty rfl
      · rw [List.cons_append, List.cons_prefix_cons] at starts
        rcases starts with ⟨rfl, -⟩
        exact absent (split.2 ▸ List.mem_append_right _ (List.mem_cons_self ..))
  · rw [same] at split
    rcases front with _ | ⟨head, front⟩
    · obtain rfl : [d] = back := split
      rw [List.singleton_append, List.cons_prefix_cons] at starts
      exact plain starts.1.symm
    · rcases List.append_eq_nil_iff.mp (List.cons.inj split).2.symm with ⟨-, empty⟩
      exact nonempty empty

/-- Decoding the ampersand leaves the other entities. -/
theorem replaceFrom_ampersand (distinct : Distinct name entities) (text : List Char) :
    replaceFrom ('&' :: name) ['&'] 0
        (text.flatMap (encodeChar (('&', '&' :: name) :: entities))) =
      text.flatMap (encodeChar entities) := by
  induction text with
  | nil => rfl
  | cons d text ih =>
      rw [List.flatMap_cons, List.flatMap_cons]
      by_cases ampersand : d = '&'
      · subst ampersand
        have unencoded : encodeChar entities '&' = ['&'] := by
          rcases encodeChar_cases entities '&' with ⟨entity, mem, same, -⟩ | ⟨-, same⟩
          · exact absurd same (distinct entity mem).1
          · exact same
        rw [encodeChar_cons_self, replaceFrom_found (List.cons_ne_nil _ _), ih, unencoded]
      · rw [encodeChar_cons_of_ne ampersand, replaceFrom_encodeChar distinct ampersand, ih]

/-- A name that starts the encoded text starts the text. -/
theorem prefix_of_prefix_flatMap (others : Distinct name entities)
    (letters : ∀ d ∈ text, d ≠ '&') {encoded : List Char}
    (starts : text <+: encoded.flatMap (encodeChar ((c, '&' :: name) :: entities))) :
    text <+: encoded := by
  induction text generalizing encoded with
  | nil => exact List.nil_prefix
  | cons d text ih =>
      rw [List.forall_mem_cons] at letters
      rcases encoded with _ | ⟨x, encoded⟩
      · cases List.prefix_nil.mp starts
      · rw [List.flatMap_cons] at starts
        by_cases isC : x = c
        · subst isC
          rw [encodeChar_cons_self, List.cons_append, List.cons_prefix_cons] at starts
          exact absurd starts.1 letters.1
        · rw [encodeChar_cons_of_ne isC] at starts
          rcases encodeChar_cases entities x with ⟨entity, mem, -, same⟩ | ⟨-, same⟩
          · rcases (others entity mem).2 with ⟨other, isEntity, -⟩
            rw [same, isEntity, List.cons_append, List.cons_prefix_cons] at starts
            exact absurd starts.1 letters.1
          · rw [same, List.singleton_append, List.cons_prefix_cons] at starts
            rw [List.cons_prefix_cons]
            exact ⟨starts.1, ih letters.2 starts.2⟩

/-- Decoding another entity also decodes its text where the text itself has it. -/
theorem replaceFrom_entity (distinct : Distinct name entities) (other : c ≠ '&')
    (fresh : ∀ entity ∈ entities, entity.1 ≠ c)
    (letters : ∀ d ∈ name, d ≠ '&' ∧ encodeChar ((c, '&' :: name) :: entities) d = [d])
    (text : List Char) :
    replaceFrom ('&' :: name) [c] 0
        (text.flatMap (encodeChar ((c, '&' :: name) :: entities))) =
      (replaceFrom ('&' :: name) [c] 0 text).flatMap (encodeChar entities) := by
  have decoded : encodeChar entities c = [c] := by
    rcases encodeChar_cases entities c with ⟨entity, mem, same, -⟩ | ⟨-, same⟩
    · exact absurd same (fresh entity mem)
    · exact same
  have unencoded : encodeChar entities '&' = ['&'] := by
    rcases encodeChar_cases entities '&' with ⟨entity, mem, same, -⟩ | ⟨-, same⟩
    · exact absurd same (distinct entity mem).1
    · exact same
  have spelled : name.flatMap (encodeChar ((c, '&' :: name) :: entities)) = name := by
    have each := List.flatMap_congr fun d mem => (letters d mem).2
    rw [each]
    exact List.flatMap_singleton' name
  refine replaceFrom_induction
    (motive := fun text replaced =>
      replaceFrom ('&' :: name) [c] 0
          (text.flatMap (encodeChar ((c, '&' :: name) :: entities))) =
        replaced.flatMap (encodeChar entities)) (List.cons_ne_nil '&' name) rfl ?_ ?_ text
  · intro d rest here ih
    rw [List.flatMap_cons, List.flatMap_cons]
    by_cases isC : d = c
    · subst isC
      rw [encodeChar_cons_self, replaceFrom_found (List.cons_ne_nil _ _), ih, decoded]
    · rw [encodeChar_cons_of_ne isC]
      by_cases ampersand : d = '&'
      · subst ampersand
        have notHere : ¬ '&' :: name <+:
            '&' :: rest.flatMap (encodeChar ((c, '&' :: name) :: entities)) := by
          rw [List.cons_prefix_cons] at here ⊢
          rintro ⟨-, starts⟩
          exact here ⟨rfl,
            prefix_of_prefix_flatMap distinct (fun d mem => (letters d mem).1) starts⟩
        rw [unencoded, List.singleton_append, replaceFrom, if_neg (mt startsWith_eq_iff.mp notHere),
          ih]
        rfl
      · rw [replaceFrom_encodeChar distinct ampersand, ih]
  · intro rest ih
    rw [List.flatMap_append, List.flatMap_append, List.flatMap_cons, spelled,
      encodeChar_cons_of_ne other.symm, unencoded, List.singleton_append,
      replaceFrom_found (List.cons_ne_nil _ _), ih, List.flatMap_singleton, decoded]

/-- What becomes of a text that is written with entities and read again: the texts of the
entities in it are decoded. -/
theorem unescape_escape (text : List Char) :
    unescapeEntities (escapeEntities text) =
      replaceFrom "&apos;".toList ['\''] 0 (replaceFrom "&quot;".toList ['"'] 0
        (replaceFrom "&gt;".toList ['>'] 0 (replaceFrom "&lt;".toList ['<'] 0 text))) := by
  have amp : Distinct "amp;".toList (xmlEntities.drop 1) := by
    simp [Distinct, xmlEntities]
  have lt : Distinct "lt;".toList (xmlEntities.drop 2) := by
    simp [Distinct, xmlEntities]
  have gt : Distinct "gt;".toList (xmlEntities.drop 3) := by
    simp [Distinct, xmlEntities]
  have quot : Distinct "quot;".toList (xmlEntities.drop 4) := by
    simp [Distinct, xmlEntities]
  have apos : Distinct "apos;".toList (xmlEntities.drop 5) := by
    simp [Distinct, xmlEntities]
  have stage1 : replaceFrom "&amp;".toList ['&'] 0 (escapeEntities text) =
      text.flatMap (encodeChar (xmlEntities.drop 1)) :=
    replaceFrom_ampersand amp text
  have stage2 (text : List Char) :
      replaceFrom "&lt;".toList ['<'] 0 (text.flatMap (encodeChar (xmlEntities.drop 1))) =
        (replaceFrom "&lt;".toList ['<'] 0 text).flatMap (encodeChar (xmlEntities.drop 2)) :=
    replaceFrom_entity lt (by decide) (by decide +kernel)
      (by simp [encodeChar, xmlEntities]) text
  have stage3 (text : List Char) :
      replaceFrom "&gt;".toList ['>'] 0 (text.flatMap (encodeChar (xmlEntities.drop 2))) =
        (replaceFrom "&gt;".toList ['>'] 0 text).flatMap (encodeChar (xmlEntities.drop 3)) :=
    replaceFrom_entity gt (by decide) (by decide +kernel)
      (by simp [encodeChar, xmlEntities]) text
  have stage4 (text : List Char) :
      replaceFrom "&quot;".toList ['"'] 0 (text.flatMap (encodeChar (xmlEntities.drop 3))) =
        (replaceFrom "&quot;".toList ['"'] 0 text).flatMap (encodeChar (xmlEntities.drop 4)) :=
    replaceFrom_entity quot (by decide) (by decide +kernel)
      (by simp [encodeChar, xmlEntities]) text
  have stage5 (text : List Char) :
      replaceFrom "&apos;".toList ['\''] 0 (text.flatMap (encodeChar (xmlEntities.drop 4))) =
        (replaceFrom "&apos;".toList ['\''] 0 text).flatMap (encodeChar (xmlEntities.drop 5)) :=
    replaceFrom_entity apos (by decide) (by decide +kernel)
      (by simp [encodeChar, xmlEntities]) text
  have decoded : (encodeChar (xmlEntities.drop 5) : Char → List Char) = fun c => [c] := rfl
  simp only [unescapeEntities, stage1, stage2, stage3, stage4, stage5, decoded,
    List.flatMap_singleton']

/-- The text comes back exactly when it has no text of an entity other than the ampersand's. -/
theorem unescape_escape_eq_iff (text : List Char) :
    unescapeEntities (escapeEntities text) = text ↔ Plain text := by
  rw [unescape_escape]
  constructor
  · intro same
    have lengths := congrArg List.length same
    have lt := length_replaceFrom_le "&lt;".toList ['<'] (by decide) text
    have gt := length_replaceFrom_le "&gt;".toList ['>'] (by decide)
      (replaceFrom "&lt;".toList ['<'] 0 text)
    have quot := length_replaceFrom_le "&quot;".toList ['"'] (by decide)
      (replaceFrom "&gt;".toList ['>'] 0 (replaceFrom "&lt;".toList ['<'] 0 text))
    have apos := length_replaceFrom_le "&apos;".toList ['\''] (by decide)
      (replaceFrom "&quot;".toList ['"'] 0
        (replaceFrom "&gt;".toList ['>'] 0 (replaceFrom "&lt;".toList ['<'] 0 text)))
    have noLt : ¬ "&lt;".toList <:+: text := fun occurs => by
      have less := lt.2 occurs
      omega
    rw [replaceFrom_absent noLt] at lengths lt gt quot apos
    have noGt : ¬ "&gt;".toList <:+: text := fun occurs => by
      have less := gt.2 occurs
      omega
    rw [replaceFrom_absent noGt] at lengths gt quot apos
    have noQuot : ¬ "&quot;".toList <:+: text := fun occurs => by
      have less := quot.2 occurs
      omega
    rw [replaceFrom_absent noQuot] at lengths quot apos
    have noApos : ¬ "&apos;".toList <:+: text := fun occurs => by
      have less := apos.2 occurs
      omega
    exact ⟨noLt, noGt, noQuot, noApos⟩
  · rintro ⟨noLt, noGt, noQuot, noApos⟩
    rw [replaceFrom_absent noLt, replaceFrom_absent noGt, replaceFrom_absent noQuot,
      replaceFrom_absent noApos]

end Stages

/-- An element with this content. -/
def argumentElement (text : List Char) : List Char :=
  "<argument>".toList ++ (escapeEntities text ++ "</argument>".toList)

/-- The elements of a document, one after the other. -/
def writeArguments (arguments : List (List Char)) : List Char :=
  arguments.flatMap argumentElement

section Elements

variable {prev : Option Char} {lead body trail rest text : List Char}

/-- White space around the text is not part of the group. -/
theorem findFrom_argumentRe (leads : ∀ c ∈ lead, isSpace c = true)
    (trails : ∀ c ∈ trail, isSpace c = true) (opens : ∀ c ∈ body.head?, isSpace c = false)
    (closes : ∀ c ∈ body.getLast?, isSpace c = false) (empty : body = [] → trail = [])
    (noTag : '<' ∉ body) :
    findFrom argumentRe prev 0 (("<argument>".toList ++ (lead ++ (body ++ (trail ++
        "</argument>".toList)))) ++ rest) =
      Function.update (fun _ => []) 1 body ::
        findFrom argumentRe (lastChar prev ("<argument>".toList ++ (lead ++ (body ++ (trail ++
          "</argument>".toList))))) 0 rest := by
  have tag (word : List Char) : Spells sameChar word word := spells_beq_iff.mpr (map_char word)
  have closing (prev : Option Char) (groups : ℕ → List Char) :
      (results (.seq (.many isSpace) (.word "</argument>".toList sameChar))
        ⟨prev, trail ++ ("</argument>".toList ++ rest), groups⟩).head? =
        some ⟨lastChar prev (trail ++ "</argument>".toList), rest, groups⟩ := by
    refine head?_results_seq _ (head?_results_many trails ?_ (Nat.zero_le _)) ?_
    · rintro c ⟨⟩
      rfl
    · rw [results_word_spelled (tag _), lastChar_append]
      rfl
  refine findFrom_found (lastChar prev ("<argument>".toList ++ (lead ++ (body ++ (trail ++
    "</argument>".toList))))) (by simp) ?_
  simp only [List.append_assoc, lastChar_append]
  refine head?_results_seq _ (by rw [results_word_spelled (tag _)]; rfl) ?_
  refine head?_results_seq _ (head?_results_many leads ?_ (Nat.zero_le _)) ?_
  · rcases body with _ | ⟨c, body⟩
    · rw [empty rfl]
      rintro c ⟨⟩
      rfl
    · simpa using opens
  refine head?_results_lazy (fun _ _ => rfl) ?_ ?_
  · intro n within
    rw [List.eq_nil_iff_forall_not_mem]
    intro final mem
    rcases mem_results_iff.mp mem with ⟨taken, split, -, ways⟩
    simp only [Expr.chain, Ways, ways_many] at ways
    rcases ways with ⟨spaces, tag', _, rfl, ⟨isSpaces, -⟩, spells, -⟩
    obtain rfl : tag' = "</argument>".toList := by
      simpa using spells_beq_iff.mp spells
    have covered := append_eq_append_cons (P := fun c => c ≠ '<')
      (x := body.drop n ++ trail) (y := "</argument>".toList ++ rest) (b := spaces) (c := '<')
      (t := "/argument>".toList ++ final.rest) (by simpa using split) (by
        intro c mem
        rcases List.mem_append.mp mem with mem | mem
        · rintro rfl
          exact noTag (List.mem_of_mem_drop mem)
        · rintro rfl
          exact absurd (trails _ mem) (by decide)) (by simp)
    rcases covered with ⟨beyond, rfl, -⟩
    have nonempty : body.drop n ≠ [] := by
      rw [ne_eq, List.drop_eq_nil_iff]
      omega
    have last := closes ((body.drop n).getLast nonempty) (by
      rw [List.getLast_drop]
      exact List.getLast?_eq_getLast_of_ne_nil _)
    have space := isSpaces ((body.drop n).getLast nonempty)
      (List.mem_append_left _ (List.mem_append_left _ (List.getLast_mem _)))
    rw [char_eq, last] at space
    cases space
  · have found := closing (lastChar (lastChar (lastChar prev "<argument>".toList) lead) body)
      (Function.update (fun _ => []) 1 body)
    rw [lastChar_append] at found
    exact found

theorem encodeChar_xml_cases (c : Char) :
    (isSpace c = false ∧ ∃ name, encodeChar xmlEntities c = '&' :: (name ++ [';']) ∧ '<' ∉ name) ∨
      c ≠ '<' ∧ encodeChar xmlEntities c = [c] := by
  rcases encodeChar_cases xmlEntities c with ⟨entity, mem, rfl, same⟩ | ⟨fresh, same⟩
  · refine .inl ?_
    rw [same]
    simp only [xmlEntities, List.mem_cons, List.not_mem_nil, or_false] at mem
    rcases mem with rfl | rfl | rfl | rfl | rfl
    · exact ⟨rfl, "amp".toList, rfl, by decide⟩
    · exact ⟨rfl, "lt".toList, rfl, by decide⟩
    · exact ⟨rfl, "gt".toList, rfl, by decide⟩
    · exact ⟨rfl, "quot".toList, rfl, by decide⟩
    · exact ⟨rfl, "apos".toList, rfl, by decide⟩
  · exact .inr ⟨(fresh ('<', "&lt;".toList) (by simp [xmlEntities])).symm, same⟩

theorem escapeEntities_of_spaces (spaces : ∀ c ∈ text, isSpace c = true) :
    escapeEntities text = text := by
  have each : text.flatMap (encodeChar xmlEntities) = text.flatMap fun c => [c] := by
    refine List.flatMap_congr fun c mem => ?_
    rcases encodeChar_xml_cases c with ⟨solid, -⟩ | ⟨-, same⟩
    · rw [spaces c mem] at solid
      cases solid
    · exact same
  rw [escapeEntities, each, List.flatMap_singleton']

theorem not_mem_escapeEntities (text : List Char) : '<' ∉ escapeEntities text := by
  rw [escapeEntities, List.mem_flatMap]
  rintro ⟨c, -, mem⟩
  rcases encodeChar_xml_cases c with ⟨-, name, same, absent⟩ | ⟨differs, same⟩
  · simp [same, absent] at mem
  · rw [same, List.mem_singleton] at mem
    exact differs mem.symm

theorem head?_escapeEntities (opens : ∀ c ∈ text.head?, isSpace c = false) :
    ∀ c ∈ (escapeEntities text).head?, isSpace c = false := by
  rcases text with _ | ⟨d, text⟩
  · simp [escapeEntities]
  · have solid := opens d rfl
    rw [escapeEntities, List.flatMap_cons]
    rcases encodeChar_xml_cases d with ⟨-, name, same, -⟩ | ⟨-, same⟩
    · rw [same]
      rintro c ⟨⟩
      rfl
    · rw [same]
      rintro c ⟨⟩
      exact solid

theorem getLast?_escapeEntities (closes : ∀ c ∈ text.getLast?, isSpace c = false) :
    ∀ c ∈ (escapeEntities text).getLast?, isSpace c = false := by
  rcases List.eq_nil_or_concat text with rfl | ⟨text, d, rfl⟩
  · simp [escapeEntities]
  · have solid := closes d (by simp)
    rw [escapeEntities, List.concat_eq_append, List.flatMap_append, List.flatMap_singleton]
    rcases encodeChar_xml_cases d with ⟨-, name, same, -⟩ | ⟨-, same⟩
    · have last : (text.flatMap (encodeChar xmlEntities) ++ '&' :: (name ++ [';'])).getLast? =
          some ';' := by
        rw [← List.cons_append, ← List.append_assoc, List.getLast?_concat]
      rw [same, last]
      rintro c ⟨⟩
      rfl
    · rw [same]
      simpa using solid

theorem escapeEntities_append (left right : List Char) :
    escapeEntities (left ++ right) = escapeEntities left ++ escapeEntities right :=
  List.flatMap_append

/-- The arguments of a document are read one by one, without the white space around them. -/
theorem argumentContents_writeArguments (arguments : List (List Char)) :
    argumentContents (writeArguments arguments) =
      arguments.map fun text => unescapeEntities (escapeEntities (strip text)) := by
  have found (prev : Option Char) :
      (findFrom argumentRe prev 0 (writeArguments arguments)).map (fun groups => groups 1) =
        arguments.map fun text => escapeEntities (strip text) := by
    induction arguments generalizing prev with
    | nil => rfl
    | cons text arguments ih =>
        obtain ⟨lead, trail, split, leads, trails, opens, closes, empty⟩ := exists_strip text
        have escaped : escapeEntities text = lead ++ (escapeEntities (strip text) ++ trail) := by
          have parts := congrArg escapeEntities split
          rw [escapeEntities_append, escapeEntities_append, escapeEntities_of_spaces leads,
            escapeEntities_of_spaces trails] at parts
          exact parts
        have element : argumentElement text = "<argument>".toList ++ (lead ++
            (escapeEntities (strip text) ++ (trail ++ "</argument>".toList))) := by
          unfold argumentElement
          generalize "<argument>".toList = opening
          generalize "</argument>".toList = closing
          rw [escaped]
          simp only [List.append_assoc]
        have blank : escapeEntities (strip text) = [] → trail = [] := by
          intro nothing
          apply empty
          rcases same : strip text with _ | ⟨c, rest⟩
          · rfl
          · rw [same, escapeEntities, List.flatMap_cons] at nothing
            rcases encodeChar_xml_cases c with ⟨-, name, entity, -⟩ | ⟨-, plain⟩
            · simp [entity] at nothing
            · simp [plain] at nothing
        rw [writeArguments, List.flatMap_cons, element,
          findFrom_argumentRe leads trails (head?_escapeEntities opens)
            (getLast?_escapeEntities closes) blank (not_mem_escapeEntities _),
          List.map_cons, List.map_cons, ← writeArguments, ih, Function.update_self]
  rw [argumentContents, findIter]
  have contents := congrArg (List.map unescapeEntities) (found none)
  rw [List.map_map, List.map_map] at contents
  exact contents

theorem length_unescape_escape_le (text : List Char) :
    (unescapeEntities (escapeEntities text)).length ≤ text.length := by
  rw [unescape_escape]
  exact ((length_replaceFrom_le _ _ (by decide) _).1.trans
    ((length_replaceFrom_le _ _ (by decide) _).1.trans
      ((length_replaceFrom_le _ _ (by decide) _).1.trans
        (length_replaceFrom_le _ _ (by decide) _).1)))

end Elements

/-- Decoding inverts the escaping of a text exactly when the text has no text of an entity other
than the ampersand's; and a document gives back its arguments exactly when this is so for all
of them and they do not begin or end with white space. -/
theorem decodes_iff (text : List Char) (arguments : List (List Char)) :
    (unescapeEntities (escapeEntities text) = text ↔ Plain text) ∧
    (argumentContents (writeArguments arguments) = arguments ↔
      ∀ text ∈ arguments, Plain text ∧ strip text = text) := by
  refine ⟨unescape_escape_eq_iff text, ?_⟩
  have each : arguments.map (fun text => unescapeEntities (escapeEntities (strip text))) =
      arguments ↔ ∀ text ∈ arguments, unescapeEntities (escapeEntities (strip text)) = text := by
    conv_lhs => rhs; rw [← List.map_id arguments]
    rw [List.map_inj_left]
    rfl
  rw [argumentContents_writeArguments, each]
  refine forall₂_congr fun text _ => ?_
  constructor
  · intro same
    have short := length_unescape_escape_le (strip text)
    have shorter := length_strip_le text
    rw [same] at short
    have stripped := strip_eq_of_length (le_antisymm shorter short)
    rw [stripped] at same
    exact ⟨(unescape_escape_eq_iff text).mp same, stripped⟩
  · rintro ⟨plain, stripped⟩
    rw [stripped]
    exact (unescape_escape_eq_iff text).mpr plain

/-- An ampersand that is followed by the rest of an entity. -/
theorem not_decodes_lt : unescapeEntities (escapeEntities "&lt;".toList) ≠ "&lt;".toList := by
  decide +kernel

end Asmb8Ikvm.Asp
