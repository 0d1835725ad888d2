import Asmb8Ikvm.Redact.Settled

/-!
# Values without a closing quote

The pattern for a key takes a value in quotes when a run of characters of its class goes up to the
closing quote. For a value with another character in it no run does, and no rule for labels
changes that; for a value with the name of a header in it none does any more when the rule for
headers has taken the rest of the line. Without a closing quote the pattern takes the label only:
it puts the mark in front of the value, which keeps its first character.
-/

namespace Asmb8Ikvm

open PyText Regex

namespace Redact

section Runs

variable {inSet : Char → Bool} {quote c : Char} {left text : List Char}

/-- A run of the set at the start of the text has the quote behind it. -/
def Closes (inSet : Char → Bool) (quote : Char) (text : List Char) : Prop :=
  ∃ run rest, text = run ++ quote :: rest ∧ ∀ c ∈ run, inSet c = true

theorem not_closes_nil : ¬Closes inSet quote [] := by
  rintro ⟨run, rest, split, -⟩
  simp at split

theorem closes_cons :
    Closes inSet quote (c :: text) ↔ c = quote ∨ inSet c = true ∧ Closes inSet quote text := by
  constructor
  · rintro ⟨run, rest, split, inRun⟩
    rcases run with _ | ⟨first, run⟩
    · rw [List.nil_append, List.cons.injEq] at split
      exact .inl split.1
    · rw [List.cons_append, List.cons.injEq] at split
      rcases split with ⟨rfl, rfl⟩
      rw [List.forall_mem_cons] at inRun
      exact .inr ⟨inRun.1, run, rest, rfl, inRun.2⟩
  · rintro (rfl | ⟨inFirst, run, rest, rfl, inRun⟩)
    · exact ⟨[], text, rfl, by simp⟩
    · exact ⟨c :: run, rest, rfl, List.forall_mem_cons.mpr ⟨inFirst, inRun⟩⟩

theorem closes_append :
    Closes inSet quote (left ++ text) ↔
      Closes inSet quote left ∨ (∀ c ∈ left, inSet c = true) ∧ Closes inSet quote text := by
  induction left with
  | nil => simp [not_closes_nil]
  | cons c left ih =>
      rw [List.cons_append, closes_cons, closes_cons, ih, List.forall_mem_cons]
      tauto

theorem Closes.mem (closes : Closes inSet quote text) : quote ∈ text := by
  rcases closes with ⟨run, rest, rfl, -⟩
  simp

theorem quote_not_mem_redacted (quoted : isQuote quote = true) : quote ∉ redacted.toList := by
  intro mem
  have plain : (redacted.toList.all fun c => !isQuote c) = true := by decide
  have notQuote := List.all_eq_true.mp plain quote mem
  rw [quoted] at notQuote
  cases notQuote

theorem isAmiValue_of_isNameChar (isName : isNameChar c = true) : isAmiValue c = true := by
  cases inClass : isAmiValue c with
  | true => rfl
  | false =>
      rw [isAmiValue_name inClass] at isName
      cases isName

end Runs

section Labels

variable {α : Type} [Glyph α] {table : CharTable} {kind : LabelKind} {rule : Rule}
  {inSet : Char → Bool} {prev : Option Char} {quote : Char} {text : List α}

/-- A match leaves the text behind its start without a closing quote. -/
theorem LabelMatch.closes {taken rest replacement lead name gap spaces opening removed closing out :
      List α} {sep : α}
    (isMatch : LabelMatch table kind prev taken rest replacement lead name gap sep spaces opening
      removed closing)
    (within : ∀ c, inSet c = true → isGenericValue c = true) (quoted : isQuote quote = true)
    (inValue : kind.words = headerWords ∨ ∀ c, kind.inValue c = true → inSet c = true)
    (back : Closes inSet quote (out.map char) → Closes inSet quote (rest.map char))
    (closes : Closes inSet quote ((replacement ++ out).map char)) :
    Closes inSet quote ((taken ++ rest).map char) := by
  have text_eq : (taken ++ rest).map char =
      (lead ++ (name ++ (gap ++ sep :: (spaces ++ opening)))).map char ++
        ((removed ++ closing) ++ rest).map char := by
    simp [isMatch.taken_eq]
  rw [List.map_append, isMatch.replacement_eq, List.append_assoc] at closes
  rw [text_eq, closes_append]
  rcases closes_append.mp closes with inKept | ⟨kept, goesOn⟩
  · exact .inl inKept
  refine .inr ⟨kept, ?_⟩
  rcases isMatch.quotes with ⟨rfl, rfl⟩ | ⟨first, last, rfl, rfl, isFirst, -⟩
  · rw [List.append_assoc] at goesOn
    rcases closes_append.mp goesOn with inMark | ⟨-, goesOn⟩
    · exact absurd inMark.mem (quote_not_mem_redacted quoted)
    have closesRest := back (by simpa using goesOn)
    rcases inValue with isHeader | inValue
    · have ends := isMatch.lined isHeader rfl
      rcases rest with _ | ⟨glyph, rest⟩
      · exact absurd closesRest not_closes_nil
      · have isBreak := ends glyph rfl
        rw [List.map_cons, closes_cons] at closesRest
        rcases closesRest with isQuote | ⟨inClass, -⟩
        · rw [isQuote, notLineBreak_quote quoted] at isBreak
          cases isBreak
        · rw [notLineBreak_of_isGenericValue (within _ inClass)] at isBreak
          cases isBreak
    · rw [List.append_nil, List.map_append, closes_append]
      refine .inr ⟨?_, closesRest⟩
      rw [List.forall_mem_map]
      exact fun glyph mem => inValue _ (isMatch.inValue glyph mem)
  · have inClass := within _ (kept (char first) (by simp))
    rw [(isGenericValue_facts inClass).2.1] at isFirst
    cases isFirst

/-- A rule for labels gives no value a closing quote. -/
theorem MatchesLabels.closes (matchesLabels : MatchesLabels α table kind rule)
    (consumes : Consumes α rule.expr) (within : ∀ c, inSet c = true → isGenericValue c = true)
    (quoted : isQuote quote = true)
    (inValue : kind.words = headerWords ∨ ∀ c, kind.inValue c = true → inSet c = true) :
    Closes inSet quote ((subFrom rule.expr rule.template prev 0 text).map char) →
      Closes inSet quote (text.map char) := by
  refine subFrom_induction (motive := fun _ text out =>
    Closes inSet quote (out.map char) → Closes inSet quote (text.map char)) consumes ?_ ?_ ?_
    prev text
  · exact fun _ => id
  · intro _ glyph rest _ ih
    rw [List.map_cons, List.map_cons, closes_cons, closes_cons]
    exact Or.imp_right (And.imp_right ih)
  · intro prev taken rest groups _ found ways ih
    rcases matchesLabels prev taken rest groups found ways with
      ⟨lead, name, gap, sep, spaces, opening, removed, closing, isMatch⟩
    exact isMatch.closes within quoted inValue ih

/-- The text starts with a glyph of the value, and when that opens an element, the next one is of
the value too or is no character of a tag. -/
def Led (text : List (Char × Bool)) : Prop :=
  ∃ glyph rest, text = glyph :: rest ∧ glyph.2 = true ∧
    (char glyph = '<' → ∀ next ∈ rest.head?, next.2 = true ∨ isTagChar (char next) = false)

theorem MatchesLabels.led (matchesLabels : MatchesLabels (Char × Bool) table kind rule)
    (mem : kind ∈ labelKinds) (consumes : Consumes (Char × Bool) rule.expr)
    {text : List (Char × Bool)} (led : Led text) :
    Led (subFrom rule.expr rule.template prev 0 text) := by
  rcases led with ⟨glyph, rest, rfl, marked, second⟩
  by_cases isTag : char glyph = '<'
  · have unmatched : matchAt rule.expr prev (glyph :: rest) = none :=
      matchesLabels.none_of_head mem (by rw [isTag]; decide) (by rw [isTag]; decide)
        (by rw [isTag]; decide)
    rw [subFrom_copy unmatched]
    refine ⟨glyph, _, rfl, marked, ?_⟩
    rw [matchesLabels.keeps_head mem consumes]
    exact second
  · have head := @MatchesLabels.keeps_head _ _ table kind rule prev (glyph :: rest) matchesLabels
      mem consumes
    rw [List.head?_cons, List.head?_eq_some_iff] at head
    rcases head with ⟨rest', out⟩
    exact ⟨glyph, rest', out, marked, fun same => absurd same isTag⟩

end Labels

section Headers

variable {α : Type} [Glyph α] {table : CharTable} {rule : Rule} {inSet : Char → Bool}
  {prev : Option Char} {quote : Char} {key : String} {before text : List α}

/-- The three rules for headers. -/
def headerRules (table : CharTable) : List Rule :=
  [quotedHeader table, headerLine, header table]

theorem matchesLabels_headerRules (isRule : rule ∈ headerRules table) :
    ∃ kind ∈ labelKinds, kind.words = headerWords ∧ MatchesLabels α table kind rule := by
  simp only [headerRules, List.mem_cons, List.not_mem_nil, or_false] at isRule
  rcases isRule with rfl | rfl | rfl
  · exact ⟨headerKind, by simp [labelKinds], rfl, matchesLabels_quotedHeader⟩
  · exact ⟨lineKind, by simp [labelKinds], rfl, matchesLabels_headerLine⟩
  · exact ⟨lineKind, by simp [labelKinds], rfl, matchesLabels_header⟩

theorem mem_patterns_of_headerRules (isRule : rule ∈ headerRules table) :
    rule ∈ patterns table := by
  simp only [headerRules, patterns, List.mem_cons, List.not_mem_nil, or_false] at isRule ⊢
  tauto

theorem header_matches {name gap : List α} {colon next : α}
    (isName : SpellsOneOf headerWords name) (isGap : ∀ glyph ∈ gap, isSpace (char glyph) = true)
    (isColon : char colon = ':') (inLine : notLineBreak (char next) = true)
    (boundary : prev.any table.isWord ≠
      name.head?.any fun glyph => table.isWord (char glyph)) :
    matchAt (header table).expr prev (name ++ (gap ++ colon :: next :: text)) ≠ none := by
  intro unmatched
  have split : name ++ (gap ++ colon :: next :: text) =
      (name ++ ((gap ++ [colon]) ++ [next])) ++ text := by simp
  rcases (isName.isNameChar areNames_header) with ⟨nonempty, -⟩
  rw [split, matchAt_none_iff] at unmatched
  let groups : ℕ → List α :=
    Function.update (Function.update (fun _ => []) 1 name) 2 (gap ++ [colon])
  refine unmatched _ text groups rfl ?_
  have starts : prev.any table.isWord ≠ (name ++ ((gap ++ [colon]) ++ [next]) ++ text).head?.any
      fun glyph => table.isWord (char glyph) := by
    rcases name with _ | ⟨head, name⟩
    · exact absurd rfl nonempty
    · exact boundary
  simp only [header, Expr.chain, Ways, headerNames, ways_names, ways_some, ways_spaced]
  refine ⟨[], _, _, rfl, ⟨rfl, starts, rfl⟩, name, _, _, rfl, ⟨_, ⟨isName, rfl⟩, rfl⟩,
    gap ++ [colon], [next], _, rfl,
    ⟨_, ⟨⟨gap, colon, [], rfl, by simp [isColon], isGap, by simp⟩, rfl⟩, rfl⟩,
    ⟨by simpa using inLine, by simp⟩, rfl⟩

end Headers

end Redact

end Asmb8Ikvm
