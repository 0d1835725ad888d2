import Asmb8Ikvm.Redact.Stays

/-!
# Fields in the value of a header

The value of a header without quotes is the rest of its line, and a field on that line goes with
it, whatever its value is. The rule for quoted headers comes first and may mask text between
quotes on the line, but it leaves the header and the first quote behind it; a field between these
quotes goes with the text between them.
-/

namespace Asmb8Ikvm

open PyText Regex

namespace Redact

section Lines

variable {table : CharTable} {line left right text kept opening removed rest out :
  List (Char × Bool)}

/-- No glyph of a value stands behind the first line of the text. -/
def Ahead (text : List (Char × Bool)) : Prop :=
  ∃ line rest, text = line ++ rest ∧ (∀ glyph ∈ line, notLineBreak (char glyph) = true) ∧
    Unmarked rest

theorem Unmarked.ahead (unmarked : Unmarked text) : Ahead text :=
  ⟨[], text, rfl, by simp, unmarked⟩

theorem Ahead.prepend (inLine : ∀ glyph ∈ line, notLineBreak (char glyph) = true)
    (ahead : Ahead text) : Ahead (line ++ text) := by
  rcases ahead with ⟨line', rest, rfl, inLine', unmarked⟩
  exact ⟨line ++ line', rest, by simp, List.forall_mem_append.mpr ⟨inLine, inLine'⟩, unmarked⟩

theorem Ahead.behind (ahead : Ahead (left ++ right)) : Ahead right := by
  rcases ahead with ⟨line, rest, split, inLine, unmarked⟩
  rcases List.append_eq_append_iff.mp split with ⟨line', rfl, rfl⟩ | ⟨left', rfl, rfl⟩
  · exact ⟨line', rest, rfl, (List.forall_mem_append.mp inLine).2, unmarked⟩
  · exact (unmarked_append.mp unmarked).2.ahead

theorem Ahead.cons {glyph : Char × Bool} (inLine : notLineBreak (char glyph) = true)
    (ahead : Ahead text) : Ahead (glyph :: text) := by
  have started : Ahead ([glyph] ++ text) := ahead.prepend (by simpa using inLine)
  exact started

theorem Ahead.tail {glyph : Char × Bool} (ahead : Ahead (glyph :: text)) : Ahead text := by
  have whole : Ahead ([glyph] ++ text) := ahead
  exact whole.behind

/-- At the end of a line no glyph of a value is left. -/
theorem Ahead.unmarked (ahead : Ahead text)
    (ends : ∀ glyph ∈ text.head?, notLineBreak (char glyph) = false) : Unmarked text := by
  rcases ahead with ⟨line, rest, rfl, inLine, unmarked⟩
  rcases line with _ | ⟨glyph, line⟩
  · exact unmarked
  · have isBreak := ends glyph rfl
    rw [inLine glyph (List.mem_cons_self ..)] at isBreak
    cases isBreak

theorem notLineBreak_redacted :
    ∀ glyph ∈ redacted.toList.map (ofChar (α := Char × Bool)),
      notLineBreak (char glyph) = true :=
  fun glyph mem => notLineBreak_of_isGenericValue (redacted_inClass glyph mem)

/-- The mark in the place of a value, with the opening quote written again behind it. -/
theorem Ahead.replaced (ahead : Ahead (kept ++ (removed ++ rest)))
    (opens : opening = [] ∨ ∃ init first, kept = init ++ [first] ∧ opening = [first])
    (aheadOut : Ahead rest → Ahead out) (unmarkedOut : Unmarked rest → Unmarked out) :
    Ahead (kept ++ ((redacted.toList.map ofChar ++ opening) ++ out)) := by
  have inKept : opening ⊆ kept := by
    rcases opens with rfl | ⟨init, first, rfl, rfl⟩ <;> simp
  have ofLine : (∀ glyph ∈ kept, notLineBreak (char glyph) = true) →
      Ahead (kept ++ ((redacted.toList.map ofChar ++ opening) ++ out)) := fun inLine =>
    .prepend inLine (.prepend (List.forall_mem_append.mpr ⟨notLineBreak_redacted,
      fun glyph mem => inLine glyph (inKept mem)⟩) (aheadOut ahead.behind.behind))
  have ahead' := ahead
  rcases ahead' with ⟨line, rest', split, inLine, unmarked⟩
  rcases List.append_eq_append_iff.mp split with ⟨line', rfl, -⟩ | ⟨kept', rfl, rfl⟩
  · exact ofLine (List.forall_mem_append.mp inLine).1
  rcases List.eq_nil_or_concat kept' with rfl | ⟨kept', last, rfl⟩
  · exact ofLine (by simpa using inLine)
  rw [unmarked_append, unmarked_append] at unmarked
  rcases unmarked with ⟨unmarkedKept, -, unmarkedRest⟩
  have unmarkedOpening : Unmarked opening := by
    rcases opens with rfl | ⟨init, first, same, rfl⟩
    · simp [Unmarked]
    · rw [List.concat_eq_append, ← List.append_assoc] at same
      rcases List.append_inj' same rfl with ⟨-, same⟩
      rw [← same]
      intro glyph mem
      exact unmarkedKept glyph (by rw [List.concat_eq_append, List.mem_append]; exact .inr mem)
  rw [List.append_assoc]
  refine ⟨line, _, rfl, inLine, ?_⟩
  simp only [unmarked_append]
  exact ⟨unmarkedKept, ⟨unmarked_map_ofChar _, unmarkedOpening⟩, unmarkedOut unmarkedRest⟩

end Lines

section Rules

variable {table : CharTable} {kind : LabelKind} {rule : Rule} {prev : Option Char}
  {quote : Char × Bool} {front line back text taken rest replacement lead name gap spaces opening
    removed closing out : List (Char × Bool)} {sep : Char × Bool}

/-- A match of a rule for headers does to the line what its replacement does. -/
theorem LabelMatch.ahead (isMatch : LabelMatch table kind prev taken rest replacement lead name gap
      sep spaces opening removed closing) (isHeader : kind.words = headerWords)
    (aheadOut : Ahead rest → Ahead out) (unmarkedOut : Unmarked rest → Unmarked out)
    (ahead : Ahead (taken ++ rest)) : Ahead (replacement ++ out) := by
  have text_eq : taken ++ rest = (lead ++ (name ++ (gap ++ sep :: (spaces ++ opening)))) ++
      ((removed ++ closing) ++ rest) := by
    simp [isMatch.taken_eq]
  rw [text_eq] at ahead
  rw [(isMatch.rewrites isHeader).2.1, List.append_assoc]
  refine ahead.replaced ?_ aheadOut unmarkedOut
  rcases isMatch.quotes with ⟨rfl, -⟩ | ⟨first, last, rfl, -, -, -⟩
  · exact .inl rfl
  · exact .inr ⟨lead ++ (name ++ (gap ++ sep :: spaces)), first, by simp, rfl⟩

/-- A rule for headers brings no glyph of a value to a later line. -/
theorem headerRule_ahead (isRule : rule ∈ headerRules table) (ahead : Ahead text) :
    Ahead (subFrom rule.expr rule.template prev 0 text) := by
  have isPattern := mem_patterns_of_headerRules isRule
  rcases @matchesLabels_headerRules (Char × Bool) _ table rule isRule with
    ⟨kind, -, isHeader, matchesLabels⟩
  refine subFrom_induction (motive := fun _ text out => Ahead text → Ahead out)
    (consumes_of_mem isPattern) (fun _ => id) ?_ ?_ prev text ahead
  · intro prev glyph rest _ ih ahead
    have ahead' := ahead
    rcases ahead' with ⟨line, rest', split, inLine, unmarked⟩
    rcases line with _ | ⟨first, line⟩
    · rw [List.nil_append] at split
      rw [← split] at unmarked
      rw [Unmarked, List.forall_mem_cons] at unmarked
      exact Unmarked.ahead (List.forall_mem_cons.mpr
        ⟨unmarked.1, Unmarked.sub_behind isPattern unmarked.2⟩)
    · rw [List.cons_append, List.cons.injEq] at split
      rw [← split.1] at inLine
      exact (ih ahead.tail).cons (inLine glyph (List.mem_cons_self ..))
  · intro prev taken rest groups _ found ways ih
    rcases matchesLabels prev taken rest groups found ways with
      ⟨lead, name, gap, sep, spaces, opening, removed, closing, isMatch⟩
    exact isMatch.ahead isHeader ih fun unmarked => unmarked.sub_behind isPattern

/-- Between a header and a quote there is neither a quote nor a line break. -/
def Calm (line : List (Char × Bool)) : Prop :=
  ∀ glyph ∈ line, notLineBreak (char glyph) = true ∧ isQuote (char glyph) = false

/-- A match whose value starts with a quote behind the line keeps the line and its quote. -/
theorem LabelMatch.keeps_line (isMatch : LabelMatch table kind prev taken rest replacement lead name
      gap sep spaces opening removed closing) (isHeader : kind.words = headerWords)
    {first : Char × Bool} (isOpening : opening = [first]) {behind : List (Char × Bool)}
    (past : lead ++ (name ++ (gap ++ sep :: spaces)) = front ++ behind)
    (split : taken ++ rest = front ++ (line ++ quote :: back)) (calm : Calm line)
    (quoted : isQuote (char quote) = true) (ahead : Ahead back)
    (aheadOut : Ahead rest → Ahead out) (unmarkedOut : Unmarked rest → Unmarked out) :
    ∃ back', replacement ++ out = front ++ (line ++ quote :: back') ∧ Ahead back' := by
  have isFirst : isQuote (char first) = true := by
    rcases isMatch.quotes with ⟨nothing, -⟩ | ⟨first', last, same, -, isFirst, -⟩
    · rw [isOpening] at nothing
      cases nothing
    · rw [isOpening, List.cons.injEq] at same
      rwa [same.1]
  have kept_eq : lead ++ (name ++ (gap ++ sep :: (spaces ++ opening))) =
      front ++ (behind ++ [first]) := by
    rw [← List.append_assoc front, ← past, isOpening]
    simp
  have text_eq : taken ++ rest = front ++ (behind ++ first :: (removed ++ (closing ++ rest))) := by
    have taken_eq : taken = (lead ++ (name ++ (gap ++ sep :: (spaces ++ opening)))) ++
        (removed ++ closing) := by
      simp [isMatch.taken_eq]
    rw [taken_eq, kept_eq]
    simp
  rw [text_eq, List.append_cancel_left_eq] at split
  rcases quote_behind_value (fun glyph mem => (calm glyph mem).2) isFirst split.symm with
    ⟨extra, kept, rfl, -⟩
  refine ⟨extra ++ ((redacted.toList.map ofChar ++ opening) ++ out), ?_, ?_⟩
  · rw [(isMatch.rewrites isHeader).2.1, kept_eq, kept]
    simp
  · have aheadQuote : Ahead ((quote :: extra) ++ ((removed ++ closing) ++ rest)) := by
      simpa using ahead.cons (notLineBreak_quote quoted)
    refine (aheadQuote.replaced (.inr ?_) aheadOut unmarkedOut).tail
    rcases List.eq_nil_or_concat (quote :: extra) with nothing | ⟨init, last, isLast⟩
    · cases nothing
    rw [List.concat_eq_append] at isLast
    rw [isLast, ← List.append_assoc] at kept
    rcases List.append_inj' kept rfl with ⟨-, same⟩
    exact ⟨init, first, by rw [isLast, same], isOpening⟩

/-- The label of a header whose value is not in quotes has no quote in it. -/
theorem LabelMatch.unquoted_label (isMatch : LabelMatch table kind prev taken rest replacement lead
      name gap sep spaces opening removed closing) (mem : kind ∈ labelKinds)
    (isHeader : kind.words = headerWords) (unquoted : opening = []) :
    ∀ glyph ∈ lead ++ (name ++ (gap ++ sep :: spaces)), isQuote (char glyph) = false := by
  have isGap := isMatch.isGap
  have notQuoted : kind.quoted ≠ true := fun isQuoted =>
    (isMatch.rewrites isHeader).2.2 isQuoted unquoted
  simp only [List.forall_mem_append, List.forall_mem_cons]
  refine ⟨fun glyph inLead => isQuote_space ((isMatch.rewrites isHeader).1 glyph inLead),
    fun glyph inName => ?_, fun glyph inGap => ?_, ?_,
    fun glyph inSpaces => isQuote_space (isMatch.isSpaces glyph inSpaces)⟩
  · have isName := (isMatch.isName.isNameChar (areNames_of_mem mem)).2 glyph inName
    cases quoted : isQuote (char glyph) with
    | false => rfl
    | true =>
        rw [isNameChar_quote quoted] at isName
        cases isName
  · simp only [labelKinds, List.mem_cons, List.not_mem_nil, or_false] at mem
    rcases mem with rfl | rfl | rfl | rfl
    · exact absurd rfl notQuoted
    · exact isQuote_space (isGap _ (List.mem_map_of_mem inGap))
    · exact absurd rfl notQuoted
    · exact absurd rfl notQuoted
  · cases quoted : isQuote (char sep) with
    | false => rfl
    | true =>
        have isSep := isMatch.isSep
        rw [notSeparator_quote quoted] at isSep
        cases isSep

/-- A match without quotes that goes on over the start of the line takes the whole line. -/
theorem LabelMatch.takes_line (isMatch : LabelMatch table kind prev taken rest replacement lead name
      gap sep spaces opening removed closing) (mem : kind ∈ labelKinds)
    (isHeader : kind.words = headerWords) (unquoted : opening = [])
    {behind : List (Char × Bool)} (past : taken = front ++ behind)
    (split : behind ++ rest = line ++ quote :: back) (calm : Calm line)
    (quoted : isQuote (char quote) = true) (unmarked : Unmarked (front ++ line))
    (ahead : Ahead back) (unmarkedOut : Unmarked rest → Unmarked out) :
    Unmarked (replacement ++ out) := by
  have noClosing : closing = [] := by
    rcases isMatch.quotes with ⟨-, nothing⟩ | ⟨first, last, same, -⟩
    · exact nothing
    · rw [unquoted] at same
      cases same
  have text_eq : (lead ++ (name ++ (gap ++ sep :: spaces))) ++ (removed ++ rest) =
      (front ++ line) ++ quote :: back := by
    rw [List.append_assoc front, ← split, ← List.append_assoc front, ← past, isMatch.taken_eq,
      unquoted, noClosing]
    simp
  rcases append_eq_append_cons (P := fun glyph => isQuote (char glyph) = false) text_eq
    (isMatch.unquoted_label mem isHeader unquoted) (by simp [quoted]) with ⟨between, isFront, -⟩
  have whole : Ahead (behind ++ rest) := by
    rw [split]
    exact .prepend (fun glyph inLine => (calm glyph inLine).1)
      (ahead.cons (notLineBreak_quote quoted))
  have aheadRest : Ahead rest := whole.behind
  rw [isFront, unmarked_append] at unmarked
  rw [(isMatch.rewrites isHeader).2.1, unquoted, List.append_nil, List.append_nil]
  rw [unmarked_append, unmarked_append]
  exact ⟨⟨unmarked.1, unmarked_map_ofChar _⟩,
    unmarkedOut (aheadRest.unmarked (isMatch.lined isHeader noClosing))⟩

/-- Where a value in quotes starts in the text before the line, it ends there. -/
theorem LabelMatch.closes_before (isMatch : LabelMatch table kind prev taken rest replacement lead
      name gap sep spaces opening removed closing) {first last : Char × Bool}
    (isOpening : opening = [first]) (isClosing : closing = [last])
    {passed : List Char} (reached : prev = passed.getLast?) {inside : List (Char × Bool)}
    (isFront : front = (lead ++ (name ++ (gap ++ sep :: spaces))) ++ first :: inside)
    (split : taken ++ rest = front ++ (line ++ quote :: back))
    (unopened : ¬Open table kind (char first) (passed ++ front.map char)) :
    ∃ front', front = taken ++ front' ∧ rest = front' ++ (line ++ quote :: back) := by
  have text_eq : removed ++ last :: rest = inside ++ (line ++ quote :: back) := by
    rw [isMatch.taken_eq, isOpening, isClosing, isFront] at split
    simpa using split
  have isOpen : ∀ inside', removed = inside ++ inside' → False := by
    intro inside' isRemoved
    refine unopened ⟨passed ++ (lead ++ (name ++ (gap ++ sep :: spaces))).map char,
      inside.map char, by simp [isFront], isMatch.bare reached, ?_⟩
    rw [List.forall_mem_map]
    intro glyph mem
    have inRemoved : glyph ∈ removed := isRemoved ▸ List.mem_append_left _ mem
    exact ⟨isMatch.inValue glyph inRemoved,
      isMatch.unquoted glyph inRemoved first (by simp [isOpening])⟩
  rcases List.append_eq_append_iff.mp text_eq with ⟨inside', rfl, tail⟩ | ⟨inside', isRemoved, -⟩
  · rcases inside' with _ | ⟨glyph, inside'⟩
    · exact (isOpen [] (by simp)).elim
    · rw [List.cons_append, List.cons.injEq] at tail
      exact ⟨inside', by simp [isFront, isMatch.taken_eq, isOpening, isClosing, tail.1], tail.2⟩
  · exact (isOpen inside' isRemoved).elim

/-- How a match ends that starts before the line or in it: before the line, with a value in quotes
that starts behind the line, or with a value that goes on over the line. -/
theorem LabelMatch.line_outcome (isMatch : LabelMatch table kind prev taken rest replacement lead
      name gap sep spaces opening removed closing) (mem : kind ∈ labelKinds)
    (isHeader : kind.words = headerWords) {passed : List Char} (reached : prev = passed.getLast?)
    (unopened : kind.quoted = true → ∀ quote, isQuote quote = true →
      ¬Open table kind quote (passed ++ front.map char))
    (split : taken ++ rest = front ++ (line ++ quote :: back)) (calm : Calm line)
    (quoted : isQuote (char quote) = true) (unmarked : Unmarked (front ++ line))
    (ahead : Ahead back) (aheadOut : Ahead rest → Ahead out)
    (unmarkedOut : Unmarked rest → Unmarked out) :
    (∃ front', front = taken ++ front' ∧ rest = front' ++ (line ++ quote :: back)) ∨
      (kind.quoted = true ∧
        ∃ back', replacement ++ out = front ++ (line ++ quote :: back') ∧ Ahead back') ∨
      Unmarked (replacement ++ out) := by
  rcases isMatch.quotes with ⟨unquoted, -⟩ | ⟨first, last, isOpening, isClosing, isFirst, -⟩
  · rcases List.append_eq_append_iff.mp split with ⟨front', isFront, isRest⟩ |
      ⟨behind, past, isRest⟩
    · exact .inl ⟨front', isFront, isRest⟩
    · exact .inr (.inr (isMatch.takes_line mem isHeader unquoted past isRest.symm calm quoted
        unmarked ahead unmarkedOut))
  · have isQuoted := isMatch.isQuoted (by simp [isOpening])
    have label_eq : (lead ++ (name ++ (gap ++ sep :: spaces))) ++
        (first :: (removed ++ (closing ++ rest))) = front ++ (line ++ quote :: back) := by
      rw [← split, isMatch.taken_eq, isOpening]
      simp
    rcases List.append_eq_append_iff.mp label_eq with ⟨inside, isFront, tail⟩ | ⟨behind, past, -⟩
    · rcases inside with _ | ⟨first', inside⟩
      · rw [List.append_nil] at isFront
        have past : lead ++ (name ++ (gap ++ sep :: spaces)) = front ++ [] := by
          rw [isFront, List.append_nil]
        exact .inr (.inl ⟨isQuoted, isMatch.keeps_line isHeader isOpening past split calm quoted
          ahead aheadOut unmarkedOut⟩)
      · rw [List.cons_append, List.cons.injEq] at tail
        rw [← tail.1] at isFront
        exact .inl (isMatch.closes_before isOpening isClosing reached isFront split
          (unopened isQuoted _ isFirst))
    · exact .inr (.inl ⟨isQuoted, isMatch.keeps_line isHeader isOpening past split calm quoted
        ahead aheadOut unmarkedOut⟩)

theorem headerRule_none_of_quote (isRule : rule ∈ headerRules table)
    (quoted : isQuote (char quote) = true) : matchAt rule.expr prev (quote :: text) = none := by
  simp only [headerRules, List.mem_cons, List.not_mem_nil, or_false] at isRule
  rcases isRule with rfl | rfl | rfl
  · exact nameLed_quotedHeader.none_of_head areNames_header (isNameChar_quote quoted)
  · exact headerLine_none_of_head (quote_facts quoted).1 (isNameChar_quote quoted)
  · exact nameLed_header.none_of_head areNames_header (isNameChar_quote quoted)

/-- What a rule for headers makes of a line: it keeps the line up to the quote, or it takes the
line, and a rule without quotes takes it where it finds a header. -/
theorem headerRule_at_line (isRule : rule ∈ headerRules table) (mem : kind ∈ labelKinds)
    (isHeader : kind.words = headerWords)
    (matchesLabels : MatchesLabels (Char × Bool) table kind rule) (calm : Calm line)
    (quoted : isQuote (char quote) = true) (unmarked : Unmarked line) (ahead : Ahead back) :
    (∃ back', subFrom rule.expr rule.template prev 0 (line ++ quote :: back) =
        line ++ quote :: back' ∧ Ahead back') ∧
      (kind.quoted = false → matchAt rule.expr prev (line ++ quote :: back) = none) ∨
    Unmarked (subFrom rule.expr rule.template prev 0 (line ++ quote :: back)) := by
  induction line generalizing prev with
  | nil =>
      have unmatched : matchAt rule.expr prev (quote :: back) = none :=
        headerRule_none_of_quote isRule quoted
      refine .inl ⟨⟨_, subFrom_copy unmatched, headerRule_ahead isRule ahead⟩, fun _ => unmatched⟩
  | cons glyph line ih =>
      have calm' := calm
      have unmarked' := unmarked
      rw [Calm, List.forall_mem_cons] at calm'
      rw [Unmarked, List.forall_mem_cons] at unmarked'
      cases found : matchAt rule.expr prev (glyph :: (line ++ quote :: back)) with
      | none =>
          rw [List.cons_append, subFrom_copy found]
          refine (@ih (some (char glyph)) calm'.2 unmarked'.2).imp ?_ ?_
          · rintro ⟨⟨back', kept, aheadBack⟩, -⟩
            exact ⟨⟨back', by rw [kept, List.cons_append], aheadBack⟩, fun _ => found⟩
          · exact fun taken => List.forall_mem_cons.mpr ⟨unmarked'.1, taken⟩
      | some final =>
          rcases matchAt_some found with ⟨taken, split, last, ways⟩
          rcases final with ⟨_, rest, groups⟩
          dsimp only at split last ways
          subst last
          have isPattern := mem_patterns_of_headerRules isRule
          have nonempty : taken ≠ [] := by
            rintro rfl
            exact consumes_of_mem isPattern _ _ _ ways
          rw [split] at found
          rw [List.cons_append, split, subFrom_replace nonempty found]
          rcases matchesLabels prev taken rest groups found ways with
            ⟨lead, name, gap, sep, spaces, opening, removed, closing, isMatch⟩
          have split' : taken ++ rest = [] ++ ((glyph :: line) ++ quote :: back) := split.symm
          have start : prev = prev.toList.getLast? := by cases prev <;> rfl
          have unopened : kind.quoted = true → ∀ quote, isQuote quote = true →
              ¬Open table kind quote (prev.toList ++ ([] : List (Char × Bool)).map char) := by
            rintro - quote - ⟨front, value, isPrev, ⟨front', name, gap, sep, spaces, rfl, -⟩, -⟩
            have few : prev.toList.length ≤ 1 := by cases prev <;> simp
            have length := congrArg List.length isPrev
            simp only [List.length_append, List.length_cons, List.map_nil, List.length_nil]
              at length
            omega
          rcases isMatch.line_outcome mem isHeader start unopened split' calm quoted unmarked ahead
            (headerRule_ahead isRule) fun left => left.sub_behind isPattern with
            ⟨front', isFront, -⟩ | ⟨isQuoted, kept⟩ | out
          · rw [eq_comm, List.append_eq_nil_iff] at isFront
            exact absurd isFront.1 nonempty
          · refine .inl ⟨kept, fun notQuoted => ?_⟩
            rw [isQuoted] at notQuoted
            cases notQuoted
          · exact .inr out

/-- The line is behind a text that ends as the text before it did. -/
def KeepsLine (front line : List (Char × Bool)) (quote : Char × Bool) (out : List (Char × Bool)) :
    Prop :=
  ∃ front' back', out = front' ++ (line ++ quote :: back') ∧
    (∀ prev, lastChar prev front' = lastChar prev front) ∧ Unmarked front' ∧ Ahead back'

theorem KeepsLine.prepend {written : List (Char × Bool)} (keeps : KeepsLine front line quote out)
    (same : ∀ prev, lastChar (lastChar prev written) front = lastChar (lastChar prev taken) front)
    (unmarked : Unmarked written) : KeepsLine (taken ++ front) line quote (written ++ out) := by
  rcases keeps with ⟨front', back', rfl, lasts, unmarked', ahead⟩
  refine ⟨written ++ front', back', by simp, fun prev => ?_,
    unmarked_append.mpr ⟨unmarked, unmarked'⟩, ahead⟩
  rw [lastChar_append, lastChar_append, lasts, same]

/-- A match that ends before the line ends with the quote it is written with again, or before
the end of a line. -/
theorem LabelMatch.same_last (isMatch : LabelMatch table kind prev taken rest replacement lead name
      gap sep spaces opening removed closing) (isHeader : kind.words = headerWords)
    (isRest : rest = front ++ (line ++ quote :: back)) (calm : Calm line)
    (quoted : isQuote (char quote) = true) (prev' : Option Char) :
    lastChar (lastChar prev' replacement) front = lastChar (lastChar prev' taken) front := by
  rcases List.eq_nil_or_concat front with rfl | ⟨front, last, rfl⟩
  · rcases isMatch.quotes with ⟨-, noClosing⟩ | ⟨first, last, rfl, rfl, -, same⟩
    · have ends := isMatch.lined isHeader noClosing
      rw [isRest] at ends
      rcases line with _ | ⟨glyph, line⟩
      · have isBreak := ends quote rfl
        rw [notLineBreak_quote quoted] at isBreak
        cases isBreak
      · have isBreak := ends glyph rfl
        rw [(calm glyph (List.mem_cons_self ..)).1] at isBreak
        cases isBreak
    · rw [(isMatch.rewrites isHeader).2.1, isMatch.taken_eq]
      simp [same]
  · simp

theorem LabelMatch.unmarked (isMatch : LabelMatch table kind prev taken rest replacement lead name
      gap sep spaces opening removed closing) (unmarked : Unmarked taken) :
    Unmarked replacement := by
  refine Unmarked.of_origin (fun glyph inLabel => unmarked glyph ?_) isMatch.origin
  rw [isMatch.taken_eq]
  simp only [List.mem_append, List.mem_cons] at inLabel ⊢
  tauto

/-- A rule for headers keeps the line behind a text, or it takes the line. -/
theorem headerRule_line (isRule : rule ∈ headerRules table) (mem : kind ∈ labelKinds)
    (isHeader : kind.words = headerWords)
    (matchesLabels : MatchesLabels (Char × Bool) table kind rule) (calm : Calm line)
    (quoted : isQuote (char quote) = true) {passed : List Char} (reached : prev = passed.getLast?)
    (unopened : kind.quoted = true → ∀ quote, isQuote quote = true →
      ¬Open table kind quote (passed ++ front.map char))
    (unmarkedFront : Unmarked front) (unmarked : Unmarked line) (ahead : Ahead back) :
    KeepsLine front line quote
        (subFrom rule.expr rule.template prev 0 (front ++ (line ++ quote :: back))) ∧
      (kind.quoted = false →
        matchAt rule.expr (lastChar prev front) (line ++ quote :: back) = none) ∨
    Unmarked (subFrom rule.expr rule.template prev 0 (front ++ (line ++ quote :: back))) := by
  have isPattern := mem_patterns_of_headerRules isRule
  induction size : front.length using Nat.strong_induction_on generalizing front prev passed with
  | _ size' ih =>
      subst size
      rcases front with _ | ⟨glyph, front⟩
      · refine (headerRule_at_line isRule mem isHeader matchesLabels calm quoted unmarked
          ahead).imp_left ?_
        rintro ⟨⟨back', kept, aheadBack⟩, unmatched⟩
        exact ⟨⟨[], back', kept, fun _ => rfl, by simp [Unmarked], aheadBack⟩, unmatched⟩
      cases found : matchAt rule.expr prev (glyph :: (front ++ (line ++ quote :: back))) with
      | none =>
          have unmarkedFront' := List.forall_mem_cons.mp unmarkedFront
          rw [List.cons_append, subFrom_copy found]
          have reached' : some (char glyph) = (passed ++ [char glyph]).getLast? := by simp
          refine (ih front.length (by simp) reached' (by simpa using unopened)
            unmarkedFront'.2 rfl).imp ?_ ?_
          · rintro ⟨keeps, unmatched⟩
            have copied : KeepsLine ([glyph] ++ front) line quote ([glyph] ++ _) :=
              keeps.prepend (fun _ => rfl) (by simpa [Unmarked] using unmarkedFront'.1)
            exact ⟨copied, unmatched⟩
          · exact fun taken => List.forall_mem_cons.mpr ⟨unmarkedFront'.1, taken⟩
      | some final =>
          rcases matchAt_some found with ⟨taken, split, last, ways⟩
          rcases final with ⟨_, rest, groups⟩
          dsimp only at split last ways
          subst last
          have nonempty : taken ≠ [] := by
            rintro rfl
            exact consumes_of_mem isPattern _ _ _ ways
          rw [split] at found
          rw [List.cons_append, split, subFrom_replace nonempty found]
          rcases matchesLabels prev taken rest groups found ways with
            ⟨lead, name, gap, sep, spaces, opening, removed, closing, isMatch⟩
          have split' : taken ++ rest = (glyph :: front) ++ (line ++ quote :: back) := split.symm
          rcases isMatch.line_outcome mem isHeader reached unopened split' calm quoted
            (unmarked_append.mpr ⟨unmarkedFront, unmarked⟩) ahead (headerRule_ahead isRule)
            fun left => left.sub_behind isPattern with
            ⟨front', isFront, rfl⟩ | ⟨isQuoted, back', kept, aheadBack⟩ | out
          · have shorter : front'.length < (glyph :: front).length := by
              rw [isFront, List.length_append]
              have positive := List.length_pos_iff.mpr nonempty
              omega
            rw [isFront] at unopened unmarkedFront ⊢
            rw [unmarked_append] at unmarkedFront
            have written := isMatch.unmarked unmarkedFront.1
            have reached' : lastChar prev taken = (passed ++ taken.map char).getLast? := by
              rw [getLast?_append_map, reached]
            rw [lastChar_append]
            refine (ih front'.length shorter reached' (by simpa using unopened) unmarkedFront.2
              rfl).imp ?_ ?_
            · rintro ⟨keeps, unmatched⟩
              exact ⟨keeps.prepend (isMatch.same_last isHeader rfl calm quoted) written, unmatched⟩
            · exact fun taken => unmarked_append.mpr ⟨written, taken⟩
          · refine .inl ⟨⟨_, back', kept, fun _ => rfl, unmarkedFront, aheadBack⟩,
              fun notQuoted => ?_⟩
            rw [isQuoted] at notQuoted
            cases notQuoted
          · exact .inr out

end Rules

section Outcome

variable {table : CharTable} {kind : LabelKind} {rule : Rule} {quote : Char} {key : String}
  {text : List (Char × Bool)}

/-- The line starts with a header at a word boundary. -/
def Heads (table : CharTable) (prev : Option Char) (line : List (Char × Bool)) : Prop :=
  ∃ name gap colon more, line = name ++ (gap ++ colon :: more) ∧ SpellsOneOf headerWords name ∧
    (∀ glyph ∈ gap, isSpace (char glyph) = true) ∧ char colon = ':' ∧
    prev.any table.isWord ≠ name.head?.any fun glyph => table.isWord (char glyph)

/-- A text with a header in it; glyphs of the value stand behind a quote on its line only. -/
def HasLine (table : CharTable) (front text : List (Char × Bool)) : Prop :=
  ∃ line quote back, text = front ++ (line ++ quote :: back) ∧
    Heads table (lastChar none front) line ∧ Calm line ∧ isQuote (char quote) = true ∧
    Unmarked front ∧ Unmarked line ∧ Ahead back

theorem Heads.isMatch {prev : Option Char} {line back : List (Char × Bool)} {quote : Char × Bool}
    (heads : Heads table prev line) (calm : Calm line) (quoted : isQuote (char quote) = true) :
    matchAt (header table).expr prev (line ++ quote :: back) ≠ none := by
  rcases heads with ⟨name, gap, colon, more, rfl, isName, isGap, isColon, boundary⟩
  rcases more with _ | ⟨next, more⟩
  · have split : (name ++ (gap ++ [colon])) ++ quote :: back =
        name ++ (gap ++ colon :: quote :: back) := by simp
    rw [split]
    exact header_matches isName isGap isColon (notLineBreak_quote quoted) boundary
  · have split : (name ++ (gap ++ colon :: next :: more)) ++ quote :: back =
        name ++ (gap ++ colon :: next :: (more ++ quote :: back)) := by simp
    rw [split]
    exact header_matches isName isGap isColon (calm next (by simp)).1 boundary

/-- A rule for headers keeps a header that is in no value, or it takes its line. -/
theorem HasLine.sub {front : List (Char × Bool)} (hasLine : HasLine table front text)
    (isRule : rule ∈ headerRules table) (mem : kind ∈ labelKinds)
    (isHeader : kind.words = headerWords)
    (matchesLabels : MatchesLabels (Char × Bool) table kind rule)
    (unopened : kind.quoted = true → ∀ quote, isQuote quote = true →
      ¬Open table kind quote (front.map char)) :
    (∃ front', HasLine table front' (sub rule.expr rule.template text)) ∨
      Unmarked (sub rule.expr rule.template text) := by
  rcases hasLine with ⟨line, quote, back, rfl, heads, calm, quoted, unmarked, unmarkedLine, ahead⟩
  have start : none = ([] : List Char).getLast? := rfl
  refine (headerRule_line isRule mem isHeader matchesLabels calm quoted start
    (by simpa using unopened) unmarked unmarkedLine ahead).imp_left ?_
  rintro ⟨⟨front', back', kept, lasts, unmarked', ahead'⟩, -⟩
  exact ⟨front', line, quote, back', kept, by rwa [lasts], calm, quoted, unmarked', unmarkedLine,
    ahead'⟩

/-- The rule for headers without quotes takes the line of a header. -/
theorem HasLine.header {front : List (Char × Bool)} (hasLine : HasLine table front text) :
    Unmarked (Regex.sub (header table).expr (header table).template text) := by
  rcases hasLine with ⟨line, quote, back, rfl, heads, calm, quoted, unmarked, unmarkedLine, ahead⟩
  have isRule : Redact.header table ∈ headerRules table := by simp [headerRules]
  have start : none = ([] : List Char).getLast? := rfl
  rcases headerRule_line isRule (by simp [labelKinds]) rfl matchesLabels_header calm quoted start
    (fun isQuoted => by cases isQuoted) unmarked unmarkedLine ahead with ⟨-, unmatched⟩ | taken
  · exact absurd (unmatched rfl) (heads.isMatch calm quoted)
  · exact taken

/-- The text before a field has a header on its last line, in no value of another header. -/
def OnHeaderLine (table : CharTable) (before : List Char) : Prop :=
  ∃ front name gap more, before = front ++ (name ++ (gap ++ ':' :: more)) ∧
    SpellsOneOf headerWords name ∧ (∀ c ∈ gap, isSpace c = true) ∧
    (∀ c ∈ gap ++ more, notLineBreak c = true) ∧
    (front.getLast?.any table.isWord ≠ name.head?.any table.isWord) ∧
    ∀ quote, isQuote quote = true → ¬Open table headerKind quote front

/-- A text is cut at its first quote. -/
theorem exists_first_quote {text : List (Char × Bool)} (quoted : isQuote quote = true) :
    ∃ line first back, text ++ [ofChar quote] = line ++ first :: back ∧
      (∀ glyph ∈ line, isQuote (char glyph) = false) ∧ isQuote (char first) = true := by
  induction text with
  | nil => exact ⟨[], ofChar quote, [], rfl, by simp, by rwa [char_ofChar]⟩
  | cons glyph text ih =>
      cases isFirst : isQuote (char glyph) with
      | true => exact ⟨[], glyph, text ++ [ofChar quote], rfl, by simp, isFirst⟩
      | false =>
          rcases ih with ⟨line, first, back, split, unquoted, isFirst'⟩
          exact ⟨glyph :: line, first, back, by rw [List.cons_append, split, List.cons_append],
            List.forall_mem_cons.mpr ⟨isFirst, unquoted⟩, isFirst'⟩

theorem notLineBreak_of_isNameChar {c : Char} (isName : isNameChar c = true) :
    notLineBreak c = true :=
  notLineBreak_of_isGenericValue (isGenericValue_of_isAmiValue (isAmiValue_of_isNameChar isName))

theorem not_quote_of_isNameChar {c : Char} (isName : isNameChar c = true) : isQuote c = false :=
  (isGenericValue_facts (isGenericValue_of_isAmiValue (isAmiValue_of_isNameChar isName))).2.1

/-- A field on the line of a header. -/
theorem OnHeaderLine.hasLine {before : List Char} {value : List (Char × Bool)}
    (onHeaderLine : OnHeaderLine table before) (mem : key ∈ secretKeys)
    (quoted : isQuote quote = true)
    (inLine : ∀ glyph ∈ value, notLineBreak (char glyph) = true) (after : List Char) :
    ∃ front, HasLine table front (before.map ofChar ++
        (label quote key ++ (value ++ ofChar quote :: after.map ofChar))) ∧
      ∀ quote, isQuote quote = true → ¬Open table headerKind quote (front.map char) := by
  rcases onHeaderLine with ⟨front, name, gap, more, rfl, isName, isGap, oneLine, boundary, unopened⟩
  rcases @exists_first_quote quote (more.map ofChar) quoted with
    ⟨line, first, back, split, unquoted, isFirst⟩
  have oneLine' : ∀ glyph ∈ line ++ first :: back, notLineBreak (char glyph) = true := by
    rw [← split]
    simp only [List.forall_mem_append, List.forall_mem_map, List.forall_mem_cons, char_ofChar]
    exact ⟨(List.forall_mem_append.mp oneLine).2, notLineBreak_quote quoted, by simp⟩
  have unmarkedLine : Unmarked (line ++ first :: back) := by
    rw [← split]
    exact unmarked_append.mpr ⟨unmarked_map_ofChar more, unmarked_map_ofChar [quote]⟩
  rw [List.forall_mem_append, List.forall_mem_cons] at oneLine'
  rcases (isName.isNameChar areNames_header) with ⟨-, nameChars⟩
  refine ⟨front.map ofChar, ⟨name.map ofChar ++ (gap.map ofChar ++ ofChar ':' :: line), first,
    back ++ (keyTail quote key ++ (value ++ ofChar quote :: after.map ofChar)), ?_, ?_, ?_, isFirst,
    unmarked_map_ofChar front, ?_, ?_⟩, by simpa using unopened⟩
  · have start : (front ++ (name ++ (gap ++ ':' :: more))).map (ofChar (α := Char × Bool)) ++
        [ofChar quote] = front.map ofChar ++ ((name.map ofChar ++
          (gap.map ofChar ++ ofChar ':' :: line)) ++ first :: back) := by
      simp only [List.map_append, List.map_cons, List.append_assoc, List.cons_append, split]
    have behind : ∀ text : List (Char × Bool), ofChar quote :: text = [ofChar quote] ++ text :=
      fun _ => rfl
    rw [label_append, behind, ← List.append_assoc, start]
    simp
  · refine ⟨name.map ofChar, gap.map ofChar, ofChar ':', line, rfl, ?_, ?_, char_ofChar _, ?_⟩
    · rcases isName with ⟨word, isWord, spells⟩
      exact ⟨word, isWord, by simpa [Spells, List.forall₂_map_right_iff] using spells⟩
    · simpa using isGap
    · have isLast := getLast?_append_map [] (front.map (ofChar (α := Char × Bool)))
      rw [List.nil_append, List.map_map, char_comp_ofChar, List.map_id, List.getLast?_nil] at isLast
      rw [← isLast, List.head?_map, Option.any_map]
      simpa [Function.comp_def] using boundary
  · simp only [Calm, List.forall_mem_append, List.forall_mem_map, List.forall_mem_cons,
      char_ofChar]
    refine ⟨fun c inName => ?_, fun c inGap => ?_, ⟨by decide, by decide⟩, fun glyph inMore => ?_⟩
    · exact ⟨notLineBreak_of_isNameChar (nameChars c inName),
        not_quote_of_isNameChar (nameChars c inName)⟩
    · exact ⟨(List.forall_mem_append.mp oneLine).1 c inGap, isQuote_space (isGap c inGap)⟩
    · exact ⟨oneLine'.1 glyph inMore, unquoted glyph inMore⟩
  · rw [unmarked_append] at unmarkedLine
    simp only [unmarked_append]
    exact ⟨unmarked_map_ofChar name, unmarked_map_ofChar gap,
      List.forall_mem_cons.mpr ⟨rfl, unmarkedLine.1⟩⟩
  · refine Ahead.prepend oneLine'.2.2 (.prepend ?_ (.prepend inLine (Unmarked.ahead ?_)))
    · simp only [keyTail, List.map_append, List.map_cons, List.map_nil, List.forall_mem_append,
        List.forall_mem_map, List.forall_mem_cons, char_ofChar]
      refine ⟨fun c inKey => ?_, notLineBreak_quote quoted, by decide, notLineBreak_quote quoted,
        by simp⟩
      exact notLineBreak_of_isGenericValue (key_chars mem c inKey).1
    · exact List.forall_mem_cons.mpr ⟨rfl, unmarked_map_ofChar after⟩

end Outcome

section Quoted

variable {table : CharTable} {quote : Char} {key : String}

/-- A match that starts before the field and ends behind it has no glyph of the value in its
label. -/
theorem LabelMatch.unmarked_label {kind : LabelKind} {prev : Option Char}
    {taken rest replacement lead name gap spaces opening removed closing inside others :
      List (Char × Bool)} {sep : Char × Bool}
    (isMatch : LabelMatch table kind prev taken rest replacement lead name gap sep spaces opening
      removed closing) (isKind : kind ∈ labelKinds) (mem : key ∈ secretKeys)
    (quoted : isQuote quote = true) (nonempty : inside ≠ []) (unmarked : Unmarked inside)
    (split : taken = inside ++ ofChar quote :: (keyTail quote key ++ others)) :
    Unmarked replacement := by
  rcases @exists_key table key mem with ⟨letter, letters, isKey, isWord⟩
  have isTail : (keyTail quote key ++ others : List (Char × Bool)) =
      ofChar letter :: ((letters ++ [quote, ':', quote]).map ofChar ++ others) := by
    rw [keyTail, isKey]
    rfl
  refine Unmarked.of_origin (fun glyph inLabel => ?_) isMatch.origin
  rw [isTail] at split
  have whole : inside ++ ofChar quote :: ofChar letter ::
      (((letters ++ [quote, ':', quote]).map ofChar ++ others) ++ rest) = taken ++ rest := by
    simp [split]
  rcases isMatch.outcome isKind nonempty (by rwa [char_ofChar]) (by rwa [char_ofChar]) whole with
    ⟨behind, isInside, -⟩ | ⟨-, isInside⟩ | ⟨inner, beyond, isInside, -⟩
  · have length := congrArg List.length isInside
    rw [split] at length
    simp only [List.length_append, List.length_cons] at length
    omega
  · have inInside : ∀ glyph ∈ lead ++ (name ++ (gap ++ sep :: spaces)), glyph.2 = false := by
      rw [← isInside]
      exact unmarked
    rcases isMatch.quotes with ⟨rfl, -⟩ | ⟨first, last, rfl, -⟩
    · rw [List.append_nil] at inLabel
      exact inInside glyph inLabel
    · have starts : inside ++ ofChar quote :: (ofChar letter ::
          ((letters ++ [quote, ':', quote]).map ofChar ++ others)) =
            inside ++ first :: (removed ++ closing) := by
        rw [← split, isInside, isMatch.taken_eq]
        simp
      rw [List.append_cancel_left_eq, List.cons.injEq] at starts
      have label_eq : lead ++ (name ++ (gap ++ sep :: (spaces ++ [first]))) =
          (lead ++ (name ++ (gap ++ sep :: spaces))) ++ [first] := by simp
      rw [label_eq, List.mem_append, List.mem_singleton] at inLabel
      rcases inLabel with inLabel | rfl
      · exact inInside glyph inLabel
      · rw [← starts.1]
        rfl
  · refine unmarked glyph ?_
    rw [isInside]
    simp only [List.mem_append, List.mem_cons] at inLabel ⊢
    tauto

end Quoted

end Redact

end Asmb8Ikvm
