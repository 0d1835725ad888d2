import Asmb8Ikvm.Redact

/-!
# Known secrets

A secret that is handed to `redact` does not occur in what it shows, provided
the secret cannot be part of a replacement. The replacements split the text:
what is kept of it on either side of one is a part of the text as it was, and a
secret cannot lie across `[REDACTED]`. So no stage creates an occurrence, and
the literal replacement of a secret leaves none.
-/

namespace Asmb8Ikvm

open PyText Regex

namespace Redact

section Factors

variable {w left right : List Char}

/-- A text that a replacement cannot contain a part of. -/
structure Opaque (w : List Char) : Prop where
  nonempty : w ≠ []
  absent : ∀ c ∈ w, c ∉ ['[', ']', '<', '>', '/']
  notMark : ¬ w <:+: "REDACTED".toList

/-- Such a text does not lie across a mark. -/
theorem Opaque.infix_append_mark (secret : Opaque w)
    (occurs : w <:+: left ++ (redacted.toList ++ right)) : w <:+: left ∨ w <:+: right := by
  have opening : '[' ∉ w := fun mem => secret.absent _ mem (by decide)
  have closing : ']' ∉ w := fun mem => secret.absent _ mem (by decide)
  have mark : redacted.toList ++ right = '[' :: ("REDACTED".toList ++ ']' :: right) := rfl
  rw [mark] at occurs
  rcases infix_append_cons opening occurs with inLeft | occurs
  · exact .inl inLeft
  · rcases infix_append_cons closing occurs with inMark | inRight
    · exact absurd inMark secret.notMark
    · exact .inr inRight

end Factors

section Literal

variable {w old new : List Char}

theorem startsWith_eq_iff {text : List Char} :
    startsWith (fun a b => a == b) old text = true ↔ old <+: text := by
  rw [startsWith_iff]
  constructor
  · rintro ⟨taken, rest, rfl, spells⟩
    have same : taken = old := by simpa using spells_beq_iff.mp spells
    exact ⟨rest, by rw [same]⟩
  · rintro ⟨rest, rfl⟩
    exact ⟨old, rest, rfl, spells_beq_iff.mpr (map_char _)⟩

theorem replaceFrom_skip (taken rest : List Char) :
    replaceFrom old new taken.length (taken ++ rest) = replaceFrom old new 0 rest := by
  induction taken with
  | nil => rfl
  | cons c taken ih => exact ih

/-- The induction over the places a replacement comes to. -/
theorem replaceFrom_induction {motive : List Char → List Char → Prop} (nonempty : old ≠ [])
    (nil : motive [] [])
    (copy : ∀ c rest, ¬ old <+: c :: rest → motive rest (replaceFrom old new 0 rest) →
      motive (c :: rest) (c :: replaceFrom old new 0 rest))
    (replace : ∀ rest, motive rest (replaceFrom old new 0 rest) →
      motive (old ++ rest) (new ++ replaceFrom old new 0 rest))
    (text : List Char) : motive text (replaceFrom old new 0 text) := by
  induction size : text.length using Nat.strong_induction_on generalizing text with
  | _ size' ih =>
      subst size
      rcases text with _ | ⟨c, rest⟩
      · exact nil
      · by_cases starts : old <+: c :: rest
        · rcases old with _ | ⟨head, tail⟩
          · exact absurd rfl nonempty
          · rcases starts with ⟨rest', split⟩
            rw [List.cons_append, List.cons.injEq] at split
            rcases split with ⟨rfl, rfl⟩
            have replaced : replaceFrom (head :: tail) new 0 (head :: (tail ++ rest')) =
                new ++ replaceFrom (head :: tail) new 0 rest' := by
              have starts : startsWith (fun a b => a == b) (head :: tail)
                  (head :: (tail ++ rest')) = true := startsWith_eq_iff.mpr ⟨rest', rfl⟩
              rw [replaceFrom, if_pos starts, List.length_cons, Nat.add_sub_cancel,
                replaceFrom_skip, map_ofChar]
            rw [replaced]
            exact replace rest' (ih _ (by simp) _ rfl)
        · rw [replaceFrom, if_neg (mt startsWith_eq_iff.mp starts)]
          exact copy c rest starts (ih _ (by simp) _ rfl)

/-- Replacing a text by the mark creates no occurrence of a secret. -/
theorem not_infix_replaceFrom (secret : Opaque w) (nonempty : old ≠ []) {text : List Char}
    (absent : ¬ w <:+: text) : ¬ w <:+: replaceFrom old redacted.toList 0 text := by
  have general : ∀ kept, ¬ w <:+: kept ++ text →
      ¬ w <:+: kept ++ replaceFrom old redacted.toList 0 text := by
    refine replaceFrom_induction
      (motive := fun text out => ∀ kept, ¬ w <:+: kept ++ text → ¬ w <:+: kept ++ out)
      nonempty ?_ ?_ ?_ text
    · intro kept absent
      exact absent
    · intro c rest _ ih kept absent
      have shifted := ih (kept ++ [c])
      simp only [List.append_assoc, List.singleton_append] at shifted
      exact shifted absent
    · intro rest ih kept absent occurs
      rcases secret.infix_append_mark occurs with inKept | inRest
      · exact absent (inKept.trans List.infix_append_left)
      · refine ih [] ?_ inRest
        intro inRest
        exact absent (inRest.trans ⟨kept ++ old, [], by simp⟩)
  simpa using general [] (by simpa using absent)

/-- Replacing a secret by the mark leaves no occurrence of it. -/
theorem not_infix_replaceFrom_self (secret : Opaque w) (text : List Char) :
    ¬ w <:+: replaceFrom w redacted.toList 0 text := by
  have general : ∀ kept, (∀ front back, kept = front ++ back → back ≠ [] →
      ¬ w <+: back ++ text) → ¬ w <:+: kept ++ replaceFrom w redacted.toList 0 text := by
    have unstarted : ∀ kept text, (∀ front back, kept = front ++ back → back ≠ [] →
        ¬ w <+: back ++ text) → ¬ w <:+: kept := by
      intro kept text starts occurs
      rcases occurs with ⟨front, back, rfl⟩
      refine starts front (w ++ back) (List.append_assoc _ _ _) ?_ ?_
      · simp [secret.nonempty]
      · rw [List.append_assoc]
        exact List.prefix_append _ _
    refine replaceFrom_induction
      (motive := fun text out => ∀ kept, (∀ front back, kept = front ++ back → back ≠ [] →
        ¬ w <+: back ++ text) → ¬ w <:+: kept ++ out)
      secret.nonempty ?_ ?_ ?_ text
    · intro kept starts
      rw [List.append_nil]
      exact unstarted kept [] starts
    · intro c rest notHere ih kept starts
      have shifted := ih (kept ++ [c])
      simp only [List.append_assoc, List.singleton_append] at shifted
      refine shifted ?_
      intro front back split nonempty
      rcases List.eq_nil_or_concat back with rfl | ⟨back, last, rfl⟩
      · exact absurd rfl nonempty
      · rw [List.concat_eq_append, ← List.append_assoc] at split
        have parts := List.append_inj' split rfl
        rcases parts with ⟨rfl, same⟩
        cases same
        rw [List.concat_eq_append, List.append_assoc, List.singleton_append]
        by_cases empty : back = []
        · rw [empty]
          exact notHere
        · exact starts front back rfl empty
    · intro rest ih kept starts occurs
      rcases secret.infix_append_mark occurs with inKept | inRest
      · exact unstarted kept _ starts inKept
      · refine ih [] ?_ inRest
        intro front back split nonempty
        exact absurd (List.append_eq_nil_iff.mp split.symm).2 nonempty
  simpa using general [] (by
    intro front back split nonempty
    exact absurd (List.append_eq_nil_iff.mp split.symm).2 nonempty)

end Literal

section Patterns

variable {w : List Char} {table : CharTable}

/-- What a rule makes of a match: a part of it in front, the mark, and either the end of it
or text that is as free of `w` as the match and ends with a character that is not in `w`. -/
def Masks (w : List Char) (rule : Rule) : Prop :=
  ∀ prev (taken rest : List Char) groups,
    Ways rule.expr prev (fun _ => []) taken rest groups →
    ∃ kept closing, expand groups rule.template = kept ++ (redacted.toList ++ closing) ∧
      kept <+: taken ∧
      (closing <:+ taken ∨ ∃ body last, closing = body ++ [last] ∧ last ∉ w ∧
        (w <:+: body → w <:+: taken))

/-- A rule that masks creates no occurrence of a secret. -/
theorem not_infix_sub (secret : Opaque w) {rule : Rule} (consumes : Consumes Char rule.expr)
    (masks : Masks w rule) {text : List Char} (absent : ¬ w <:+: text) :
    ¬ w <:+: sub rule.expr rule.template text := by
  have general : ∀ kept, ¬ w <:+: kept ++ text →
      ¬ w <:+: kept ++ subFrom rule.expr rule.template none 0 text := by
    refine subFrom_induction
      (motive := fun _ text out => ∀ kept, ¬ w <:+: kept ++ text → ¬ w <:+: kept ++ out)
      consumes ?_ ?_ ?_ none text
    · intro prev kept absent
      exact absent
    · intro prev c rest _ ih kept absent
      have shifted := ih (kept ++ [c])
      simp only [List.append_assoc, List.singleton_append] at shifted
      exact shifted absent
    · intro prev taken rest groups _ _ ways ih before absent occurs
      rcases masks prev taken rest groups ways with ⟨kept, closing, expanded, isPrefix, isEnd⟩
      rw [expanded, List.append_assoc, ← List.append_assoc, List.append_assoc _ closing] at occurs
      rcases secret.infix_append_mark occurs with inKept | inRest
      · rcases isPrefix with ⟨removed, rfl⟩
        exact absent (inKept.trans ⟨[], removed ++ rest, by simp⟩)
      · rcases isEnd with ⟨removed, rfl⟩ | ⟨body, last, rfl, notInSecret, reflects⟩
        · refine ih closing ?_ inRest
          intro inClosing
          exact absent (inClosing.trans ⟨before ++ removed, [], by simp⟩)
        · rw [List.append_assoc, List.singleton_append] at inRest
          rcases infix_append_cons notInSecret inRest with inBody | inRest
          · exact absent ((reflects inBody).trans ⟨before, rest, by simp⟩)
          · refine ih [] ?_ inRest
            intro inRest
            exact absent (inRest.trans ⟨before ++ taken, [], by simp⟩)
  exact general [] absent

theorem closing_eq {quote closing : List Char} (isQuote : OptQuote quote)
    (spells : Spells sameFolded (quote.map char) closing) : closing = quote := by
  rcases isQuote with rfl | ⟨c, isQuote, rfl⟩
  · exact List.forall₂_nil_left_iff.mp spells
  · rcases spells_singleton.mp spells with ⟨c', folded, rfl⟩
    have folded : foldCase c = foldCase c' := by simpa [sameFolded] using folded
    simp only [Redact.isQuote, Bool.or_eq_true, beq_iff_eq] at isQuote
    rcases isQuote with same | same
    · have same : c = '\'' := same
      subst same
      exact congrArg (fun c => [c]) (eq_of_foldCase_eq folded.symm (by decide))
    · have same : c = '"' := same
      subst same
      exact congrArg (fun c => [c]) (eq_of_foldCase_eq folded.symm (by decide))

theorem symbol_eq {symbol : Char} {glyphs : List Char} (notLower : symbol.isLower = false)
    (fixed : foldCase symbol = symbol) (spells : Spells sameLetter [symbol] glyphs) :
    glyphs = [symbol] := by
  rcases spells_singleton.mp spells with ⟨c, same, rfl⟩
  have notI : symbol ≠ 'i' := by
    rintro rfl
    cases notLower
  have notS : symbol ≠ 's' := by
    rintro rfl
    cases notLower
  simp only [sameLetter, fixed, Bool.or_eq_true, Bool.and_eq_true, beq_iff_eq, notI, notS,
    false_and, or_false] at same
  exact congrArg (fun c => [c]) (eq_of_foldCase_eq same notLower)

theorem masks_of_mem (secret : Opaque w) {rule : Rule} (mem : rule ∈ patterns table) :
    Masks w rule := by
  intro prev taken rest groups ways
  simp only [patterns, List.mem_cons, List.not_mem_nil, or_false] at mem
  rcases mem with rfl | rfl | rfl | rfl | rfl | rfl | rfl
  · rcases quotedHeader_ways ways with ⟨name, sep, quote, body, closing, rfl, group1, group2,
      group3, -, -, isQuote, isClosing, -⟩
    have same := closing_eq (.inr isQuote) isClosing
    refine ⟨name ++ (sep ++ quote), quote, ?_, ⟨body ++ closing, by simp⟩,
      .inl ⟨name ++ (sep ++ (quote ++ body)), by simp [same]⟩⟩
    simp [quotedHeader, expand, mark, group1, group2, group3]
  · rcases headerLine_ways ways with ⟨spaces, name, sep, value, rfl, group1, group2, group3, -⟩
    refine ⟨spaces ++ (name ++ sep), [], ?_, ⟨value, by simp⟩, .inl (List.nil_suffix)⟩
    simp [headerLine, expand, mark, group1, group2, group3]
  · rcases header_ways ways with ⟨name, sep, value, rfl, group1, group2, -⟩
    refine ⟨name ++ sep, [], ?_, ⟨value, by simp⟩, .inl (List.nil_suffix)⟩
    simp [header, expand, mark, group1, group2]
  · rcases amiSecret_ways ways with ⟨quote, name, quote', sep, opening, value, closing, rfl,
      group1, group2, group3, group4, isQuote, -, isQuote', -, isOpening, -, isClosing⟩
    have same := closing_eq isQuote isQuote'
    have same' := closing_eq isOpening isClosing
    refine ⟨quote ++ (name ++ (quote ++ (sep ++ opening))), opening, ?_,
      ⟨value ++ closing, by simp [same]⟩,
      .inl ⟨quote ++ (name ++ (quote' ++ (sep ++ (opening ++ value)))), by simp [same']⟩⟩
    simp [amiSecret, expand, mark, group1, group2, group3, group4]
  · rcases genericSecret_ways ways with ⟨name, sep, opening, value, closing, rfl, group1,
      group2, group3, -, -, isOpening, -, isClosing, -⟩
    have same := closing_eq isOpening isClosing
    refine ⟨name ++ (sep ++ opening), opening, ?_, ⟨value ++ closing, by simp⟩,
      .inl ⟨name ++ (sep ++ (opening ++ value)), by simp [same]⟩⟩
    simp [genericSecret, expand, mark, group1, group2, group3]
  · rcases xmlElement_ways ways with ⟨less, tag, greater, body, close, tag', greater', rfl,
      group1, isLess, isGreater, -⟩
    have less_eq := symbol_eq rfl rfl isLess
    have greater_eq := symbol_eq rfl rfl isGreater
    have notIn (c : Char) (symbol : c ∈ ['[', ']', '<', '>', '/']) : c ∉ w :=
      fun mem => secret.absent c mem symbol
    refine ⟨'<' :: (tag ++ ['>']), ('<' :: '/' :: tag) ++ ['>'], ?_,
      ⟨body ++ (close ++ (tag' ++ greater')), by simp [less_eq, greater_eq]⟩,
      .inr ⟨_, '>', rfl, notIn _ (by decide), ?_⟩⟩
    · simp [xmlElement, expand, mark, group1]
    · intro occurs
      have inTag : w <:+: tag :=
        infix_of_infix_cons secret.nonempty (notIn '/' (by decide))
          (infix_of_infix_cons secret.nonempty (notIn '<' (by decide)) occurs)
      exact inTag.trans ⟨less, greater ++ (body ++ (close ++ (tag' ++ greater'))), by simp⟩
  · rcases urlUserinfo_ways ways with ⟨scheme, user, colon, pass, at', rfl, group1, group2,
      isColon, isAt, -⟩
    have colon_eq := symbol_eq rfl rfl isColon
    have at_eq := symbol_eq rfl rfl isAt
    refine ⟨scheme ++ (user ++ [':']), ['@'], ?_, ⟨pass ++ at', by simp [colon_eq]⟩,
      .inl ⟨scheme ++ (user ++ (colon ++ pass)), by simp [at_eq]⟩⟩
    simp [urlUserinfo, expand, mark, group1, group2]

end Patterns

section Known

variable {w : List Char} {table : CharTable} {extraSecrets : List (Option String)}

theorem mem_knownSecrets {secret : String} :
    secret ∈ knownSecrets extraSecrets ↔ some secret ∈ extraSecrets ∧ secret ≠ "" := by
  rw [knownSecrets, List.mem_insertionSort, List.mem_dedup, List.mem_filter,
    List.reduceOption_mem_iff, decide_eq_true_eq]

theorem not_infix_foldl_replaceFrom (secret : Opaque w) {known : List String}
    (nonempty : ∀ other ∈ known, other.toList ≠ []) {text : List Char}
    (removed : ¬ w <:+: text ∨ ∃ other ∈ known, other.toList = w) :
    ¬ w <:+: known.foldl
      (fun result other => replaceFrom other.toList redacted.toList 0 result) text := by
  induction known generalizing text with
  | nil => simpa using removed
  | cons other known ih =>
      rw [List.forall_mem_cons] at nonempty
      refine ih nonempty.2 ?_
      rcases removed with absent | ⟨same, mem, rfl⟩
      · exact .inl (not_infix_replaceFrom secret nonempty.1 absent)
      · rcases List.mem_cons.mp mem with rfl | mem
        · exact .inl (not_infix_replaceFrom_self secret text)
        · exact .inr ⟨same, mem, rfl⟩

theorem not_infix_foldl_sub (secret : Opaque w) {rules : List Rule}
    (known : ∀ rule ∈ rules, rule ∈ patterns table) {text : List Char}
    (absent : ¬ w <:+: text) :
    ¬ w <:+: rules.foldl (fun result rule => sub rule.expr rule.template result) text := by
  induction rules generalizing text with
  | nil => exact absent
  | cons rule rules ih =>
      rw [List.forall_mem_cons] at known
      exact ih known.2 (not_infix_sub secret (consumes_of_mem known.1)
        (masks_of_mem secret known.1) absent)

/-- The literal replacements and the substitutions leave no known secret. -/
theorem not_infix_redactAll (secret : Opaque w)
    (known : ∃ other, some other ∈ extraSecrets ∧ other.toList = w) (text : List Char) :
    ¬ w <:+: redactAll table text extraSecrets := by
  refine not_infix_foldl_sub secret (fun _ mem => mem) ?_
  refine not_infix_foldl_replaceFrom secret ?_ (.inr ?_)
  · intro other mem
    simpa using (mem_knownSecrets.mp mem).2
  · rcases known with ⟨other, mem, rfl⟩
    exact ⟨other, mem_knownSecrets.mpr ⟨mem, by simpa using secret.nonempty⟩, rfl⟩

theorem take_truncate (result : List Char) :
    (truncate result).take maxDiagnosticBytes = result.take maxDiagnosticBytes := by
  unfold truncate
  split_ifs with long
  · rw [List.take_append_of_le_length (by rw [List.length_take]; omega), List.take_take, min_self]
  · rfl

end Known

end Redact

open Redact

/-- No secret that `redact` is given occurs in what it shows before the remark on the cut. -/
theorem redact_hides_known_secrets (table : CharTable) (text : String)
    (extraSecrets : List (Option String))
    (isOpaque : ∀ secret, some secret ∈ extraSecrets → Opaque secret.toList) :
    ∀ secret, some secret ∈ extraSecrets →
      ¬ secret.toList <:+: (redact table text extraSecrets).toList.take maxDiagnosticBytes := by
  intro secret mem occurs
  rw [redact, String.toList_ofList, redactGlyphs, take_truncate] at occurs
  exact not_infix_redactAll (isOpaque secret mem) ⟨secret, mem, rfl⟩ text.toList
    (occurs.trans (List.take_prefix _ _).isInfix)

/-- Two secrets, one inside the other, behind a label. -/
theorem redact_hides_overlapping_secrets :
    ¬ "abc123extra".toList <:+:
      (redact asciiTable "token=abc123extra" [some "abc123", none, some "abc123extra"]).toList.take
        maxDiagnosticBytes := by
  refine redact_hides_known_secrets asciiTable _ _ ?_ "abc123extra" (by decide)
  intro secret mem
  simp only [List.mem_cons, Option.some.injEq, reduceCtorEq, List.not_mem_nil, or_false,
    false_or] at mem
  rcases mem with rfl | rfl
  · exact ⟨by decide, by simp, by decide +kernel⟩
  · exact ⟨by decide, by simp, by decide +kernel⟩

end Asmb8Ikvm
