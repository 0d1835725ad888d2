import Asmb8Ikvm.Redact.Clear

/-!
# Fields and their values

What `redact` makes of a field, rule by rule. The rules for headers leave a
plain field as it is or take all of it, the rule for the key masks the value, and
no rule brings a removed glyph back.
-/

namespace Asmb8Ikvm

open PyText Regex

namespace Redact

section Stages

variable {table : CharTable} {quote : Char} {key : String} {kind : LabelKind} {rule : Rule}
  {before value value' after : List (Char × Bool)}

/-- No glyph of the text comes from the value. -/
def Unmarked (text : List (Char × Bool)) : Prop :=
  ∀ glyph ∈ text, glyph.2 = false

theorem Unmarked.of_origin {text text' : List (Char × Bool)} (unmarked : Unmarked text)
    (origin : ∀ glyph ∈ text', glyph ∈ text ∨ ∃ c, glyph = ofChar c) : Unmarked text' := by
  intro glyph mem
  rcases origin glyph mem with inText | ⟨c, rfl⟩
  · exact unmarked glyph inText
  · rfl

theorem Unmarked.sub {rule : Rule} (mem : rule ∈ patterns table) {text : List (Char × Bool)}
    (unmarked : Unmarked text) : Unmarked (sub rule.expr rule.template text) :=
  unmarked.of_origin fun _ inText => mem_subFrom (consumes_of_mem mem) inText

theorem Unmarked.sub_behind {rule : Rule} (mem : rule ∈ patterns table)
    {text : List (Char × Bool)} {prev : Option Char} (unmarked : Unmarked text) :
    Unmarked (subFrom rule.expr rule.template prev 0 text) :=
  unmarked.of_origin fun _ inText => mem_subFrom (consumes_of_mem mem) inText

theorem unmarked_append {left right : List (Char × Bool)} :
    Unmarked (left ++ right) ↔ Unmarked left ∧ Unmarked right :=
  List.forall_mem_append

theorem unmarked_map_ofChar (text : List Char) :
    Unmarked (text.map (ofChar (α := Char × Bool))) := by
  intro glyph mem
  rcases List.mem_map.mp mem with ⟨c, -, rfl⟩
  rfl

theorem Unmarked.truncate {text : List (Char × Bool)} (unmarked : Unmarked text) :
    Unmarked (truncate text) := by
  unfold Asmb8Ikvm.truncate
  split_ifs
  · rw [unmarked_append]
    exact ⟨fun glyph mem => unmarked glyph (List.mem_of_mem_take mem), unmarked_map_ofChar _⟩
  · exact unmarked

/-- A text with a field in it: before it unmarked text that takes nothing of the field, after it
unmarked text. -/
def HasField (table : CharTable) (quote : Char) (key : String)
    (value text : List (Char × Bool)) : Prop :=
  ∃ before after, text = before ++ (label quote key ++ (value ++ ofChar quote :: after)) ∧
    Clear table quote key (before.map char) ∧ Unmarked before ∧ Unmarked after

theorem exists_key (mem : key ∈ secretKeys) :
    ∃ letter letters, key.toList = letter :: letters ∧ table.isWord letter = true := by
  have checked : (secretKeys.all fun key => key.toList.head?.any fun c =>
      (c.isAlphanum || c == '_') && decide (c.toNat < 128)) = true := by decide
  have first := List.all_eq_true.mp checked key mem
  generalize key.toList = letters at first ⊢
  rcases letters with _ | ⟨c, letters⟩
  · cases first
  · simp only [List.head?_cons, Option.any_some, Bool.and_eq_true, decide_eq_true_eq] at first
    exact ⟨c, letters, rfl, by rw [table.isWord_ascii first.2, first.1]⟩

/-- A rule for labels comes to a field past the text before it. -/
theorem MatchesLabels.passed_field (matchesLabels : MatchesLabels (Char × Bool) table kind rule)
    (isKind : kind ∈ labelKinds) (isRule : rule ∈ patterns table) (mem : key ∈ secretKeys)
    (quoted : isQuote quote = true) (calm : ∀ glyph ∈ value, Crossed kind quote (char glyph))
    (unbare : kind.quoted = true → ¬Bare table kind (before.map char)) :
    Passed table kind rule none [] [] before (ofChar quote)
      (keyTail quote key ++ (value ++ ofChar quote :: after)) after := by
  rcases @exists_key table key mem with ⟨letter, letters, isKey, isWord⟩
  have isTail : (keyTail quote key : List (Char × Bool)) =
      ofChar letter :: (letters ++ [quote, ':', quote]).map ofChar := by
    rw [keyTail, isKey]
    rfl
  have quoteCrossed : Crossed kind quote quote := ⟨notLineBreak_quote quoted, fun _ _ => rfl⟩
  have tailCrossed : ∀ glyph ∈ (keyTail quote key : List (Char × Bool)),
      Crossed kind quote (char glyph) := by
    have chars := key_chars mem
    simp only [keyTail, List.map_append, List.map_cons, List.map_nil, List.forall_mem_append,
      List.forall_mem_map, List.forall_mem_cons, char_ofChar]
    refine ⟨fun c inKey => ?_, quoteCrossed, ⟨by decide, fun _ isQuote => by cases isQuote⟩,
      quoteCrossed, by simp⟩
    have facts := (chars c inKey).1
    refine ⟨notLineBreak_of_isGenericValue facts, fun _ isQuote => ?_⟩
    rw [(isGenericValue_facts facts).2.1] at isQuote
    cases isQuote
  have quoted' : isQuote (char (ofChar quote : Char × Bool)) = true := by rwa [char_ofChar]
  have isWord' : table.isWord (char (ofChar letter : Char × Bool)) = true := by rwa [char_ofChar]
  have isText : (ofChar letter : Char × Bool) :: ((letters ++ [quote, ':', quote]).map ofChar ++
      (value ++ ofChar quote :: after)) =
        (keyTail quote key ++ (value ++ [ofChar quote])) ++ after := by
    simp [isTail]
  rw [isTail, List.cons_append]
  refine matchesLabels.passed (consumes_of_mem isRule) isKind quoted' isWord' isText ?_
    List.getLast?_nil.symm (by simp) (by simpa using unbare) (fun _ _ => id) fun _ => id
  simp only [List.forall_mem_append, List.forall_mem_cons, char_ofChar]
  exact ⟨tailCrossed, calm, quoteCrossed, by simp⟩

theorem eq_ofChar {glyph : Char × Bool} (isQuote : char glyph = quote)
    (unmarked : glyph.2 = false) :
    glyph = ofChar quote :=
  Prod.ext isQuote unmarked

/-- A rule that copies the field leaves it, or has taken it with a match from the text before. -/
theorem HasField.of_passed {tail : List (Char × Bool)}
    (passed : Passed table kind rule none [] [] before (ofChar quote) tail after)
    (clear : Clear table quote key (before.map char)) (unmarked : Unmarked before)
    (unmarked' : Unmarked after)
    (copied : ∀ prev, matchAt rule.expr prev (ofChar quote :: tail) = none)
    (kept : ∃ after', subFrom rule.expr rule.template (some quote) 0 tail =
      keyTail quote key ++ (value' ++ ofChar quote :: after') ∧ Unmarked after')
    (isHeader : key ∈ amiSecretNames → kind.words = headerWords) :
    HasField table quote key value'
        (sub rule.expr rule.template (before ++ ofChar quote :: tail)) ∨
      Unmarked (sub rule.expr rule.template (before ++ ofChar quote :: tail)) := by
  rcases kept with ⟨after', kept, unmarkedAfter⟩
  unfold sub
  cases passed with
  | arrives written same _ origin bare isOpen =>
      refine .inl ⟨written, after', ?_, ?_, unmarked.of_origin origin, unmarkedAfter⟩
      · rw [same, subFrom_copy (copied _), char_ofChar, kept, label_append]
      · refine ⟨fun isBare => clear.header (bare _ (by simp [labelKinds]) isBare),
          fun isBare => clear.ami (bare _ (by simp [labelKinds]) isBare),
          fun isGeneric isBare => clear.generic isGeneric (bare _ (by simp [labelKinds]) isBare),
          fun isAmi => ?_⟩
        have lasts := isOpen (isHeader isAmi)
        rw [char_ofChar] at lasts
        exact fun opened => clear.closed isAmi (lasts opened)
  | closes written close isClose same _ origin bare isOpen _ =>
      rw [char_ofChar] at isClose same isOpen
      have unmarkedOut := unmarked.of_origin origin
      rw [unmarked_append] at unmarkedOut
      have isQuote := eq_ofChar isClose (unmarkedOut.2 close (List.mem_singleton_self _))
      refine .inl ⟨written, after', ?_, ?_, unmarkedOut.1, unmarkedAfter⟩
      · rw [same, kept, isQuote, label_append]
      · refine ⟨fun isBare => clear.header (bare _ (by simp [labelKinds]) isBare),
          fun isBare => clear.ami (bare _ (by simp [labelKinds]) isBare),
          fun isGeneric isBare => clear.generic isGeneric (bare _ (by simp [labelKinds]) isBare),
          fun isAmi => isOpen (isHeader isAmi)⟩
  | covers _ origin =>
      refine .inr fun glyph mem => ?_
      rcases origin glyph mem with inBefore | inAfter | ⟨c, rfl⟩
      · exact unmarked glyph inBefore
      · exact unmarked' glyph inAfter
      · rfl

theorem crossed_of_class {kind : LabelKind}
    (inClass : ∀ glyph ∈ value, isGenericValue (char glyph) = true) :
    ∀ glyph ∈ value, Crossed kind quote (char glyph) := by
  intro glyph mem
  refine ⟨notLineBreak_of_isGenericValue (inClass glyph mem), fun _ isQuote => ?_⟩
  rw [(isGenericValue_facts (inClass glyph mem)).2.1] at isQuote
  cases isQuote

variable {text : List (Char × Bool)}

theorem HasField.headerLine (hasField : HasField table quote key value text)
    (mem : key ∈ secretKeys) (quoted : isQuote quote = true)
    (inClass : ∀ glyph ∈ value, isGenericValue (char glyph) = true) :
    HasField table quote key value (sub headerLine.expr headerLine.template text) ∨
      Unmarked (sub headerLine.expr headerLine.template text) := by
  rcases hasField with ⟨before, after, rfl, clear, unmarked, unmarked'⟩
  have isRule : Redact.headerLine ∈ patterns table := by simp [patterns]
  rw [label_append]
  refine HasField.of_passed (matchesLabels_headerLine.passed_field (by simp [labelKinds]) isRule
    mem quoted (crossed_of_class inClass) fun isQuoted => absurd isQuoted (by decide)) clear
    unmarked unmarked'
    (fun prev => ?_) ?_ fun _ => rfl
  · exact headerLine_none_of_head (by rw [char_ofChar]; exact (quote_facts quoted).1)
      (by rw [char_ofChar]; exact isNameChar_quote quoted)
  · let left : List (Char × Bool) := keyTail quote key ++ (value ++ [ofChar quote])
    have split :
        ∀ after, keyTail quote key ++ (value ++ ofChar quote :: after) = left ++ after := by
      simp [left]
    have sameLine : ∀ glyph ∈ left, char glyph ≠ '\n' := by
      have notBreak := not_newline_quote quoted
      simp only [left, keyTail, List.map_append, List.map_cons, List.map_nil,
        List.forall_mem_append, List.forall_mem_map, List.forall_mem_cons, List.not_mem_nil,
        char_ofChar]
      refine ⟨⟨?_, notBreak, by decide, notBreak, by simp⟩, ?_, notBreak, by simp⟩
      · intro c inKey
        exact (isGenericValue_facts (key_chars mem c inKey).1).2.2
      · intro glyph inValue
        exact (isGenericValue_facts (inClass glyph inValue)).2.2
    have copied : subFrom Redact.headerLine.expr Redact.headerLine.template (some quote) 0
        (left ++ after) = left ++ _ := headerLine_copies (not_newline_quote quoted) sameLine
    rw [← split, ← split] at copied
    exact ⟨_, copied, unmarked'.sub_behind isRule⟩

theorem HasField.header (hasField : HasField table quote key value text)
    (mem : key ∈ secretKeys) (quoted : isQuote quote = true)
    (inClass : ∀ glyph ∈ value, isGenericValue (char glyph) = true)
    (headerless : ¬ HasHeader table (value.map char)) :
    HasField table quote key value (sub (header table).expr (header table).template text) ∨
      Unmarked (sub (header table).expr (header table).template text) := by
  rcases hasField with ⟨before, after, rfl, clear, unmarked, unmarked'⟩
  have isRule : Redact.header table ∈ patterns table := by simp [patterns]
  rw [label_append]
  refine HasField.of_passed (matchesLabels_header.passed_field (by simp [labelKinds]) isRule
    mem quoted (crossed_of_class inClass) fun isQuoted => absurd isQuoted (by decide)) clear
    unmarked unmarked'
    (fun prev => ?_) ?_ fun _ => rfl
  · exact nameLed_header.none_of_head areNames_header
      (by rw [char_ofChar]; exact isNameChar_quote quoted)
  · have isQuote : isQuote (char (ofChar quote : Char × Bool)) = true := by rwa [char_ofChar]
    have copied : subFrom (Redact.header table).expr (Redact.header table).template (some quote) 0
        (keyTail quote key ++ (value ++ ofChar quote :: after)) = keyTail quote key ++ _ :=
      nameLed_header.subFrom_keyTail areNames_header mem (key_facts mem).1 quoted
    rw [header_value inClass isQuote quoted headerless] at copied
    exact ⟨_, copied, unmarked'.sub_behind isRule⟩

theorem unmarked_label : Unmarked (label quote key) :=
  unmarked_map_ofChar _

theorem not_generic_of_ami (isAmi : key ∈ amiSecretNames) : key ∉ genericSecretNames := by
  have checked : (amiSecretNames.all fun key => decide (key ∉ genericSecretNames)) = true := by
    decide
  simpa using List.all_eq_true.mp checked key isAmi

/-- What a rule has made of a field whose value it masks. -/
theorem unmarked_masked {written : List (Char × Bool)} (inFront : Unmarked written)
    (isRule : rule ∈ patterns table) (unmarked' : Unmarked after) (prev : Option Char) :
    Unmarked (written ++ (label quote key ++ (redacted.toList.map ofChar ++ ofChar quote ::
      subFrom rule.expr rule.template prev 0 after))) := by
  simp only [unmarked_append]
  exact ⟨inFront, unmarked_label, unmarked_map_ofChar _,
    List.forall_mem_cons.mpr ⟨rfl, unmarked'.sub_behind isRule⟩⟩

theorem HasField.amiSecret_removes (hasField : HasField table quote key value text)
    (mem : key ∈ amiSecretNames) (quoted : isQuote quote = true)
    (inClass : ∀ glyph ∈ value, isAmiValue (char glyph) = true) :
    Unmarked (sub amiSecret.expr amiSecret.template text) := by
  rcases hasField with ⟨before, after, rfl, clear, unmarked, unmarked'⟩
  have isRule : amiSecret ∈ patterns table := by simp [patterns]
  have passed : Passed table amiKind Redact.amiSecret none [] [] before (ofChar quote)
      (keyTail quote key ++ (value ++ ofChar quote :: after)) after :=
    matchesLabels_amiSecret.passed_field (by simp [labelKinds]) isRule (List.mem_append_left _ mem)
      quoted (crossed_of_class fun glyph inValue =>
        isGenericValue_of_isAmiValue (inClass glyph inValue)) fun _ => clear.ami
  rw [label_append]
  unfold sub
  cases passed with
  | arrives written same _ origin bare isOpen =>
      rw [same, ← label_append, amiSecret_masks mem quoted inClass (char_ofChar quote)]
      exact unmarked_masked (unmarked.of_origin origin) isRule unmarked' _
  | closes written close isClose same _ origin bare _ wasOpen =>
      rw [char_ofChar] at wasOpen
      exact absurd wasOpen (clear.closed mem)
  | covers _ origin =>
      intro glyph inText
      rcases origin glyph inText with inBefore | inAfter | ⟨c, rfl⟩
      · exact unmarked glyph inBefore
      · exact unmarked' glyph inAfter
      · rfl

theorem HasField.amiSecret (hasField : HasField table quote key value text)
    (mem : key ∈ genericSecretNames) (quoted : isQuote quote = true)
    (inClass : ∀ glyph ∈ value, isGenericValue (char glyph) = true) :
    (∃ value', HasField table quote key value' (sub amiSecret.expr amiSecret.template text) ∧
      ∀ glyph ∈ value', isGenericValue (char glyph) = true) ∨
      Unmarked (sub amiSecret.expr amiSecret.template text) := by
  rcases hasField with ⟨before, after, rfl, clear, unmarked, unmarked'⟩
  have isRule : Redact.amiSecret ∈ patterns table := by simp [patterns]
  have notAmi : key ∉ amiSecretNames := fun isAmi => not_generic_of_ami isAmi mem
  rcases @amiSecret_field (Char × Bool) _ (some quote) value after quote key mem quoted inClass with
    ⟨value', after', kept, inClass', origin⟩
  rw [label_append]
  refine (HasField.of_passed (matchesLabels_amiSecret.passed_field (by simp [labelKinds]) isRule
    (List.mem_append_right _ mem) quoted (crossed_of_class inClass) fun _ => clear.ami) clear
    unmarked unmarked' (fun prev => amiSecret_none_of_field mem quoted)
    ⟨after', kept, unmarked'.of_origin origin⟩ fun isAmi => absurd isAmi notAmi).imp_left ?_
  exact fun hasField' => ⟨value', hasField', inClass'⟩

theorem HasField.genericSecret_removes (hasField : HasField table quote key value text)
    (mem : key ∈ genericSecretNames) (quoted : isQuote quote = true)
    (inClass : ∀ glyph ∈ value, isGenericValue (char glyph) = true) :
    Unmarked (sub (genericSecret table).expr (genericSecret table).template text) := by
  rcases hasField with ⟨before, after, rfl, clear, unmarked, unmarked'⟩
  have isRule : genericSecret table ∈ patterns table := by simp [patterns]
  have passed : Passed table genericKind (Redact.genericSecret table) none [] [] before
      (ofChar quote) (keyTail quote key ++ (value ++ ofChar quote :: after)) after :=
    matchesLabels_genericSecret.passed_field (by simp [labelKinds]) isRule
      (List.mem_append_right _ mem) quoted (crossed_of_class inClass) fun _ => clear.generic mem
  rw [label_append]
  unfold sub
  cases passed with
  | arrives written same _ origin bare isOpen =>
      rw [same, subFrom_copy (genericSecret_none_of_quote quoted), char_ofChar,
        genericSecret_masks mem quoted inClass (char_ofChar quote), ← label_append]
      exact unmarked_masked (unmarked.of_origin origin) isRule unmarked' _
  | closes written close isClose same _ origin bare _ wasOpen =>
      rw [char_ofChar] at isClose same
      have unmarkedOut := unmarked.of_origin origin
      rw [unmarked_append] at unmarkedOut
      have isQuote := eq_ofChar isClose (unmarkedOut.2 close (List.mem_singleton_self _))
      rw [same, genericSecret_masks mem quoted inClass (char_ofChar quote), isQuote, ← label_append]
      exact unmarked_masked unmarkedOut.1 isRule unmarked' _
  | covers _ origin =>
      intro glyph inText
      rcases origin glyph inText with inBefore | inAfter | ⟨c, rfl⟩
      · exact unmarked glyph inBefore
      · exact unmarked' glyph inAfter
      · rfl

theorem Unmarked.foldl {rules : List Rule} (known : ∀ rule ∈ rules, rule ∈ patterns table)
    (unmarked : Unmarked text) :
    Unmarked (rules.foldl (fun result rule => Regex.sub rule.expr rule.template result) text) := by
  induction rules generalizing text with
  | nil => exact unmarked
  | cons rule rules ih =>
      rw [List.forall_mem_cons] at known
      exact ih known.2 (unmarked.sub known.1)

/-- Behind the rules for headers the value of a plain field goes. -/
theorem HasField.removed (hasField : HasField table quote key value text)
    (mem : key ∈ secretKeys) (quoted : isQuote quote = true)
    (plain : Plain table key (value.map char)) :
    Unmarked ([Redact.amiSecret, Redact.genericSecret table, xmlElement, urlUserinfo table].foldl
      (fun result rule => Regex.sub rule.expr rule.template result) text) := by
  have inClass : ∀ glyph ∈ value, valueClass key (char glyph) = true :=
    fun glyph inValue => plain.inClass _ (List.mem_map_of_mem inValue)
  have known : ∀ rule ∈ [Redact.genericSecret table, xmlElement, urlUserinfo table],
      rule ∈ patterns table := by simp [patterns]
  rw [List.foldl_cons]
  by_cases isAmi : key ∈ amiSecretNames
  · have masked := hasField.amiSecret_removes isAmi quoted (by
      simpa only [valueClass, isAmi, if_true] using inClass)
    exact masked.foldl known
  · have isGeneric : key ∈ genericSecretNames :=
      (List.mem_append.mp mem).resolve_left isAmi
    rcases hasField.amiSecret isGeneric quoted (by
      simpa only [valueClass, isAmi, if_false] using inClass) with
      ⟨value', hasField', inClass'⟩ | unmarked
    · have masked := hasField'.genericSecret_removes isGeneric quoted inClass'
      rw [List.foldl_cons]
      exact masked.foldl fun rule mem' => known rule (List.mem_cons_of_mem _ mem')
    · exact unmarked.foldl known

end Stages

end Redact

end Asmb8Ikvm
