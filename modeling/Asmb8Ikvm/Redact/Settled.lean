import Asmb8Ikvm.Redact.Clear

/-!
# Settled texts

Before a field the labels of the AMI names and of the generic ones may stand, as long as none takes
a part of the field. When there are no headers, elements or URLs either, all that becomes of the
text is that values are masked, and the pattern for the key comes to the field.
-/

namespace Asmb8Ikvm

open PyText Regex

namespace Redact

section Statements

/-- No name of a header is in the text. -/
def Headless (text : List Char) : Prop :=
  ∀ front name back, text = front ++ (name ++ back) → ¬SpellsOneOf headerWords name

/-- A text before a field that leaves the field alone and has no header, no element and no URL in
it, and that stays short enough for the cut to keep the start of a value behind it. -/
structure Settled (table : CharTable) (quote : Char) (key : String) (text : List Char) : Prop
    extends Clear table quote key text where
  unlabelled : ¬Bare table genericKind text
  headless : Headless text
  untagged : '<' ∉ text
  unslashed : '/' ∉ text
  short : weight 20 text + 32 ≤ maxDiagnosticBytes

variable {table : CharTable} {quote : Char} {key : String} {text : List Char}

end Statements

section Rules

variable {α : Type} [Glyph α] {table : CharTable} {kind : LabelKind} {rule : Rule}
  {prev : Option Char} {quote glyph : α} {before rest text : List α}

/-- A match starts with a glyph that is white space, a quote or part of a name. -/
theorem MatchesLabels.none_of_head (matchesLabels : MatchesLabels α table kind rule)
    (mem : kind ∈ labelKinds) (notSpace : isSpace (char glyph) = false)
    (notQuote : isQuote (char glyph) = false) (other : isNameChar (char glyph) = false) :
    matchAt rule.expr prev (glyph :: rest) = none := by
  cases found : matchAt rule.expr prev (glyph :: rest) with
  | none => rfl
  | some final =>
      rcases matchAt_some found with ⟨taken, split, last, ways⟩
      rcases final with ⟨_, rest', groups⟩
      dsimp only at split last ways
      subst last
      rw [split] at found
      rcases matchesLabels prev taken rest' groups found ways with
        ⟨lead, name, gap, sep, spaces, opening, removed, closing, isMatch⟩
      rcases isMatch.isName.isNameChar (areNames_of_mem mem) with ⟨nonempty, chars⟩
      rw [isMatch.taken_eq] at split
      rcases lead with _ | ⟨first, lead⟩
      · rcases name with _ | ⟨first, name⟩
        · exact absurd rfl nonempty
        · rw [List.nil_append, List.cons_append, List.cons_append, List.cons.injEq] at split
          have inName := chars first (List.mem_cons_self ..)
          rw [← split.1, other] at inName
          cases inName
      · rw [List.cons_append, List.cons_append, List.cons.injEq] at split
        have inLead := isMatch.isLead first (List.mem_cons_self ..)
        rw [← split.1, notSpace, notQuote] at inLead
        rcases inLead with inLead | inLead <;> cases inLead

/-- The first glyph of a text is kept. -/
theorem MatchesLabels.keeps_head (matchesLabels : MatchesLabels α table kind rule)
    (mem : kind ∈ labelKinds) (consumes : Consumes α rule.expr) :
    (subFrom rule.expr rule.template prev 0 text).head? = text.head? := by
  refine subFrom_induction (motive := fun _ text out => out.head? = text.head?) consumes
    (fun _ => rfl) (fun _ _ _ _ _ => rfl) ?_ prev text
  intro prev taken rest groups _ found ways _
  rcases matchesLabels prev taken rest groups found ways with
    ⟨lead, name, gap, sep, spaces, opening, removed, closing, isMatch⟩
  rcases isMatch.leads with ⟨more, leads⟩
  have nonempty := (isMatch.isName.isNameChar (areNames_of_mem mem)).1
  rw [leads, isMatch.taken_eq]
  rcases lead with _ | ⟨first, lead⟩
  · rcases name with _ | ⟨first, name⟩
    · exact absurd rfl nonempty
    · rfl
  · rfl

end Rules

end Redact

end Asmb8Ikvm
