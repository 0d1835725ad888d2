import Asmb8Ikvm.Redact.Unclosed
import Asmb8Ikvm.Redact.Fields

/-!
# Values that stay

The pattern for a key leaves a value without a closing quote where it is, with the mark in front
of it. The patterns for elements and URLs keep the first glyph of what they match, and the cut
comes later, so a character of the value is in the outcome.
-/

namespace Asmb8Ikvm

open PyText Regex

namespace Redact

section Secrets

variable {α : Type} [Glyph α] {table : CharTable} {prev : Option Char} {quote : Char}
  {key : String} {text : List α} {groups : ℕ → List α}

end Secrets

section Outcome

variable {table : CharTable} {quote : Char} {key : String}
  {before left text : List (Char × Bool)}

theorem plain_redacted : ∀ c ∈ redacted.toList, c ≠ '<' ∧ c ≠ '/' := by
  have checked : (redacted.toList.all fun c => c != '<' && c != '/') = true := by decide
  simpa only [List.all_eq_true, Bool.and_eq_true, bne_iff_ne] using checked

/-- What two patterns have made of a settled text is short and holds no element and no URL. -/
theorem Settled.grown {between written : List Char} {text : List Char}
    (settled : Settled table quote key text) (first : Grown text between)
    (second : Grown between written) :
    (∀ c ∈ written, c ≠ '<' ∧ c ≠ '/') ∧ written.length + 32 ≤ maxDiagnosticBytes := by
  have inText : ∀ c ∈ text, c ≠ '<' ∧ c ≠ '/' := by
    refine fun c mem => ⟨?_, ?_⟩
    · rintro rfl
      exact settled.untagged mem
    · rintro rfl
      exact settled.unslashed mem
  refine ⟨fun c mem => ?_, ?_⟩
  · rcases second.chars c mem with inBetween | inMark
    · rcases first.chars c inBetween with inText' | inMark
      · exact inText c inText'
      · exact plain_redacted c inMark
    · exact plain_redacted c inMark
  · have length_eq : written.length = weight 0 written := by simp [weight]
    have second_le : weight 0 written ≤ weight 10 between := second.weight_le 0
    have first_le : weight 10 between ≤ weight 20 text := first.weight_le 10
    have short := settled.short
    omega

end Outcome

end Redact

end Asmb8Ikvm
