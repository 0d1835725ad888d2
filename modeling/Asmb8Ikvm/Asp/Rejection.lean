import Asmb8Ikvm.Asp.Webvar

/-!
# What `parse_webvar` repeats of a body it rejects

Each place at which `parse_webvar` gives up quotes a part of the body in the
diagnostic of its exception: the whole body while the variable or the array is
not declared, and later the beginning of what stands in the place of the array,
the array, or what stands behind it. Some messages repeat the name of the
variable or of the array. The parts of a body are relations here, so that a
statement about a body can say which of them there are.
-/

namespace Asmb8Ikvm.Webvar

open PyText Regex

variable (table : CharTable) (literalEval : String → Option Literal) (body : List Char)

/-- The body is not blank and assigns a variable; the cursor is behind the `=`. -/
def Assigned (assignment : Cursor Char) : Prop :=
  strip body ≠ [] ∧ ∃ before, search (jsonvarRe table) none body = some (before, assignment)

/-- An array is declared behind the assignment; the cursor is behind the `:`. -/
def Declared (declaration : Cursor Char) : Prop :=
  ∃ assignment, Assigned table body assignment ∧ ∃ before,
    search (structnameRe table) assignment.prev assignment.rest = some (before, declaration)

/-- Behind the declaration stands this array, and this text behind the array. -/
def Delimited (declaration : Cursor Char) (array behind : List Char) : Prop :=
  Declared table body declaration ∧ (declaration.rest.dropWhile isSpace).head? = some '[' ∧
    scanMatchingBracket (declaration.rest.dropWhile isSpace) '[' ']' = some (array, behind)

/-- The array is the text of these objects. -/
def Evaluated (declaration : Cursor Char) (array behind : List Char)
    (records : List (List (Literal × Literal))) : Prop :=
  Delimited table body declaration array behind ∧
    ∃ value, literalEval (String.ofList array) = some value ∧ asRecords value = some records

/-- Behind the array stands a status, with these digits. -/
def Reported (records : List (List (Literal × Literal))) (digits : List Char) : Prop :=
  ∃ declaration array behind before status,
    Evaluated table literalEval body declaration array behind records ∧
      search (hapiStatusRe table) none behind = some (before, status) ∧ status.groups 1 = digits

def nameOf (cursor : Cursor Char) : String :=
  String.ofList (cursor.groups 1)

/-- The message with which a body is rejected and the part of it that becomes the diagnostic. -/
inductive Rejected : String → Option (List Char) → Prop where
  | blank (nothing : strip body = []) : Rejected "webvar response body is empty" none
  | unassigned (something : strip body ≠ []) (absent : search (jsonvarRe table) none body = none) :
      Rejected "no WEBVAR_JSONVAR_<NAME> assignment found in response body" (some body)
  | undeclared {assignment : Cursor Char} (assigned : Assigned table body assignment)
      (absent : search (structnameRe table) assignment.prev assignment.rest = none) :
      Rejected ("no WEBVAR_STRUCTNAME_<NAME> array declaration found for " ++
        "WEBVAR_JSONVAR_" ++ nameOf assignment) (some body)
  | noArray {declaration : Cursor Char} (declared : Declared table body declaration)
      (other : (declaration.rest.dropWhile isSpace).head? ≠ some '[') :
      Rejected ("WEBVAR_STRUCTNAME_" ++ nameOf declaration ++
        " is not followed by an array literal") (some (declaration.rest.take 80))
  | unclosed {declaration : Cursor Char} (declared : Declared table body declaration)
      (opens : (declaration.rest.dropWhile isSpace).head? = some '[')
      (neverCloses : scanMatchingBracket (declaration.rest.dropWhile isSpace) '[' ']' = none) :
      Rejected ("WEBVAR_STRUCTNAME_" ++ nameOf declaration ++
        "'s array literal is never closed") (some (declaration.rest.dropWhile isSpace))
  | unreadable {declaration : Cursor Char} {array behind : List Char}
      (delimited : Delimited table body declaration array behind)
      (noLiteral : literalEval (String.ofList array) = none) :
      Rejected ("WEBVAR_STRUCTNAME_" ++ nameOf declaration ++
        "'s array literal could not be parsed as a Python literal") (some array)
  | noObjects {declaration : Cursor Char} {array behind : List Char} {value : Literal}
      (delimited : Delimited table body declaration array behind)
      (literal : literalEval (String.ofList array) = some value)
      (other : asRecords value = none) :
      Rejected ("WEBVAR_STRUCTNAME_" ++ nameOf declaration ++
        "'s array literal did not evaluate to a list of objects") (some array)
  | noStatus {declaration : Cursor Char} {array behind : List Char}
      {records : List (List (Literal × Literal))}
      (evaluated : Evaluated table literalEval body declaration array behind records)
      (absent : search (hapiStatusRe table) none behind = none) :
      Rejected ("no HAPI_STATUS field found after WEBVAR_STRUCTNAME_" ++ nameOf declaration ++
        "'s array") (some (behind.take 200))

/-- The body is accepted with these objects and this status. -/
def Accepted (records : List (List (Literal × Literal))) (status : ℤ) : Prop :=
  ∃ digits, Reported table literalEval body records digits ∧ int table digits = .ok status

/-- The digits of a number without its sign. -/
def unsigned (digits : List Char) : List Char :=
  if digits.head? = some '-' then digits.tail else digits

section Parse

variable {table : CharTable} {literalEval : String → Option Literal} {body : String}
  (endpoint operation : Option String)

/-- A body that is rejected for a reason is rejected with the texts of this reason. -/
theorem Rejected.parseWebvar {message : String} {quoted : Option (List Char)}
    (rejected : Rejected table literalEval body.toList message quoted) :
    parseWebvar table literalEval body endpoint operation =
      .error (failure message endpoint operation quoted) := by
  unfold Asmb8Ikvm.parseWebvar
  cases rejected with
  | blank nothing => simp only [nothing, if_true]
  | unassigned something absent => simp only [something, if_false, absent]
  | undeclared assigned absent =>
      rcases assigned with ⟨something, before, assigned⟩
      simp only [something, if_false, assigned, absent, nameOf]
  | noArray declared other =>
      rcases declared with ⟨assignment, ⟨something, before, assigned⟩, between, declared⟩
      simp only [something, if_false, assigned, declared, if_pos other, nameOf]
  | unclosed declared opens neverCloses =>
      rcases declared with ⟨assignment, ⟨something, before, assigned⟩, between, declared⟩
      simp only [something, if_false, assigned, declared, opens, ne_eq, not_true_eq_false,
        neverCloses, nameOf]
  | unreadable delimited noLiteral =>
      rcases delimited with
        ⟨⟨assignment, ⟨something, before, assigned⟩, between, declared⟩, opens, closes⟩
      simp only [something, if_false, assigned, declared, opens, ne_eq, not_true_eq_false, closes,
        noLiteral, nameOf]
  | noObjects delimited literal other =>
      rcases delimited with
        ⟨⟨assignment, ⟨something, before, assigned⟩, between, declared⟩, opens, closes⟩
      simp only [something, if_false, assigned, declared, opens, ne_eq, not_true_eq_false, closes,
        literal, other, nameOf]
  | noStatus evaluated absent =>
      rcases evaluated with ⟨⟨⟨assignment, ⟨something, before, assigned⟩, between, declared⟩, opens,
        closes⟩, value, literal, objects⟩
      simp only [something, if_false, assigned, declared, opens, ne_eq, not_true_eq_false, closes,
        literal, objects, absent, nameOf]

/-- A body with a status is read up to the number the digits are. -/
theorem Reported.parseWebvar {records : List (List (Literal × Literal))} {digits : List Char}
    (reported : Reported table literalEval body.toList records digits) :
    ∃ variableName structName,
      parseWebvar table literalEval body endpoint operation =
        (int table digits).map fun hapiStatus =>
          { variableName, structName, records := dropSentinel records, hapiStatus } := by
  rcases reported with ⟨declaration, array, behind, before', status, ⟨⟨⟨assignment, ⟨something,
    before, assigned⟩, between, declared⟩, opens, closes⟩, value, literal, objects⟩, found, rfl⟩
  refine ⟨nameOf assignment, nameOf declaration, ?_⟩
  unfold Asmb8Ikvm.parseWebvar
  simp only [something, if_false, assigned, declared, opens, ne_eq, not_true_eq_false, closes,
    literal, objects, found, nameOf]
  cases int table (status.groups 1) <;> rfl

end Parse

end Asmb8Ikvm.Webvar
