import Asmb8Ikvm.Errors
import Asmb8Ikvm.Lib.Regex
import Asmb8Ikvm.Lib.Text

/-!
# WEBVAR responses

`webvar.py` reads the bodies of `.asp` responses: an assignment to
`WEBVAR_JSONVAR_<NAME>`, an array declared as `WEBVAR_STRUCTNAME_<NAME>` that
ends with an empty object, and the field `HAPI_STATUS`. The names and the status
are found with regular expressions, the end of the array by counting brackets
outside strings, and the array itself is left to `ast.literal_eval`, which is a
parameter here.
-/

namespace Asmb8Ikvm

open PyText Regex

/-- What `ast.literal_eval` returns. -/
inductive Literal where
  | int (value : ℤ)
  | str (text : String)
  | list (items : List Literal)
  | dict (entries : List (Literal × Literal))
  | other (repr : String)

structure WebVarResponse where
  variableName : String
  structName : String
  records : List (List (Literal × Literal))
  hapiStatus : ℤ

namespace Webvar

def exactly (text : String) : Expr :=
  .word text.toList fun a b => a == b

/-- A marker, a name behind it and a separator. -/
def declarationRe (table : CharTable) (marker : String) (separator : Char) : Expr :=
  .chain (exactly marker)
    [.group 1 (.some table.isWord), .many isSpace, .word [separator] fun a b => a == b]

def jsonvarRe (table : CharTable) : Expr :=
  declarationRe table "WEBVAR_JSONVAR_" '='

def structnameRe (table : CharTable) : Expr :=
  declarationRe table "WEBVAR_STRUCTNAME_" ':'

def isDigit (table : CharTable) (c : Char) : Bool :=
  (table.digit c).isSome

def hapiStatusRe (table : CharTable) : Expr :=
  .chain (exactly "HAPI_STATUS") [.many isSpace, exactly ":", .many isSpace,
    .group 1 (.seq (.opt fun c => c == '-') (.some (isDigit table)))]

/-- `sys.int_info.default_max_str_digits`: longer strings are refused by `int`. -/
def maxStrDigits : ℕ := 4300

/-- `int(text)` of a text that matches `-?\d+`. -/
def int (table : CharTable) (text : List Char) : Except Exn ℤ :=
  let digits := if text.head? = some '-' then text.tail else text
  let value := digits.foldl (fun n c => 10 * n + (table.digit c).getD 0) 0
  if maxStrDigits < digits.length then
    .error (.valueError ("Exceeds the limit (" ++ toString maxStrDigits ++
      " digits) for integer string conversion: value has " ++ toString digits.length ++
      " digits; use sys.set_int_max_str_digits() to increase the limit"))
  else if text.head? = some '-' then .ok (-(value : ℤ))
  else .ok value

/-- The character is passed over. -/
def pass (ch : Char) : Option (List Char × List Char) → Option (List Char × List Char) :=
  Option.map fun found => (ch :: found.1, found.2)

/-- The loop of `_scan_matching_bracket`: the text up to the bracket that closes the first
one and the text behind it. `skip` says that the next character is escaped. -/
def scanFrom (openChar closeChar : Char) :
    (depth : ℤ) → (inString : Option Char) → (skip : Bool) → List Char →
      Option (List Char × List Char)
  | _, _, _, [] => none
  | depth, inString, true, ch :: rest =>
      pass ch (scanFrom openChar closeChar depth inString false rest)
  | depth, some quote, false, ch :: rest =>
      if ch = '\\' then pass ch (scanFrom openChar closeChar depth (some quote) true rest)
      else if ch = quote then pass ch (scanFrom openChar closeChar depth none false rest)
      else pass ch (scanFrom openChar closeChar depth (some quote) false rest)
  | depth, none, false, ch :: rest =>
      if ch = '\'' ∨ ch = '"' then
        pass ch (scanFrom openChar closeChar depth (some ch) false rest)
      else if ch = openChar then
        pass ch (scanFrom openChar closeChar (depth + 1) none false rest)
      else if ch = closeChar then
        if depth - 1 = 0 then some ([ch], rest)
        else pass ch (scanFrom openChar closeChar (depth - 1) none false rest)
      else pass ch (scanFrom openChar closeChar depth none false rest)

/-- `_scan_matching_bracket` on the text from `open_pos` on; `none` is the `ValueError`. -/
def scanMatchingBracket (text : List Char) (openChar closeChar : Char) :
    Option (List Char × List Char) :=
  if text.head? ≠ some openChar then none
  else scanFrom openChar closeChar 0 none false text

def asDict : Literal → Option (List (Literal × Literal))
  | .dict entries => some entries
  | _ => none

/-- The elements of a list of objects. -/
def asRecords : Literal → Option (List (List (Literal × Literal)))
  | .list items => items.mapM asDict
  | _ => none

/-- `if records and records[-1] == _SENTINEL: records = records[:-1]`. -/
def dropSentinel (records : List (List (Literal × Literal))) : List (List (Literal × Literal)) :=
  match records.getLast? with
  | some [] => records.dropLast
  | _ => records

/-- `ProtocolError(message, endpoint=..., operation=..., diagnostic=...)`. -/
def failure (message : String) (endpoint operation : Option String)
    (diagnostic : Option (List Char)) : Exn :=
  .ikvm {
    errorClass := .protocol
    message
    endpoint
    operation
    diagnostic := diagnostic.map String.ofList }

end Webvar

open Webvar

/-- `parse_webvar`. `literal_eval` is `none` where it raises one of the exceptions that are
caught. -/
def parseWebvar (table : CharTable) (literalEval : String → Option Literal) (body : String)
    (endpoint operation : Option String) : Except Exn WebVarResponse :=
  let text := body.toList
  if strip text = [] then
    .error (failure "webvar response body is empty" endpoint operation none)
  else
    match search (jsonvarRe table) none text with
    | none =>
        .error (failure "no WEBVAR_JSONVAR_<NAME> assignment found in response body" endpoint
          operation (some text))
    | some (_, nameMatch) =>
    let variableName := String.ofList (nameMatch.groups 1)
    match search (structnameRe table) nameMatch.prev nameMatch.rest with
    | none =>
        .error (failure ("no WEBVAR_STRUCTNAME_<NAME> array declaration found for " ++
          "WEBVAR_JSONVAR_" ++ variableName) endpoint operation (some text))
    | some (_, structMatch) =>
    let structName := String.ofList (structMatch.groups 1)
    let arrayOn := structMatch.rest.dropWhile isSpace
    if arrayOn.head? ≠ some '[' then
      .error (failure ("WEBVAR_STRUCTNAME_" ++ structName ++
        " is not followed by an array literal") endpoint operation
        (some (structMatch.rest.take 80)))
    else
      match scanMatchingBracket arrayOn '[' ']' with
      | none =>
          .error (failure ("WEBVAR_STRUCTNAME_" ++ structName ++
            "'s array literal is never closed") endpoint operation (some arrayOn))
      | some (arrayText, arrayEnd) =>
      match literalEval (String.ofList arrayText) with
      | none =>
          .error (failure ("WEBVAR_STRUCTNAME_" ++ structName ++
            "'s array literal could not be parsed as a Python literal") endpoint operation
            (some arrayText))
      | some recordsRaw =>
      match asRecords recordsRaw with
      | none =>
          .error (failure ("WEBVAR_STRUCTNAME_" ++ structName ++
            "'s array literal did not evaluate to a list of objects") endpoint operation
            (some arrayText))
      | some records =>
      match search (hapiStatusRe table) none arrayEnd with
      | none =>
          .error (failure ("no HAPI_STATUS field found after WEBVAR_STRUCTNAME_" ++ structName ++
            "'s array") endpoint operation (some (arrayEnd.take 200)))
      | some (_, statusMatch) => do
          let hapiStatus ← Webvar.int table (statusMatch.groups 1)
          .ok { variableName, structName, records := dropSentinel records, hapiStatus }

end Asmb8Ikvm
