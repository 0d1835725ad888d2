import Asmb8Ikvm.Lib.Lookaround
import Asmb8Ikvm.Lib.Text

/-!
# Redacting hardware evidence

`redact-evidence.py`: the patterns and key tables, the tokens of a run, and the
walk over a JSON document. Patterns are replaced in a fixed order. A string under
an identifying key is replaced as a whole, but only when no pattern has changed
a part of it.
-/

namespace Asmb8Ikvm.Evidence

open PyText Regex Lookaround

/-- The categories of `_PATTERNS` and `_IDENTIFYING_KEYS`. -/
inductive Category where
  | ipv4
  | ipv6
  | mac
  | uuid
  | fingerprint
  | digest
  | fqdn
  | hostname
  | username
  | path
deriving DecidableEq, Repr

def Category.name : Category → List Char
  | .ipv4 => "ipv4".toList
  | .ipv6 => "ipv6".toList
  | .mac => "mac".toList
  | .uuid => "uuid".toList
  | .fingerprint => "fingerprint".toList
  | .digest => "digest".toList
  | .fqdn => "fqdn".toList
  | .hostname => "hostname".toList
  | .username => "username".toList
  | .path => "path".toList

def identifyingKeys : List (List Char × Category) :=
  [("hostname", .hostname), ("host_name", .hostname), ("host", .hostname),
    ("asmb8_host", .hostname), ("username", .username), ("user", .username),
    ("asmb8_username", .username), ("client_username", .username), ("path", .path),
    ("image", .path), ("image_path", .path), ("iso_path", .path), ("output_path", .path),
    ("runtime_dir", .path), ("state_file", .path)].map fun entry => (entry.1.toList, entry.2)

def exemptKeys : List (List Char) :=
  ["action".toList, "note".toList]

def preservedDomainSuffixes : List (List Char) :=
  ["w3.org".toList]

def filenameLabels : List (List Char) :=
  ["cfg", "conf", "csv", "html", "img", "ini", "iso", "json", "log", "md", "py", "rst", "sh",
    "txt", "xml", "yaml", "yml"].map String.toList

section Patterns

def isDigit (c : Char) : Bool :=
  '0' ≤ c && c ≤ '9'

def isLetter (c : Char) : Bool :=
  ('A' ≤ c && c ≤ 'Z') || ('a' ≤ c && c ≤ 'z')

def isAlnum (c : Char) : Bool :=
  isDigit c || isLetter c

/-- `_HEX`. -/
def isHex (c : Char) : Bool :=
  isDigit c || ('A' ≤ c && c ≤ 'F') || ('a' ≤ c && c ≤ 'f')

def hex : Body := .one isHex

/-- `_OCTET`. -/
def octet : Body :=
  .oneOf (.chain (.lit '2') [.lit '5', .one fun c => '0' ≤ c && c ≤ '5'])
    [.chain (.lit '2') [.one fun c => '0' ≤ c && c ≤ '4', .one isDigit],
      .seq (.lit '1') (.exactly 2 (.one isDigit)),
      .seq (.between 0 1 (.one fun c => '1' ≤ c && c ≤ '9')) (.one isDigit)]

/-- A pair of hexadecimal digits and a separator. -/
def pair (isSeparator : Char → Bool) : Body :=
  .seq (.exactly 2 hex) (.one isSeparator)

def fingerprintRe : Pattern where
  notAfter := isHex
  body := .seq (.exactly 31 (pair (· == ':'))) (.exactly 2 hex)
  notBefore := .seq (.between 0 1 (.lit ':')) hex

/-- `(?<![0-9A-Za-z])HEX{n}(?![0-9A-Za-z])`. -/
def hexRunRe (n : ℕ) : Pattern where
  notAfter := isAlnum
  body := .exactly n hex
  notBefore := .one isAlnum

def digestRe : Pattern := hexRunRe 64

def macRe : Pattern where
  notAfter c := isAlnum c || c == ':' || c == '-'
  body := .seq (.exactly 5 (pair fun c => c == ':' || c == '-')) (.exactly 2 hex)
  notBefore := .one fun c => isAlnum c || c == ':' || c == '-'

def uuidRe : Pattern where
  notAfter c := isAlnum c || c == '-'
  body := .chain (.exactly 8 hex) [.lit '-', .exactly 4 hex, .lit '-', .exactly 4 hex, .lit '-',
    .exactly 4 hex, .lit '-', .exactly 12 hex]
  notBefore := .one fun c => isAlnum c || c == '-'

def bareUuidRe : Pattern := hexRunRe 32

def ipv4Re : Pattern where
  notAfter c := isAlnum c || c == '.'
  body := .seq (.exactly 3 (.seq octet (.lit '.'))) octet
  notBefore := .one fun c => isAlnum c || c == '.'

/-- `HEX{1,4}`. -/
def group : Body := .between 1 4 hex

/-- `HEX{1,4}:`. -/
def groupColon : Body := .seq group (.lit ':')

/-- `:HEX{1,4}`. -/
def colonGroup : Body := .seq (.lit ':') group

def ipv6Re : Pattern where
  notAfter c := isHex c || c == ':' || c == '.'
  body := .oneOf (.seq (.exactly 7 groupColon) group)
    [.seq (.between 1 7 groupColon) (.lit ':'),
      .chain (.between 1 6 groupColon) [.lit ':', group],
      .seq (.between 1 5 groupColon) (.between 1 2 colonGroup),
      .seq (.between 1 4 groupColon) (.between 1 3 colonGroup),
      .seq (.between 1 3 groupColon) (.between 1 4 colonGroup),
      .seq (.between 1 2 groupColon) (.between 1 5 colonGroup),
      .chain group [.lit ':', .between 1 6 colonGroup],
      .chain (.lit ':') [.lit ':', .between 0 6 groupColon, group]]
  notBefore := .one fun c => isHex c || c == ':' || c == '.'

/-- `[0-9A-Za-z_-]`. -/
def isLabelChar (c : Char) : Bool :=
  isAlnum c || c == '_' || c == '-'

def fqdnRe : Pattern where
  notAfter c := isLabelChar c || c == '.' || c == '@'
  body := .chain (.atLeast 0 (.seq (.atLeast 1 (.one isLabelChar)) (.lit '.')))
    [.atLeast 0 (.one isLabelChar), .one isLetter, .atLeast 0 (.one isLabelChar), .lit '.',
      .atLeast 2 (.one isLetter)]
  notBefore := .one fun c => isAlnum c || c == '.' || c == '-'

/-- `_PATTERNS`, in order. -/
def patterns : List (Category × Pattern) :=
  [(.fingerprint, fingerprintRe), (.digest, digestRe), (.mac, macRe), (.uuid, uuidRe),
    (.uuid, bareUuidRe), (.ipv4, ipv4Re), (.ipv6, ipv6Re), (.fqdn, fqdnRe)]

/-- `_TOKEN_RE`. -/
def tokenRe (table : CharTable) : Body :=
  .chain (.chain (.lit '<') ("redacted-".toList.map .lit))
    [.atLeast 1 (.one fun c => ('a' ≤ c && c ≤ 'z') || isDigit c || c == '_'), .lit '-',
      .atLeast 1 (.one fun c => (table.digit c).isSome), .lit '>']

/-- `_TOKEN_RE.fullmatch(value)`. -/
def isToken (table : CharTable) (value : List Char) : Bool :=
  value.length ∈ lengths (tokenRe table) value

/-- `_is_dns_name`. -/
def isDnsName (candidate : List Char) : Bool :=
  let lowered := lower candidate
  if preservedDomainSuffixes.any fun suffix =>
      lowered == suffix || ('.' :: suffix).isSuffixOf lowered then false
  else !(lowered.splitOn '.').any fun label => filenameLabels.contains label

end Patterns

/-- The state of a `Redactor`. `issued` has the calls of `token_for` with what they returned, of
which the code keeps the number for each category. -/
structure Redactor where
  tokens : List ((Category × List Char) × List Char) := []
  counts : Category → ℕ := fun _ => 0
  issued : List ((Category × List Char) × List Char) := []

namespace Redactor

/-- `self._tokens.get(key)`. -/
def lookup (redactor : Redactor) (key : Category × List Char) : Option (List Char) :=
  (redactor.tokens.find? fun entry => entry.1 = key).map Prod.snd

end Redactor

/-- `f"<redacted-{category}-{n}>"`. -/
def tokenText (category : Category) (n : ℕ) : List Char :=
  "<redacted-".toList ++ category.name ++ '-' :: Nat.toDigits 10 n ++ ['>']

def tokenFor (category : Category) (value : List Char) (redactor : Redactor) :
    List Char × Redactor :=
  match redactor.lookup (category, value) with
  | some token =>
      (token, { redactor with issued := redactor.issued ++ [((category, value), token)] })
  | none =>
      let n := redactor.counts category + 1
      let token := tokenText category n
      (token, {
        tokens := redactor.tokens ++ [((category, value), token)]
        counts := Function.update redactor.counts category n
        issued := redactor.issued ++ [((category, value), token)] })

/-- The function `replace` of `redact_text`. -/
def replace (table : CharTable) (category : Category) (value : List Char) (redactor : Redactor) :
    List Char × Redactor :=
  if isToken table value = true then (value, redactor)
  else if category = .fqdn ∧ isDnsName value = false then (value, redactor)
  else tokenFor category value redactor

/-- One round of the loop of `redact_text`. -/
def pass (table : CharTable) (rule : Category × Pattern) (text : List Char) (redactor : Redactor) :
    List Char × Redactor :=
  sub rule.2 (replace table rule.1) text redactor

def redactText (table : CharTable) (text : List Char) (redactor : Redactor) :
    List Char × Redactor :=
  patterns.foldl (fun s rule => pass table rule s.1 s.2) (text, redactor)

/-- The values that are neither strings nor containers. -/
inductive Scalar where
  | null
  | bool (value : Bool)
  | int (value : ℤ)
  | float (repr : String)
deriving DecidableEq, Repr

/-- A JSON document. -/
inductive Document where
  | dict (entries : List (List Char × Document))
  | list (items : List Document)
  | str (text : List Char)
  | scalar (value : Scalar)

/-- The key is one of `_EXEMPT_KEYS`, up to case. -/
def isExempt (key : Option (List Char)) : Bool :=
  key.any fun key => exemptKeys.contains (lower key)

/-- `_IDENTIFYING_KEYS.get(key.lower())`. -/
def identifyingCategory (key : Option (List Char)) : Option Category :=
  key.bind fun key => (identifyingKeys.find? fun entry => entry.1 = lower key).map Prod.snd

/-- `Redactor.redact_value` of a string. -/
def redactString (table : CharTable) (key : Option (List Char)) (value : List Char)
    (redactor : Redactor) : List Char × Redactor :=
  if isExempt key = true then (value, redactor)
  else
    let (redacted, redactor) := redactText table value redactor
    if redacted ≠ value then (redacted, redactor)
    else if value ≠ [] ∧ isToken table value = false then
      match identifyingCategory key with
      | some category => tokenFor category value redactor
      | none => (redacted, redactor)
    else (redacted, redactor)

mutual

/-- `Redactor.redact_value`. -/
def redactValue (table : CharTable) : Option (List Char) → Document → Redactor →
    Document × Redactor
  | _, .dict entries, redactor =>
      let (entries, redactor) := redactEntries table entries redactor
      (.dict entries, redactor)
  | _, .list items, redactor =>
      let (items, redactor) := redactItems table items redactor
      (.list items, redactor)
  | key, .str text, redactor =>
      let (text, redactor) := redactString table key text redactor
      (.str text, redactor)
  | _, .scalar value, redactor => (.scalar value, redactor)

def redactItems (table : CharTable) : List Document → Redactor → List Document × Redactor
  | [], redactor => ([], redactor)
  | item :: items, redactor =>
      let (item, redactor) := redactValue table none item redactor
      let (items, redactor) := redactItems table items redactor
      (item :: items, redactor)

def redactEntries (table : CharTable) : List (List Char × Document) → Redactor →
    List (List Char × Document) × Redactor
  | [], redactor => ([], redactor)
  | entry :: entries, redactor =>
      let (value, redactor) := redactEntry table entry redactor
      let (entries, redactor) := redactEntries table entries redactor
      (value :: entries, redactor)

/-- One item of the dictionary comprehension. -/
def redactEntry (table : CharTable) : List Char × Document → Redactor →
    (List Char × Document) × Redactor
  | (key, value), redactor =>
      let (value, redactor) := redactValue table (some key) value redactor
      ((key, value), redactor)

end

end Asmb8Ikvm.Evidence
