import Asmb8Ikvm.Lib.Regex
import Asmb8Ikvm.Lib.Text

/-!
# Redaction

`redact` of `errors.py`: known secrets are replaced literally, longest first,
then seven substitutions replace the values of labels that announce a secret,
and the outcome is cut to a bounded length.

A text is a list of glyphs, so that the same definition says what becomes of
marked characters.
-/

namespace Asmb8Ikvm

open PyText Regex

def maxDiagnosticBytes : ℕ := 2048

def redacted : String := "[REDACTED]"

def amiSecretNames : List String :=
  ["SESSION_COOKIE", "SessionCookie", "STOKEN", "kvmtoken", "webcookie", "WEBVAR_PASSWORD",
    "CSRFTOKEN"]

namespace Redact

/-- `['\"]`. -/
def isQuote (c : Char) : Bool :=
  c == '\'' || c == '"'

/-- `[:=]`. -/
def isSeparator (c : Char) : Bool :=
  c == ':' || c == '='

/-- The words, without regard to case. -/
def names (first : String) (others : List String) : Expr :=
  .oneOf sameLetter first.toList (others.map String.toList)

def literal (text : String) : Expr :=
  .word text.toList sameLetter

def sameFolded (a b : Char) : Bool :=
  foldCase a == foldCase b

def headerWords : List String :=
  ["authorization", "proxy-authorization", "set-cookie", "cookie"]

def headerNames : Expr :=
  names "authorization" headerWords.tail

/-- `\s*[set]\s*`. -/
def spaced (set : Char → Bool) : Expr :=
  .chain (.many isSpace) [.one set, .many isSpace]

def notLineBreak (c : Char) : Bool :=
  c != '\r' && c != '\n'

/-- `[^\s,;&}'\"<]`. -/
def isAmiValue (c : Char) : Bool :=
  !(isSpace c || c == ',' || c == ';' || c == '&' || c == '}' || isQuote c || c == '<')

/-- `[^\s,;&}'\"]`. -/
def isGenericValue (c : Char) : Bool :=
  !(isSpace c || c == ',' || c == ';' || c == '&' || c == '}' || isQuote c)

/-- `[a-z0-9_:.-]`. -/
def isTagChar (c : Char) : Bool :=
  isLetter c || c.isDigit || c == '_' || c == ':' || c == '.' || c == '-'

/-- `[a-z0-9+.-]`. -/
def isSchemeChar (c : Char) : Bool :=
  isLetter c || c.isDigit || c == '+' || c == '.' || c == '-'

/-- A pattern and its replacement. -/
structure Rule where
  expr : Expr
  template : List Part

def mark : Part := .literal redacted.toList

variable (table : CharTable)

def quotedHeader : Rule where
  expr := .chain (.boundary table.isWord) [
    .group 1 headerNames,
    .group 2 (.seq (.run (fun c => !table.isWord c) 0 (some 3) true) (spaced isSeparator)),
    .group 3 (.one isQuote),
    .runBut 3 (fun c => c != '\n'),
    .backref 3 sameFolded]
  template := [.ref 1, .ref 2, .ref 3, mark, .ref 3]

def headerLine : Rule where
  expr := .chain .lineStart [
    .group 1 (.many isSpace),
    .group 2 headerNames,
    .group 3 (spaced (· == ':')),
    .some notLineBreak]
  template := [.ref 1, .ref 2, .ref 3, mark]

def header : Rule where
  expr := .chain (.boundary table.isWord) [
    .group 1 headerNames,
    .group 2 (spaced (· == ':')),
    .some notLineBreak]
  template := [.ref 1, .ref 2, mark]

def amiSecret : Rule where
  expr := .chain (.group 1 (.opt isQuote)) [
    .group 2 (names "SESSION_COOKIE" amiSecretNames.tail),
    .backref 1 sameFolded,
    .group 3 (spaced isSeparator),
    .group 4 (.opt isQuote),
    .many isAmiValue,
    .backref 4 sameFolded]
  template := [.ref 1, .ref 2, .ref 1, .ref 3, .ref 4, mark, .ref 4]

/-- `password|passwd|pwd|secret|passphrase|api[_-]?key|token|apikey`. -/
def genericNames : Expr :=
  .alt (names "password" ["passwd", "pwd", "secret", "passphrase"])
    (.alt (.chain (literal "api") [.opt (fun c => c == '_' || c == '-'), literal "key"])
      (names "token" ["apikey"]))

def genericSecret : Rule where
  expr := .chain (.boundary table.isWord) [
    .group 1 genericNames,
    .group 2 (.seq (.opt isQuote) (spaced isSeparator)),
    .group 3 (.opt isQuote),
    .many isGenericValue,
    .backref 3 sameFolded]
  template := [.ref 1, .ref 2, .ref 3, mark, .ref 3]

def elementNames : List String := ["password", "secret", "passphrase", "token", "key"]

def xmlElement : Rule where
  expr := .chain (literal "<") [
    .group 1 (.chain (.many isTagChar)
      [names "password" elementNames.tail, .many isTagChar]),
    literal ">",
    .run (fun _ => true) 0 none false,
    literal "</",
    .backref 1 sameFolded,
    literal ">"]
  template := [.literal ['<'], .ref 1, .literal ['>'], mark, .literal ['<', '/'], .ref 1,
    .literal ['>']]

def urlUserinfo : Rule where
  expr := .chain (.boundary table.isWord) [
    .group 1 (.chain (.one isLetter) [.many isSchemeChar, literal "://"]),
    .group 2 (.some fun c => !(c == '/' || isSpace c || c == ':' || c == '@')),
    literal ":",
    .group 3 (.some fun c => !(c == '/' || isSpace c || c == '@')),
    literal "@"]
  template := [.ref 1, .ref 2, .literal [':'], mark, .literal ['@']]

/-- `_REDACTION_PATTERNS`, in the order they are applied. -/
def patterns : List Rule :=
  [quotedHeader table, headerLine, header table, amiSecret, genericSecret table, xmlElement,
    urlUserinfo table]

end Redact

section

variable {α : Type} [Glyph α]

/-- `text.replace(old, new)` for a text `old` that is not empty, where the next `skip`
glyphs belong to an occurrence that has been replaced. -/
def replaceFrom (old new : List Char) : ℕ → List α → List α
  | _, [] => []
  | skip + 1, _ :: rest => replaceFrom old new skip rest
  | 0, glyph :: rest =>
      if startsWith (fun a b => a == b) old (glyph :: rest) then
        new.map ofChar ++ replaceFrom old new (old.length - 1) rest
      else glyph :: replaceFrom old new 0 rest

/-- The secrets to remove, without repetition, empty ones left out, longest first. -/
def knownSecrets (extraSecrets : List (Option String)) : List String :=
  ((extraSecrets.reduceOption.filter (· ≠ "")).dedup).insertionSort
    fun a b => b.length ≤ a.length

/-- `redact` up to the cut: the literal replacements and the substitutions. -/
def redactAll (table : CharTable) (text : List α) (extraSecrets : List (Option String)) :
    List α :=
  let replaced := (knownSecrets extraSecrets).foldl
    (fun result secret => replaceFrom secret.toList redacted.toList 0 result) text
  (Redact.patterns table).foldl (fun result rule => sub rule.expr rule.template result) replaced

/-- The cut: the first `MAX_DIAGNOSTIC_BYTES` characters and a remark on the rest. -/
def truncate (result : List α) : List α :=
  if maxDiagnosticBytes < result.length then
    let omitted := result.length - maxDiagnosticBytes
    result.take maxDiagnosticBytes ++
      ("... [truncated, " ++ toString omitted ++ " more characters]").toList.map ofChar
  else result

/-- `redact(text, extra_secrets)` of a text and a list of secrets some of which may be
missing. -/
def redactGlyphs (table : CharTable) (text : List α) (extraSecrets : List (Option String)) :
    List α :=
  truncate (redactAll table text extraSecrets)

def redact (table : CharTable) (text : String) (extraSecrets : List (Option String)) : String :=
  String.ofList (redactGlyphs table text.toList extraSecrets)

end

section Marks

variable {α : Type} [Glyph α]

theorem replaceFrom_map_char (old new : List Char) (skip : ℕ) (text : List α) :
    replaceFrom old new skip (text.map char) = (replaceFrom old new skip text).map char := by
  induction text generalizing skip with
  | nil => cases skip <;> rfl
  | cons glyph text ih =>
      cases skip with
      | succ skip => exact ih skip
      | zero =>
          have starts := startsWith_map (f := (char : α → Char)) (fun _ => rfl)
            (fun a b => a == b) old (glyph :: text)
          rw [List.map_cons] at starts ⊢
          rw [replaceFrom, replaceFrom, starts, ih, ih]
          split_ifs
          · simp
          · rfl

theorem truncate_map_char (result : List α) :
    truncate (result.map char) = (truncate result).map char := by
  rw [truncate, truncate, List.length_map]
  split_ifs
  · dsimp only
    rw [List.map_append, List.map_take, List.map_map]
    congr 1
    exact List.map_congr_left fun c _ => (char_ofChar (α := α) c).symm
  · rfl

/-- What becomes of the characters does not depend on their marks. -/
theorem redactGlyphs_map_char (table : CharTable) (text : List α)
    (extraSecrets : List (Option String)) :
    redactGlyphs table (text.map char) extraSecrets =
      (redactGlyphs table text extraSecrets).map char := by
  have replaced : ∀ (secrets : List String) (text : List α),
      secrets.foldl (fun result secret => replaceFrom secret.toList redacted.toList 0 result)
          (text.map char) =
        (secrets.foldl (fun result secret =>
          replaceFrom secret.toList redacted.toList 0 result) text).map char := by
    intro secrets text
    induction secrets generalizing text with
    | nil => rfl
    | cons secret secrets ih => rw [List.foldl_cons, List.foldl_cons, replaceFrom_map_char, ih]
  have substituted : ∀ (rules : List Redact.Rule) (text : List α),
      rules.foldl (fun result rule => sub rule.expr rule.template result) (text.map char) =
        (rules.foldl (fun result rule => sub rule.expr rule.template result) text).map char := by
    intro rules text
    induction rules generalizing text with
    | nil => rfl
    | cons rule rules ih =>
        rw [List.foldl_cons, List.foldl_cons,
          sub_map (f := (char : α → Char)) (fun _ => rfl) char_ofChar, ih]
  rw [redactGlyphs, redactGlyphs, redactAll, redactAll, replaced, substituted, truncate_map_char]

end Marks

namespace Redact

section Matches

variable {α : Type} [Glyph α] {table : CharTable} {prev : Option Char} {taken rest : List α}
  {groups groups' : ℕ → List α}

/-- The glyphs spell one of the words, without regard to case. -/
def SpellsOneOf (words : List String) (glyphs : List α) : Prop :=
  ∃ word ∈ words, Spells sameLetter word.toList glyphs

/-- One glyph of the set, with white space around it. -/
def IsSpaced (set : Char → Bool) (glyphs : List α) : Prop :=
  ∃ left glyph right, glyphs = left ++ glyph :: right ∧ set (char glyph) = true ∧
    (∀ space ∈ left, isSpace (char space) = true) ∧ ∀ space ∈ right, isSpace (char space) = true

/-- A quote or nothing. -/
def OptQuote (glyphs : List α) : Prop :=
  glyphs = [] ∨ ∃ glyph, isQuote (char glyph) = true ∧ glyphs = [glyph]

theorem ways_names {first : String} {others : List String} :
    Ways (names first others) prev groups taken rest groups' ↔
      SpellsOneOf (first :: others) taken ∧ groups' = groups := by
  rw [names, ways_oneOf, SpellsOneOf, ← List.map_cons]
  simp only [List.mem_map, exists_exists_and_eq_and]

theorem ways_spaced {set : Char → Bool} :
    Ways (spaced set) prev groups taken rest groups' ↔
      IsSpaced set taken ∧ groups' = groups := by
  simp only [spaced, Expr.chain, Ways, ways_many, ways_one, IsSpaced]
  constructor
  · rintro ⟨left, _, _, rfl, ⟨spaces, rfl⟩, _, right, _, rfl, ⟨⟨glyph, inSet, rfl⟩, rfl⟩,
      spaces', rfl⟩
    exact ⟨⟨left, glyph, right, rfl, inSet, spaces, spaces'⟩, rfl⟩
  · rintro ⟨⟨left, glyph, right, rfl, inSet, spaces, spaces'⟩, rfl⟩
    exact ⟨left, glyph :: right, _, rfl, ⟨spaces, rfl⟩, [glyph], right, _, rfl,
      ⟨⟨glyph, inSet, rfl⟩, rfl⟩, spaces', rfl⟩

theorem quotedHeader_ways
    (ways : Ways (quotedHeader table).expr prev (fun _ => []) taken rest groups) :
    ∃ name sep quote body closing, taken = name ++ (sep ++ (quote ++ (body ++ closing))) ∧
      groups 1 = name ∧ groups 2 = sep ∧ groups 3 = quote ∧
      prev.any table.isWord ≠ (taken ++ rest).head?.any (fun glyph => table.isWord (char glyph)) ∧
      SpellsOneOf headerWords name ∧ (∃ glyph, isQuote (char glyph) = true ∧ quote = [glyph]) ∧
      Spells sameFolded (quote.map char) closing ∧
      (∃ gap mid, sep = gap ++ mid ∧ gap.length ≤ 3 ∧
        (∀ glyph ∈ gap, table.isWord (char glyph) = false) ∧ IsSpaced isSeparator mid) ∧
      ∀ glyph ∈ body, char glyph ≠ '\n' ∧ ∀ first ∈ quote, char glyph ≠ char first := by
  simp only [quotedHeader, Expr.chain, Ways, headerNames, ways_names, ways_one, ways_spaced]
    at ways
  rcases ways with ⟨_, _, _, rfl, ⟨rfl, boundary, rfl⟩, name, _, _, rfl,
    ⟨_, ⟨isName, rfl⟩, rfl⟩, _, _, _, rfl, ⟨_, ⟨gap, mid, _, rfl, ⟨notWord, -, most, rfl⟩, isSep,
    rfl⟩, rfl⟩, _, _, _, rfl, ⟨_, ⟨⟨quote, quoted, rfl⟩, rfl⟩, rfl⟩, body, closing, _, rfl,
    ⟨length, rfl⟩, isClosing, rfl⟩
  have oneLine : ∀ glyph ∈ body, char glyph ≠ '\n' := by
    simpa using mem_set_of_le_butLength length
  have unquoted : ∀ glyph ∈ body, char glyph ≠ char quote :=
    ne_of_le_butLength (by simpa using length)
  exact ⟨name, _, [quote], body, closing, rfl, by simp, by simp, by simp, boundary, isName,
    ⟨quote, quoted, rfl⟩, by simpa using isClosing,
    ⟨gap, mid, rfl, most 3 rfl, by simpa using notWord, isSep⟩,
    fun glyph mem => ⟨oneLine glyph mem, by simpa using unquoted glyph mem⟩⟩

theorem headerLine_ways (ways : Ways headerLine.expr prev (fun _ => []) taken rest groups) :
    ∃ spaces name sep value, taken = spaces ++ (name ++ (sep ++ value)) ∧
      groups 1 = spaces ∧ groups 2 = name ∧ groups 3 = sep ∧ (∀ c ∈ prev, c = '\n') ∧
      (∀ space ∈ spaces, isSpace (char space) = true) ∧ SpellsOneOf headerWords name ∧
      IsSpaced (· == ':') sep ∧
      (∀ glyph ∈ value, notLineBreak (char glyph) = true) ∧ value ≠ [] := by
  simp only [headerLine, Expr.chain, Ways, headerNames, ways_names, ways_many, ways_some,
    ways_spaced] at ways
  rcases ways with ⟨_, _, _, rfl, ⟨rfl, lineStart, rfl⟩, spaces, _, _, rfl,
    ⟨_, ⟨isSpaces, rfl⟩, rfl⟩, name, _, _, rfl, ⟨_, ⟨isName, rfl⟩, rfl⟩,
    sep, value, _, rfl, ⟨_, ⟨isSep, rfl⟩, rfl⟩, ⟨isValue, nonempty⟩, rfl⟩
  exact ⟨spaces, name, sep, value, rfl, by simp, by simp, by simp, lineStart, isSpaces, isName,
    isSep, isValue, nonempty⟩

theorem header_ways (ways : Ways (header table).expr prev (fun _ => []) taken rest groups) :
    ∃ name sep value, taken = name ++ (sep ++ value) ∧ groups 1 = name ∧ groups 2 = sep ∧
      prev.any table.isWord ≠ (taken ++ rest).head?.any (fun glyph => table.isWord (char glyph)) ∧
      SpellsOneOf headerWords name ∧ IsSpaced (· == ':') sep ∧
      (∀ glyph ∈ value, notLineBreak (char glyph) = true) ∧ value ≠ [] := by
  simp only [header, Expr.chain, Ways, headerNames, ways_names, ways_some, ways_spaced] at ways
  rcases ways with ⟨_, _, _, rfl, ⟨rfl, boundary, rfl⟩, name, _, _, rfl,
    ⟨_, ⟨isName, rfl⟩, rfl⟩, sep, value, _, rfl, ⟨_, ⟨isSep, rfl⟩, rfl⟩,
    ⟨isValue, nonempty⟩, rfl⟩
  exact ⟨name, sep, value, rfl, by simp, by simp, boundary, isName, isSep, isValue, nonempty⟩

theorem amiSecret_ways (ways : Ways amiSecret.expr prev (fun _ => []) taken rest groups) :
    ∃ quote name quote' sep opening value closing,
      taken = quote ++ (name ++ (quote' ++ (sep ++ (opening ++ (value ++ closing))))) ∧
      groups 1 = quote ∧ groups 2 = name ∧ groups 3 = sep ∧ groups 4 = opening ∧
      OptQuote quote ∧ SpellsOneOf amiSecretNames name ∧
      Spells sameFolded (quote.map char) quote' ∧ IsSpaced isSeparator sep ∧
      OptQuote opening ∧ (∀ glyph ∈ value, isAmiValue (char glyph) = true) ∧
      Spells sameFolded (opening.map char) closing := by
  simp only [amiSecret, Expr.chain, Ways, ways_names, ways_opt, ways_many, ways_spaced] at ways
  rcases ways with ⟨quote, _, _, rfl, ⟨_, ⟨isQuote, rfl⟩, rfl⟩, name, _, _, rfl,
    ⟨_, ⟨isName, rfl⟩, rfl⟩, quote', _, _, rfl, ⟨isQuote', rfl⟩, sep, _, _, rfl,
    ⟨_, ⟨isSep, rfl⟩, rfl⟩, opening, _, _, rfl, ⟨_, ⟨isOpening, rfl⟩, rfl⟩,
    value, closing, _, rfl, ⟨isValue, rfl⟩, isClosing, rfl⟩
  exact ⟨quote, name, quote', sep, opening, value, closing, rfl, by simp, by simp, by simp,
    by simp, isQuote, isName, by simpa using isQuote', isSep, isOpening, isValue,
    by simpa using isClosing⟩

/-- The glyphs spell a name of the generic pattern. -/
def IsGenericName (glyphs : List α) : Prop :=
  SpellsOneOf ["password", "passwd", "pwd", "secret", "passphrase"] glyphs ∨
    (∃ api dash key, glyphs = api ++ (dash ++ key) ∧ Spells sameLetter "api".toList api ∧
      (dash = [] ∨ ∃ glyph, (char glyph == '_' || char glyph == '-') = true ∧ dash = [glyph]) ∧
      Spells sameLetter "key".toList key) ∨
    SpellsOneOf ["token", "apikey"] glyphs

theorem ways_genericNames :
    Ways genericNames prev groups taken rest groups' ↔
      IsGenericName taken ∧ groups' = groups := by
  simp only [genericNames, Ways, ways_names, Expr.chain, ways_opt, literal, IsGenericName]
  constructor
  · rintro (⟨isName, rfl⟩ | ⟨api, _, _, rfl, ⟨isApi, rfl⟩, dash, key, _, rfl, ⟨isDash, rfl⟩,
      isKey, rfl⟩ | ⟨isName, rfl⟩)
    · exact ⟨.inl isName, rfl⟩
    · exact ⟨.inr (.inl ⟨api, dash, key, rfl, isApi, isDash, isKey⟩), rfl⟩
    · exact ⟨.inr (.inr isName), rfl⟩
  · rintro ⟨isName | ⟨api, dash, key, rfl, isApi, isDash, isKey⟩ | isName, rfl⟩
    · exact .inl ⟨isName, rfl⟩
    · exact .inr (.inl ⟨api, _, _, rfl, ⟨isApi, rfl⟩, dash, key, _, rfl, ⟨isDash, rfl⟩,
        isKey, rfl⟩)
    · exact .inr (.inr ⟨isName, rfl⟩)

theorem genericSecret_ways
    (ways : Ways (genericSecret table).expr prev (fun _ => []) taken rest groups) :
    ∃ name sep opening value closing,
      taken = name ++ (sep ++ (opening ++ (value ++ closing))) ∧
      groups 1 = name ∧ groups 2 = sep ∧ groups 3 = opening ∧
      prev.any table.isWord ≠ (taken ++ rest).head?.any (fun glyph => table.isWord (char glyph)) ∧
      IsGenericName name ∧ OptQuote opening ∧
      (∀ glyph ∈ value, isGenericValue (char glyph) = true) ∧
      Spells sameFolded (opening.map char) closing ∧
      ∃ quote mid, sep = quote ++ mid ∧ OptQuote quote ∧ IsSpaced isSeparator mid := by
  simp only [genericSecret, Expr.chain, Ways, ways_genericNames, ways_opt, ways_many,
    ways_spaced] at ways
  rcases ways with ⟨_, _, _, rfl, ⟨rfl, boundary, rfl⟩, name, _, _, rfl, ⟨_, ⟨isName, rfl⟩, rfl⟩,
    sep, _, _, rfl, ⟨_, ⟨quote, sep, _, rfl, ⟨isQuote, rfl⟩, isSep, rfl⟩, rfl⟩,
    opening, _, _, rfl, ⟨_, ⟨isOpening, rfl⟩, rfl⟩, value, closing, _, rfl,
    ⟨isValue, rfl⟩, isClosing, rfl⟩
  exact ⟨name, _, opening, value, closing, rfl, by simp, by simp, by simp, boundary, isName,
    isOpening, isValue, by simpa using isClosing, quote, sep, rfl, isQuote, isSep⟩

theorem urlUserinfo_ways
    (ways : Ways (urlUserinfo table).expr prev (fun _ => []) taken rest groups) :
    ∃ scheme user colon pass at', taken = scheme ++ (user ++ (colon ++ (pass ++ at'))) ∧
      groups 1 = scheme ∧ groups 2 = user ∧ Spells sameLetter [':'] colon ∧
      Spells sameLetter ['@'] at' ∧
      ∃ letter run slashes, scheme = letter :: (run ++ slashes) ∧ isLetter (char letter) = true ∧
        (∀ glyph ∈ run, isSchemeChar (char glyph) = true) ∧
        Spells sameLetter "://".toList slashes := by
  simp only [urlUserinfo, Expr.chain, Ways, ways_some, ways_one, ways_many, literal] at ways
  rcases ways with ⟨_, _, _, rfl, ⟨rfl, -, rfl⟩, _, _, _, rfl, ⟨_, ⟨_, _, _, rfl,
    ⟨⟨letter, inLetters, rfl⟩, rfl⟩, run, slashes, _, rfl, ⟨inScheme, rfl⟩, isSlashes, rfl⟩, rfl⟩,
    user, _, _, rfl, ⟨_, ⟨-, rfl⟩, rfl⟩, colon, _, _, rfl, ⟨isColon, rfl⟩,
    pass, at', _, rfl, ⟨_, ⟨-, rfl⟩, rfl⟩, isAt, rfl⟩
  exact ⟨_, user, colon, pass, at', rfl, by simp, by simp, isColon, isAt, letter, run, slashes,
    rfl, inLetters, inScheme, isSlashes⟩

theorem xmlElement_ways (ways : Ways xmlElement.expr prev (fun _ => []) taken rest groups) :
    ∃ less tag greater body close tag' greater',
      taken = less ++ (tag ++ (greater ++ (body ++ (close ++ (tag' ++ greater'))))) ∧
      groups 1 = tag ∧ Spells sameLetter ['<'] less ∧ Spells sameLetter ['>'] greater ∧
      Spells sameFolded (tag.map char) tag' ∧
      ∃ front name back, tag = front ++ (name ++ back) ∧ SpellsOneOf elementNames name ∧
        ∀ glyph ∈ front, isTagChar (char glyph) = true := by
  simp only [xmlElement, Expr.chain, Ways, ways_many, ways_names, literal] at ways
  rcases ways with ⟨less, _, _, rfl, ⟨isLess, rfl⟩, _, _, _, rfl, ⟨_, ⟨front, _, _, rfl,
    ⟨inTag, rfl⟩, name, back, _, rfl, ⟨isName, rfl⟩, -, rfl⟩, rfl⟩,
    greater, _, _, rfl, ⟨isGreater, rfl⟩, body, _, _, rfl, ⟨-, -, -, rfl⟩,
    close, _, _, rfl, ⟨-, rfl⟩, tag', greater', _, rfl, ⟨isTag', rfl⟩, -, rfl⟩
  exact ⟨less, _, greater, body, close, tag', greater', rfl, by simp, isLess, isGreater,
    by simpa using isTag', front, name, back, rfl, isName, inTag⟩

theorem not_spellsOneOf_nil {words : List String} (nonempty : ∀ word ∈ words, word.toList ≠ []) :
    ¬ SpellsOneOf words ([] : List α) := by
  rintro ⟨word, mem, spells⟩
  exact nonempty word mem (spells_nil_right.mp spells)

theorem not_isGenericName_nil : ¬ IsGenericName ([] : List α) := by
  rintro (isName | ⟨api, dash, key, split, isApi, -⟩ | isName)
  · exact not_spellsOneOf_nil (by decide) isName
  · rw [eq_comm, List.append_eq_nil_iff] at split
    rw [split.1, spells_nil_right] at isApi
    cases isApi
  · exact not_spellsOneOf_nil (by decide) isName

/-- No pattern matches the empty text. -/
theorem consumes_of_mem {rule : Rule} (mem : rule ∈ patterns table) :
    Consumes α rule.expr := by
  intro prev rest groups ways
  simp only [patterns, List.mem_cons, List.not_mem_nil, or_false] at mem
  rcases mem with rfl | rfl | rfl | rfl | rfl | rfl | rfl
  · rcases quotedHeader_ways ways with ⟨name, _, _, _, _, split, -, -, -, -, isName, -⟩
    rw [eq_comm, List.append_eq_nil_iff] at split
    exact not_spellsOneOf_nil (by decide) (split.1 ▸ isName)
  · rcases headerLine_ways ways with ⟨_, name, _, _, split, -, -, -, -, -, isName, -⟩
    simp only [eq_comm, List.append_eq_nil_iff] at split
    exact not_spellsOneOf_nil (by decide) (split.2.1 ▸ isName)
  · rcases header_ways ways with ⟨name, _, _, split, -, -, -, isName, -⟩
    rw [eq_comm, List.append_eq_nil_iff] at split
    exact not_spellsOneOf_nil (by decide) (split.1 ▸ isName)
  · rcases amiSecret_ways ways with ⟨_, name, _, _, _, _, _, split, -, -, -, -, -, isName, -⟩
    simp only [eq_comm, List.append_eq_nil_iff] at split
    exact not_spellsOneOf_nil (by decide) (split.2.1 ▸ isName)
  · rcases genericSecret_ways ways with ⟨name, _, _, _, _, split, -, -, -, -, isName, -⟩
    rw [eq_comm, List.append_eq_nil_iff] at split
    exact not_isGenericName_nil (split.1 ▸ isName)
  · rcases xmlElement_ways ways with ⟨less, _, _, _, _, _, _, split, -, isLess, -⟩
    rw [eq_comm, List.append_eq_nil_iff] at split
    rw [split.1, spells_nil_right] at isLess
    cases isLess
  · rcases urlUserinfo_ways ways with ⟨_, _, colon, _, _, split, -, -, isColon, -⟩
    simp only [eq_comm, List.append_eq_nil_iff] at split
    rw [split.2.2.1, spells_nil_right] at isColon
    cases isColon

end Matches

end Redact

end Asmb8Ikvm
