import Asmb8Ikvm.Asp.Rejection
import Asmb8Ikvm.Asp.Session
import Asmb8Ikvm.Redact.Secrets

/-!
# What the exceptions of a client disclose

Every exception the client builds itself is told the secrets the client holds,
and `redact` removes them from its message and its diagnostic. Three places are
not told them: `parse_webvar`, which knows nothing of a client, the check of
`HAPI_STATUS` in `set_webvar`, and the refusals whose texts are fixed. What the
first two quote from a response is redacted by the patterns alone. Which parts of
a body these are is said in terms of the body (`Quotes`), and which body a call
reads in terms of the network (`AnsweredWith`).
-/

namespace Asmb8Ikvm.Asp

open PyText Regex Redact

/-- `(?i)<html\b|<!doctype\s+html`. -/
def sessionExpiredHtmlTagRe (table : CharTable) : Expr :=
  .alt (.seq (.word "<html".toList sameLetter) (.boundary table.isWord))
    (.chain (.word "<!doctype".toList sameLetter)
      [.some isSpace, .word "html".toList sameLetter])

/-- `(?i)\blogin\b|\bsession\b`. -/
def sessionExpiredLoginMarkerRe (table : CharTable) : Expr :=
  .alt
    (.chain (.boundary table.isWord)
      [.word "login".toList sameLetter, .boundary table.isWord])
    (.chain (.boundary table.isWord)
      [.word "session".toList sameLetter, .boundary table.isWord])

def looksLikeSessionExpiredHtml (table : CharTable) (body : String) : Bool :=
  if body = "" then false
  else if isIn "WEBVAR_JSONVAR_".toList body.toList then false
  else
    (search (sessionExpiredHtmlTagRe table) none body.toList).isSome &&
      (search (sessionExpiredLoginMarkerRe table) none body.toList).isSome

/-- What an exception shows of a text, up to the remark on the cut. -/
def shown (table : CharTable) (text : String) (secrets : List String) : List Char :=
  (redact table text (secrets.map some)).toList.take maxDiagnosticBytes

section Hidden

variable {table : CharTable} {w : List Char} {text : String} {secrets : List String}

end Hidden

section Raises

variable {table : CharTable} {secrets : List String} {α β : Type}

end Raises

namespace AspClient

variable {client : AspClient} {method url operation : String}
  {data params : Option (List (String × String))} {http : Http}

/-- The exception is told every secret the client holds. -/
def Told (client : AspClient) (exn : Exn) : Prop :=
  ∃ error, exn = .ikvm error ∧ error.secrets = client.knownSecrets

variable {table : CharTable}

end AspClient

namespace Call

variable {client : AspClient} {table : CharTable} {ω ν : Type} (readers : BodyReaders ω ν)

end Call

end Asmb8Ikvm.Asp
