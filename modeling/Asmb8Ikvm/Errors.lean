import Asmb8Ikvm.Lib.Bytes

/-!
# Failures

`plugins/module_utils/errors.py` classifies every failure the collection reports.
`ErrorClass` enumerates the classes, `IkvmError` is the exception that carries
one, and `Exn` adds the Python exceptions that are not classified: the ones a
caller which catches `IkvmError` only lets through.

The message and the diagnostic of an `IkvmError` are the texts given to the
constructor, before the redaction the constructor applies to them; `secrets` is
what it is told to remove.
-/

namespace Asmb8Ikvm

/-- The classes of `errors.ErrorClass`; each subclass of `IkvmError` has one. -/
inductive ErrorClass where
  | connection
  | tlsValidation
  | authentication
  | unsupportedCapability
  | invalidState
  | timeout
  | protocol
  | remoteOperation
  | identityMismatch
  | bmcBusy
deriving DecidableEq, Repr

/-- `errors.IkvmError` with the class of the subclass that was raised. -/
structure IkvmError where
  errorClass : ErrorClass
  message : String
  endpoint : Option String := none
  operation : Option String := none
  diagnostic : Option String := none
  secrets : List String := []
  indeterminate : Bool := false
  returnValue : Option ℤ := none
deriving DecidableEq, Repr

/-- The exceptions the modelled functions raise. -/
inductive Exn where
  | ikvm (error : IkvmError)
  | idleTimeout
  | eofError (message : String)
  | unicodeEncodeError
  | overflowError
  | valueError (message : String)
  | assertionError (message : String)
  | cacheReadOnlyError (message : String)
  | osError (message : String)
deriving DecidableEq, Repr

/-- `ProtocolError(message, endpoint=..., operation=...)`. -/
def protocolError (message operation : String) (endpoint : Option String := none) : Exn :=
  .ikvm { errorClass := .protocol, message, endpoint, operation := some operation }

/-- `ConnectionError_(message, endpoint=..., operation=...)`. -/
def connectionError (message operation : String) (endpoint : Option String := none) : Exn :=
  .ikvm { errorClass := .connection, message, endpoint, operation := some operation }

/-- The result is a value or a classified failure. -/
def Classified {α : Type*} : Except Exn α → Prop
  | .ok _ => True
  | .error (.ikvm _) => True
  | .error _ => False

theorem classified_error {α : Type*} (exn : Exn) :
    Classified (.error exn : Except Exn α) ↔ ∃ error, exn = .ikvm error := by
  cases exn <;> simp [Classified]

end Asmb8Ikvm
