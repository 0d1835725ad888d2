import Asmb8Ikvm.Lib.FileSystem

/-!
# The state file

The record of a session and the file it is written to before it replaces the
record: `_write_state_atomic` and `read_state` of `daemon_runtime.py`. A record is
written and read as a JSON text; what a reader makes of a text is a parameter.
-/

namespace Asmb8Ikvm.Runtime

universe u

/-- The names of one session: the path of its state file, and the temporary path of a writer
with the pid of the daemon. -/
inductive StateName where
  | record
  | temp
deriving DecidableEq, Repr

/-- `json.dumps` of a record, and what `read_state` makes of a text. -/
structure Format (R : Type u) where
  dumps : R → List Char
  loads : List Char → Option R

/-- A record comes back from its text, and no shorter beginning of the text is a record. -/
structure Format.Lawful {R : Type u} (format : Format R) : Prop where
  loads_dumps : ∀ record, format.loads (format.dumps record) = some record
  loads_prefix : ∀ record text, text <+: format.dumps record → text ≠ format.dumps record →
    format.loads text = none

end Asmb8Ikvm.Runtime
