import Asmb8Ikvm.Lib.OrderedDict

/-!
# The answer file of the automated installer

`answer.toml.j2` of the role `asmb8_autoinstall_iso`: the variables of the role are
written text by text into a TOML file that tells the installer which disks to erase.
The template escapes quotation marks and backslashes in its strings and nothing else.

A variable may hold any scalar, and where a list or a mapping is meant also any list or
mapping of scalars. Floating-point numbers and deeper nesting are left out.
-/

namespace Asmb8Ikvm.Iso

section Variables

/-- A scalar of a playbook. -/
inductive Scalar where
  | none
  | bool (value : Bool)
  | int (value : ℤ)
  | text (value : List Char)
deriving DecidableEq, Repr

/-- The filter `string`. -/
def Scalar.string : Scalar → List Char
  | .none => "None".toList
  | .bool true => "True".toList
  | .bool false => "False".toList
  | .int value => (toString value).toList
  | .text value => value

def Scalar.truthy : Scalar → Bool
  | .none => false
  | .bool value => value
  | .int value => value != 0
  | .text value => value != []

/-- What `{{ }}` prints. -/
def Scalar.print : Scalar → List Char
  | .none => []
  | value => value.string

/-- `| length`, which a text only has. -/
def Scalar.length : Scalar → Option ℕ
  | .text value => some value.length
  | _ => Option.none

/-- The test `string`. -/
def Scalar.isString : Scalar → Bool
  | .text _ => true
  | _ => false

/-- A variable that may be set to any shape: a disk list is meant to be a list, but a text and a
mapping are sequences to the template as well. -/
inductive Variable where
  | scalar (value : Scalar)
  | list (values : List Scalar)
  | mapping (dict : OrderedDict Scalar Scalar)

/-- What a `for` loop goes through; the scalars that are no texts have no elements. -/
def Variable.elements : Variable → List Scalar
  | .scalar (.text value) => value.map fun c => .text [c]
  | .scalar _ => []
  | .list values => values
  | .mapping dict => dict.entries.map Prod.fst

/-- `| length`. -/
def Variable.length : Variable → Option ℕ
  | .scalar value => value.length
  | value => some value.elements.length

def Variable.truthy : Variable → Bool
  | .scalar value => value.truthy
  | value => value.elements != []

def Variable.isMapping : Variable → Bool
  | .mapping _ => true
  | _ => false

/-- The entries of a mapping; the other shapes have no `items`. -/
def Variable.pairs : Variable → List (Scalar × Scalar)
  | .mapping dict => dict.entries
  | _ => []

/-- The variables `asmb8_autoinstall_iso_answer_*`. -/
structure Answer where
  keyboard : Scalar
  country : Scalar
  fqdn : Scalar
  mailto : Scalar
  timezone : Scalar
  rootPassword : Scalar
  rootPasswordHashed : Scalar
  rebootOnError : Scalar
  rebootMode : Scalar
  networkSource : Scalar
  networkCidr : Scalar
  networkDns : Scalar
  networkGateway : Scalar
  networkFilter : Variable
  diskFilesystem : Scalar
  diskList : Variable
  diskFilter : Variable
  diskFilterMatch : Scalar
  diskZfs : Variable
  diskLvm : Variable
  diskBtrfs : Variable

end Variables

section Template

/-- The filter `replace` for a single character. -/
def replace (old : Char) (new : List Char) (text : List Char) : List Char :=
  text.flatMap fun c => if c = old then new else [c]

def tomlStr (value : Scalar) : List Char :=
  '"' :: replace '"' ['\\', '"'] (replace '\\' ['\\', '\\'] value.string) ++ ['"']

def tomlScalar (value : Scalar) : List Char :=
  match value with
  | .bool true => "true".toList
  | .bool false => "false".toList
  | .int value => (toString value).toList
  | value => tomlStr value

def kebab (key : List Char) : List Char :=
  replace '_' ['-'] key

/-- A line `key = value` of the template. -/
def assignment (key value : List Char) : List Char :=
  key ++ " = ".toList ++ value ++ ['\n']

/-- The `for` loop over `disk_list`. -/
def diskLoop : List Scalar → List Char
  | [] => []
  | [disk] => tomlStr disk
  | disk :: others => tomlStr disk ++ ", ".toList ++ diskLoop others

/-- The `for` loop over the entries of a mapping, with what stands before the key. -/
def optionLoop (intro : List Char) (pairs : List (List Char × Scalar)) : List Char :=
  pairs.flatMap fun pair => assignment (intro ++ pair.1) (tomlScalar pair.2)

def renderGlobal (a : Answer) : List Char :=
  "[global]\n".toList ++
  assignment "keyboard".toList (tomlStr a.keyboard) ++
  assignment "country".toList (tomlStr a.country) ++
  assignment "fqdn".toList (tomlStr a.fqdn) ++
  (if a.mailto.truthy then assignment "mailto".toList (tomlStr a.mailto) else []) ++
  assignment "timezone".toList (tomlStr a.timezone) ++
  (if a.rootPasswordHashed.truthy then
    assignment "root-password-hashed".toList (tomlStr a.rootPasswordHashed)
  else if a.rootPassword.truthy then
    assignment "root-password".toList (tomlStr a.rootPassword)
  else []) ++
  assignment "reboot-on-error".toList (tomlScalar a.rebootOnError) ++
  assignment "reboot-mode".toList (tomlStr a.rebootMode) ++
  ['\n']

/-- The keys of a mapping as they are printed. -/
def printed (pairs : List (Scalar × Scalar)) : List (List Char × Scalar) :=
  pairs.map fun pair => (pair.1.print, pair.2)

/-- Options with their keys in kebab case. -/
def kebabed (pairs : List (Scalar × Scalar)) : List (List Char × Scalar) :=
  pairs.map fun pair => (kebab pair.1.string, pair.2)

def renderNetwork (a : Answer) : List Char :=
  "[network]\n".toList ++
  assignment "source".toList (tomlStr a.networkSource) ++
  (if a.networkSource = .text "from-answer".toList then
    assignment "cidr".toList (tomlStr a.networkCidr) ++
    assignment "dns".toList (tomlStr a.networkDns) ++
    assignment "gateway".toList (tomlStr a.networkGateway)
  else []) ++
  (if a.networkFilter.truthy then optionLoop "filter.".toList (printed a.networkFilter.pairs)
  else [])

def renderDiskSetup (a : Answer) : List Char :=
  "[disk-setup]\n".toList ++
  assignment "filesystem".toList (tomlStr a.diskFilesystem) ++
  (if a.diskList.truthy then
    assignment "disk-list".toList ('[' :: diskLoop a.diskList.elements ++ [']'])
  else []) ++
  (if a.diskFilter.truthy then
    optionLoop "filter.".toList (printed a.diskFilter.pairs) ++
    assignment "filter-match".toList (tomlStr a.diskFilterMatch)
  else []) ++
  (if a.diskFilesystem = .text "zfs".toList then
    optionLoop "zfs.".toList (kebabed a.diskZfs.pairs)
  else []) ++
  (if a.diskFilesystem = .text "ext4".toList ∨ a.diskFilesystem = .text "xfs".toList then
    optionLoop "lvm.".toList (kebabed a.diskLvm.pairs)
  else []) ++
  (if a.diskFilesystem = .text "btrfs".toList then
    optionLoop "btrfs.".toList (kebabed a.diskBtrfs.pairs)
  else [])

/-- The variables whose `items` the template asks for. -/
def itemised (a : Answer) : List Variable :=
  (if a.networkFilter.truthy then [a.networkFilter] else []) ++
  (if a.diskFilter.truthy then [a.diskFilter] else []) ++
  (if a.diskFilesystem = .text "zfs".toList then [a.diskZfs] else []) ++
  (if a.diskFilesystem = .text "ext4".toList ∨ a.diskFilesystem = .text "xfs".toList then
    [a.diskLvm]
  else []) ++
  (if a.diskFilesystem = .text "btrfs".toList then [a.diskBtrfs] else [])

/-- `answer.toml.j2`. The template fails when it asks something for `items` that is no mapping, or
goes through a disk list that has no elements to go through. -/
def answerToml (a : Answer) : Option (List Char) :=
  if (itemised a).all Variable.isMapping ∧ (a.diskList.truthy → a.diskList.length.isSome) then
    some (renderGlobal a ++ renderNetwork a ++ renderDiskSetup a)
  else none

end Template

end Asmb8Ikvm.Iso
