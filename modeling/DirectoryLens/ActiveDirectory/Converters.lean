/-
The converters for the type word of groups.

* `Registry.registerGroupFlags`: a table with these converters added, up to the first failure;
* `Registry.withGroupFlags`: the built-in table with them.
-/
import DirectoryLens.ActiveDirectory.GroupType
import DirectoryLens.Converter.Registry

namespace DirectoryLens.Registry

/-- The bits of a group's type word that have a converter, by its name. -/
def groupFlags : List (String × UInt32) :=
  [("group_security", GroupType.securityFlag), ("group_global", GroupType.globalFlag),
   ("group_domain_local", GroupType.domainLocalFlag), ("group_universal", GroupType.universalFlag)]

/-- A table with converters for bits added one after another, up to the first failure; what was
added before it stays. -/
def registerFlags (r : Registry) : List (String × UInt32) → Registry × Except QueryError Unit
  | [] => (r, .ok ())
  | (name, mask) :: rest => match r.register name (.flag name mask) with
    | .ok r => r.registerFlags rest
    | .error e => (r, .error e)

/-- A table with the converters for groups added. -/
def registerGroupFlags (r : Registry) : Registry × Except QueryError Unit :=
  r.registerFlags groupFlags

/-- The built-in table with the converters for groups. -/
def withGroupFlags : Except QueryError Registry :=
  match builtin.registerGroupFlags with
  | (r, .ok ()) => .ok r
  | (_, .error e) => .error e

end DirectoryLens.Registry
