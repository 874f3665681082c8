/-
The type word of groups.

* `GroupType`: 32 bits, one for security and one for each scope;
* `GroupType.ofValue?`: the word that a value holds, signed or not;
* `GroupType.compose`: the word of a kind of group and a scope;
* `GroupType.isSecurity`, `scopeName`: what a word says.
-/
import DirectoryLens.Text.Blank
import DirectoryLens.Value.Basic

namespace DirectoryLens

/-- The type word of a group. -/
structure GroupType where
  bits : UInt32
  deriving DecidableEq

namespace GroupType

/-- The group grants access; without this it distributes messages. -/
def securityFlag : UInt32 := 0x80000000

/-- The group is of global scope. -/
def globalFlag : UInt32 := 0x2

/-- The group is of the scope of its domain. -/
def domainLocalFlag : UInt32 := 0x4

/-- The group is of universal scope. -/
def universalFlag : UInt32 := 0x8

/-- Some bit of a flag is set. -/
def hasAny (g : GroupType) (flag : UInt32) : Bool :=
  g.bits &&& flag != 0

/-- The group grants access. -/
def isSecurity (g : GroupType) : Bool :=
  g.hasAny securityFlag

/-- The group distributes messages. -/
def isDistribution (g : GroupType) : Bool :=
  !g.isSecurity

/-- The name of the first scope that the word has. -/
def scopeName (g : GroupType) : String :=
  if g.hasAny globalFlag then "global"
  else if g.hasAny domainLocalFlag then "domain_local"
  else if g.hasAny universalFlag then "universal"
  else "unknown"

/-- The word of an integer of 32 bits, signed or not. -/
def ofInt? (n : Int) : Option GroupType :=
  if -0x8000_0000 ≤ n ∧ n < 0x1_0000_0000 then some ⟨UInt32.ofNat (n % 0x1_0000_0000).toNat⟩
  else none

/-- The word that a value holds: an integer, or the digits of one. -/
def ofValue? : Value → Option GroupType
  | .integer n => ofInt? n.toInt
  | .string s => (Number.readInt? (Text.trim s.toList)).bind ofInt?
  | _ => none

/-- The word of a kind of group and a scope. -/
def compose (security : Bool) (scope : UInt32) : GroupType :=
  ⟨if security then scope ||| securityFlag else scope⟩

/-- The word as a signed integer. -/
def toInt (g : GroupType) : Int :=
  if g.bits.toNat < 0x8000_0000 then g.bits.toNat else (g.bits.toNat : Int) - 0x1_0000_0000

end GroupType

end DirectoryLens
