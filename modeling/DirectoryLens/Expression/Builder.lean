/-
Expressions by what they ask.

* `Expression.eq`, `approx`, `atLeast`, `atMost`, `greater`, `less`: comparisons;
* `Expression.startsWith`, `endsWith`, `contains`, `like`, `present`, `absent`: patterns;
* `Expression.bitwiseAnd`, `bitwiseOr`, `inChain`, `matching`: extensible matches;
* `Expression.all`, `any`, `negation`, `ofClasses`, `classes`: composites.
-/
import DirectoryLens.Expression.Denotation

namespace DirectoryLens.Expression

/-! ### Comparisons -/

/-- A comparison with a value. -/
def compare (name : String) (comparator : Comparator) (v : Value) : Expression :=
  .leaf (.compare name comparator (.literal v))

/-- The attribute equals the value. -/
def eq (name : String) (v : Value) : Expression :=
  compare name .equal v

/-- The attribute equals a deferred value. -/
def eqDeferred (name : String) (d : Deferred) : Expression :=
  .leaf (.compare name .equal (.deferred d))

/-- The attribute is about the value. -/
def approx (name : String) (v : Value) : Expression :=
  compare name .approx v

/-- The attribute is the value or greater. -/
def atLeast (name : String) (v : Value) : Expression :=
  compare name .greaterOrEqual v

/-- The attribute is the value or less. -/
def atMost (name : String) (v : Value) : Expression :=
  compare name .lessOrEqual v

/-! ### Patterns -/

/-- A match with a pattern. -/
def wildcard (name : String) (placement : Placement) (v : Value) : Expression :=
  .leaf (.wildcard name placement (.literal v))

/-- The attribute starts with the value. -/
def startsWith (name : String) (v : Value) : Expression :=
  wildcard name .startsWith v

/-- The attribute ends with the value. -/
def endsWith (name : String) (v : Value) : Expression :=
  wildcard name .endsWith v

/-- The attribute holds the value somewhere. -/
def contains (name : String) (v : Value) : Expression :=
  wildcard name .contains v

/-- The attribute matches the value, whose asterisks are wildcards. -/
def like (name : String) (v : Value) : Expression :=
  wildcard name .like v

/-- The attribute has a value. -/
def present (name : String) : Expression :=
  wildcard name .present .null

/-! ### Extensible matches -/

/-- A match under a rule. -/
def rule (name : String) (id : RuleId) (v : Value) : Expression :=
  .leaf (.rule name id (.literal v))

/-- Every bit of the mask is set. -/
def bitwiseAnd (name : String) (mask : Value) : Expression :=
  rule name .bitwiseAnd mask

/-- Some bit of the mask is set. -/
def bitwiseOr (name : String) (mask : Value) : Expression :=
  rule name .bitwiseOr mask

/-- The object is reached by following links. -/
def inChain (name : String) (dn : Value) : Expression :=
  rule name .inChain dn

/-- A match under the rule of an identifier, if it is one. -/
def matching (name id : String) (source : Source) : Except QueryError Expression :=
  match RuleId.ofText? id with
  | some r => .ok (.leaf (.rule name r source))
  | none => .error (.invalidArgument (.matchingRule id))

/-! ### Composites -/

/-- Every child holds. -/
def all (es : List Expression) : Expression :=
  .composite .and .all es

/-- Some child holds. -/
def any (es : List Expression) : Expression :=
  .composite .or .any es

/-- One of the object classes that the children name. -/
def ofClasses (es : List Expression) : Expression :=
  .composite .classes (Composite.settledSymbol .classes .any es.length) es

/-- A leaf does not hold. -/
def notLeaf (l : Leaf) : Expression :=
  .composite .not .no [.leaf l]

/-- The child does not hold; a composite is refused. -/
def negation (e : Expression) : Writing Expression :=
  Composite.toExpression <$> (Composite.ofKind .not).add e

/-- The object is of one of the classes. -/
def classes (names : List String) : Expression :=
  ofClasses (names.map fun name => eq "objectClass" (.string name))

/-- The attribute has values, and all are greater than the value. -/
def greater (name : String) (v : Value) : Expression :=
  all [notLeaf (.compare name .lessOrEqual (.literal v)), present name]

/-- The attribute has values, and all are less than the value. -/
def less (name : String) (v : Value) : Expression :=
  all [notLeaf (.compare name .greaterOrEqual (.literal v)), present name]

/-- The attribute has no value. -/
def absent (name : String) : Expression :=
  notLeaf (.wildcard name .present (.literal .null))

/-- Some bit of the mask is clear. -/
def notBitwiseAnd (name : String) (mask : Value) : Expression :=
  notLeaf (.rule name .bitwiseAnd (.literal mask))

end DirectoryLens.Expression
