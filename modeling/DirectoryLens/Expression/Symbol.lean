/-
The words and marks that filter expressions are named by.

* `Comparator`: equality, approximate match and the two orders;
* `Placement`: where the wildcards of a pattern stand;
* `Connective`: what joins the children of a composite;
* `Symbol`: the mark that a composite is written with.

Each has its text, and a reading of it.
-/

namespace DirectoryLens

/-! ### Comparators -/

/-- How an attribute is compared with a value. -/
inductive Comparator
  | equal
  | approx
  | lessOrEqual
  | greaterOrEqual
  deriving DecidableEq

namespace Comparator

/-- The mark of a comparator. -/
def symbol : Comparator → String
  | .equal => "="
  | .approx => "~="
  | .lessOrEqual => "<="
  | .greaterOrEqual => ">="

/-- Every comparator. -/
def all : List Comparator :=
  [.equal, .approx, .lessOrEqual, .greaterOrEqual]

/-- The comparator of a mark. -/
def ofSymbol? (s : String) : Option Comparator :=
  all.find? (·.symbol == s)

end Comparator

/-! ### Placements -/

/-- Where the wildcards of a pattern stand: on both sides of a value, behind it, before it, where
the value has them, or alone. -/
inductive Placement
  | contains
  | startsWith
  | endsWith
  | like
  | present
  deriving DecidableEq

namespace Placement

/-- The name of a placement. -/
def name : Placement → String
  | .contains => "CONTAINS"
  | .startsWith => "STARTS_WITH"
  | .endsWith => "ENDS_WITH"
  | .like => "LIKE"
  | .present => "PRESENT"

/-- Every placement. -/
def all : List Placement :=
  [.contains, .startsWith, .endsWith, .like, .present]

/-- The placement of a name, in any case of its ASCII letters. -/
def ofName? (s : String) : Option Placement :=
  all.find? (·.name == String.ofList (s.toList.map Char.toUpper))

end Placement

/-! ### Composites -/

/-- The mark that a composite is written with. -/
inductive Symbol
  | all
  | any
  | no
  deriving DecidableEq

/-- The text of a mark. -/
def Symbol.text : Symbol → String
  | .all => "&"
  | .any => "|"
  | .no => "!"

/-- What joins the children of a composite. The last kind picks object classes: one child stands
for itself, and of several any may hold. -/
inductive Connective
  | and
  | or
  | not
  | classes
  deriving DecidableEq

namespace Connective

/-- The name of a connective. -/
def name : Connective → String
  | .and => "AND"
  | .or => "OR"
  | .not => "NOT"
  | .classes => "FROM"

/-- Every connective. -/
def all : List Connective :=
  [.and, .or, .not, .classes]

/-- The connective of a name. -/
def ofName? (s : String) : Option Connective :=
  all.find? (·.name == s)

/-- The marks that a connective may be written with. -/
def allowed : Connective → List Symbol
  | .and => [.all]
  | .or => [.any]
  | .not => [.no]
  | .classes => [.all, .any]

/-- The mark that a connective is written with unless another is chosen. -/
def defaultSymbol : Connective → Symbol
  | .and => .all
  | .or => .any
  | .not => .no
  | .classes => .any

/-- The default mark is allowed. -/
theorem defaultSymbol_mem_allowed (k : Connective) : k.defaultSymbol ∈ k.allowed := by
  cases k <;> decide

/-- The allowed mark of a text. -/
def allowedSymbol? (k : Connective) (s : String) : Option Symbol :=
  k.allowed.find? (·.text == s)

end Connective

end DirectoryLens
