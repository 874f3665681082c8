/-
Search filters and their text.

* `Filter`: an assertion on an attribute, an extensible match, or a composite of filters;
* `Filter.escape`, `Filter.escapePattern`: octets as filter text, the latter keeping asterisks;
* `Filter.isAttributeName`, `RuleId`: the names that a filter may hold;
* `Filter.render`: the text of a filter.
-/
import DirectoryLens.Expression.Symbol
import DirectoryLens.Octets

namespace DirectoryLens

/-! ### Names -/

/-- A name that an attribute may have: a letter or digit, then letters, digits, hyphens, points,
semicolons and underscores. -/
def Filter.isAttributeName (s : List Char) : Bool :=
  match s with
  | c :: rest => c.isAlphanum
      && rest.all fun d => d.isAlphanum || d = '-' || d = '.' || d = ';' || d = '_'
  | [] => false

/-- A number without leading zeros. -/
def isArc (s : List Char) : Bool :=
  s = ['0'] || (!s.isEmpty && s.all Char.isDigit && s.head? ≠ some '0')

/-- Numbers with points between them, two at least and the first of them below three. -/
def isObjectId (s : List Char) : Bool :=
  match s.splitOn '.' with
  | [c] :: arc :: arcs => '0' ≤ c && c ≤ '2' && (arc :: arcs).all isArc
  | _ => false

/-- A letter, then letters, digits and hyphens. -/
def isDescriptor (s : List Char) : Bool :=
  match s with
  | c :: rest => c.isAlpha && rest.all fun d => d.isAlphanum || d = '-'
  | [] => false

/-- The identifier of a matching rule: an object identifier or a descriptor. -/
structure RuleId where
  text : String
  valid : isObjectId text.toList || isDescriptor text.toList
  deriving DecidableEq

namespace RuleId

/-- The identifier that a text is. -/
def ofText? (s : String) : Option RuleId :=
  if h : isObjectId s.toList || isDescriptor s.toList then some ⟨s, h⟩ else none

/-- The rule under which every bit of a mask is set. -/
def bitwiseAnd : RuleId :=
  ⟨"1.2.840.113556.1.4.803", by decide +kernel⟩

/-- The rule under which some bit of a mask is set. -/
def bitwiseOr : RuleId :=
  ⟨"1.2.840.113556.1.4.804", by decide +kernel⟩

/-- The rule that follows links from object to object. -/
def inChain : RuleId :=
  ⟨"1.2.840.113556.1.4.1941", by decide +kernel⟩

end RuleId

/-! ### Filters -/

/-- A search filter. An assertion holds the octets between the wildcards of its value. -/
inductive Filter
  | item (name : String) (comparator : Comparator) (pieces : List Octets)
  | extensible (name : String) (rule : RuleId) (value : Octets)
  | composite (symbol : Symbol) (children : List Filter)

namespace Filter

/-- An octet that stands for itself in a value: printable ASCII, the wildcard, the parentheses and
the backslash apart. -/
def isPlain (b : UInt8) : Bool :=
  0x20 ≤ b && b ≤ 0x7E && b ≠ 0x2A && b ≠ 0x28 && b ≠ 0x29 && b ≠ 0x5C

/-- An octet of a value: itself, or its two hexadecimal digits behind a backslash. -/
def escapeOctet (b : UInt8) : List Char :=
  if isPlain b then [Char.ofNat b.toNat] else '\\' :: Octets.hexPair b

/-- A value as filter text. -/
def escape (bs : Octets) : List Char :=
  bs.flatMap escapeOctet

/-- A pattern as filter text, its asterisks being wildcards. -/
def escapePattern (bs : Octets) : List Char :=
  bs.flatMap fun b => if b = 0x2A then ['*'] else escapeOctet b

/-- Texts with wildcards between them. -/
def joinPieces (pieces : List (List Char)) : List Char :=
  ['*'].intercalate pieces

/-- The octets between the asterisks of a pattern. -/
def piecesOfPattern (bs : Octets) : List Octets :=
  bs.splitOn 0x2A

mutual

/-- The text of a filter. -/
def chars : Filter → List Char
  | .item name comparator pieces =>
    '(' :: name.toList ++ comparator.symbol.toList ++ joinPieces (pieces.map escape) ++ [')']
  | .extensible name rule value =>
    '(' :: name.toList ++ ':' :: rule.text.toList ++ [':', '='] ++ escape value ++ [')']
  | .composite symbol children => '(' :: symbol.text.toList ++ charsAll children ++ [')']

/-- The texts of filters, one behind the other. -/
def charsAll : List Filter → List Char
  | [] => []
  | f :: fs => chars f ++ charsAll fs

end

/-- The text of a filter. -/
def render (f : Filter) : String :=
  String.ofList f.chars

end Filter

end DirectoryLens
