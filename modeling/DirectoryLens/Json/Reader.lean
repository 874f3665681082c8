/-
The reading of JSON text.

* `Json.ofText?`: the value that a whole text is, blanks around it allowed.

The reader takes every text of the grammar, whatever the size of its numbers, the depth of its
nesting or the pairing of the surrogates its escapes name. What a value may be is judged where it
is taken for something.
-/
import DirectoryLens.Json.Basic

namespace DirectoryLens.Json

/-! ### Tokens -/

/-- A blank between tokens. -/
def isGap (c : Char) : Bool :=
  c = ' ' || c = '\n' || c = '\t' || c = '\r'

/-- Text without its leading blanks. -/
def skipGap (s : List Char) : List Char :=
  s.dropWhile isGap

/-- The digits of a whole number: zero alone, or digits that do not start with it. -/
def readWhole : List Char → Option (List Char × List Char)
  | '0' :: s => match s with
    | c :: _ => if c.isDigit then none else some (['0'], s)
    | [] => some (['0'], [])
  | s => match s.takeWhile Char.isDigit with
    | [] => none
    | ds => some (ds, s.dropWhile Char.isDigit)

/-- A point and the digits behind it, or nothing. -/
def readFraction : List Char → Option (List Char × List Char)
  | '.' :: s => match s.takeWhile Char.isDigit with
    | [] => none
    | ds => some ('.' :: ds, s.dropWhile Char.isDigit)
  | s => some ([], s)

/-- The sign of a power of ten. -/
def readPowerSign : List Char → List Char × List Char
  | '+' :: s => (['+'], s)
  | '-' :: s => (['-'], s)
  | s => ([], s)

/-- A power of ten, or nothing. -/
def readPower : List Char → Option (List Char × List Char)
  | [] => some ([], [])
  | c :: s =>
    if c = 'e' || c = 'E' then
      let (sign, s) := readPowerSign s
      match s.takeWhile Char.isDigit with
      | [] => none
      | ds => some ('e' :: sign ++ ds, s.dropWhile Char.isDigit)
    else some ([], c :: s)

/-- The text of a number. -/
def readLexeme (s : List Char) : Option (String × List Char) := do
  let (sign, s) := match s with
    | '-' :: s => (['-'], s)
    | s => ([], s)
  let (whole, s) ← readWhole s
  let (fraction, s) ← readFraction s
  let (power, s) ← readPower s
  return (String.ofList (sign ++ whole ++ fraction ++ power), s)

/-! ### Strings -/

/-- What a string is made of: characters, and halves of surrogate pairs. -/
inductive Piece
  | char (c : Char)
  | high (half : Nat)
  | low (half : Nat)

/-- The text of pieces, a high half followed by a low one being one character; none when a half
is left alone. -/
def textOfPieces : List Piece → Option (List Char)
  | [] => some []
  | .char c :: rest => (textOfPieces rest).map (c :: ·)
  | .high h :: .low l :: rest =>
    (textOfPieces rest).map (Char.ofNat (0x10000 + (h - 0xD800) * 1024 + (l - 0xDC00)) :: ·)
  | _ => none

/-- The piece that a code unit of sixteen bits stands for. -/
def pieceOfUnit (n : Nat) : Piece :=
  if 0xD800 ≤ n && n < 0xDC00 then .high n
  else if 0xDC00 ≤ n && n < 0xE000 then .low n
  else .char (Char.ofNat n)

/-- The character that a short escape stands for. -/
def shortEscape? : Char → Option Char
  | '"' => some '"'
  | '\\' => some '\\'
  | '/' => some '/'
  | 'b' => some '\x08'
  | 'f' => some '\x0c'
  | 'n' => some '\n'
  | 'r' => some '\r'
  | 't' => some '\t'
  | _ => none

/-- The code unit of four hexadecimal digits. -/
def readUnit (a b c d : Char) : Option Nat := do
  let high ← Octets.ofHexPair? a b
  let low ← Octets.ofHexPair? c d
  return 256 * high.toNat + low.toNat

/-- The pieces of a string up to its closing quote, the latest first, and what follows. -/
def readPieces (done : List Piece) : List Char → Option (List Piece × List Char)
  | [] => none
  | '"' :: s => some (done, s)
  | '\\' :: 'u' :: a :: b :: c :: d :: s => do
    let unit ← readUnit a b c d
    readPieces (pieceOfUnit unit :: done) s
  | '\\' :: e :: s => do
    let c ← shortEscape? e
    readPieces (.char c :: done) s
  | c :: s => if c.toNat < 0x20 || c = '\\' then none else readPieces (.char c :: done) s

/-- A string behind its opening quote. -/
def readString (s : List Char) : Option (Option String × List Char) := do
  let (pieces, s) ← readPieces [] s
  return ((textOfPieces pieces.reverse).map String.ofList, s)

/-! ### Values -/

mutual

/-- A value at the head of a text, and what follows it. The first argument bounds the number of
steps. -/
def readValue : Nat → List Char → Option (Json × List Char)
  | 0, _ => none
  | n + 1, s => match s with
    | 'n' :: 'u' :: 'l' :: 'l' :: s => some (.null, s)
    | 't' :: 'r' :: 'u' :: 'e' :: s => some (.bool true, s)
    | 'f' :: 'a' :: 'l' :: 's' :: 'e' :: s => some (.bool false, s)
    | '"' :: s => (readString s).map fun r => (.string r.1, r.2)
    | '[' :: s => match skipGap s with
      | ']' :: s => some (.array [], s)
      | s => (readItems n s).map fun r => (.array r.1, r.2)
    | '\x7b' :: s => match skipGap s with
      | '\x7d' :: s => some (.object [], s)
      | s => (readMembers n s).map fun r => (.object r.1, r.2)
    | s => (readLexeme s).map fun r => (.number r.1, r.2)

/-- One or more items and the bracket that closes them. -/
def readItems : Nat → List Char → Option (List Json × List Char)
  | 0, _ => none
  | n + 1, s => do
    let (j, s) ← readValue n s
    match skipGap s with
    | ',' :: s => do
      let (js, s) ← readItems n (skipGap s)
      return (j :: js, s)
    | ']' :: s => return ([j], s)
    | _ => none

/-- One or more members and the brace that closes them. -/
def readMembers : Nat → List Char → Option (List (Option String × Json) × List Char)
  | 0, _ => none
  | n + 1, s => do
    let '"' :: s := s | none
    let (name, s) ← readString s
    let ':' :: s := skipGap s | none
    let (j, s) ← readValue n (skipGap s)
    match skipGap s with
    | ',' :: s => do
      let (ms, s) ← readMembers n (skipGap s)
      return ((name, j) :: ms, s)
    | '\x7d' :: s => return ([(name, j)], s)
    | _ => none

end

/-- The value that a whole text is, blanks around it allowed. -/
def ofText? (text : String) : Option Json := do
  let s := text.toList
  let (j, s) ← readValue (2 * s.length + 2) (skipGap s)
  if (skipGap s).isEmpty then some j else none

end DirectoryLens.Json
