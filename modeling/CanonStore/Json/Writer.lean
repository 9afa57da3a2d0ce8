import CanonStore.Json

/-!
# Writing JSON documents

`Json.write` is the canonical text: no blanks, members in strictly ascending order of their keys,
strings with the fewest escapes. `Json.writeIndented` is the text for people: two blanks a level, in
the members' own order, and nothing beyond ASCII.
-/

namespace CanonStore.Json

/-- Which code points of a string are escaped besides the quote, the backslash and controls. -/
inductive Escaping where
  /-- No others. -/
  | fewest
  /-- All that are not printable ASCII. -/
  | ascii
deriving DecidableEq

def unitEscape (n : Nat) : Text := "\\u" ++ Numeral.hexPadded 4 n

def escapeOne (mode : Escaping) (c : CodePoint) : Text :=
  if c = '"' then "\\\""
  else if c = '\\' then "\\\\"
  else if c = '\n' then "\\n"
  else if c = '\r' then "\\r"
  else if c = '\t' then "\\t"
  else if c = 0x08 then "\\b"
  else if c = 0x0C then "\\f"
  -- Controls without a letter of their own are escaped in both ways of writing.
  else if c.val < 0x20 then unitEscape c.val
  else match mode with
    | .fewest => [c]
    | .ascii =>
      if c.val < 0x7F then [c]
      else if c.val < 0x10000 then unitEscape c.val
      -- A pair of surrogates: `0x10000` is a multiple of `0x400`, so the low half needs no subtraction.
      else unitEscape (0xD800 + (c.val - 0x10000) / 0x400) ++ unitEscape (0xDC00 + c.val % 0x400)

def quote (mode : Escaping) (t : Text) : Text :=
  (0x22 : CodePoint) :: t.flatMap (escapeOne mode) ++ [0x22]

def boolText (b : Bool) : Text := if b then "true" else "false"

def leafText (mode : Escaping) : Json → Text
  | .null => "null"
  | .bool b => boolText b
  | .int n => Numeral.ofInt n
  | .float x => x.jsonText
  | .text t => quote mode t
  | .list _ => "[]"
  | .object _ => "\x7b\x7d"

/-! ## Canonical text -/

/-- Puts a member into a list that ascends by key. -/
def insertSorted (m : Text × Json) : List (Text × Json) → List (Text × Json)
  | [] => [m]
  | n :: rest => if m.1 ≤ n.1 then m :: n :: rest else n :: insertSorted m rest

def sortMembers (members : List (Text × Json)) : List (Text × Json) := members.foldr insertSorted []

mutual

/-- Sorts the members of every object by key, at every depth. -/
def sorted : Json → Json
  | .list items => .list (sortedItems items)
  | .object members => .object (sortMembers (sortedMembers members))
  | leaf => leaf

def sortedItems : List Json → List Json
  | [] => []
  | j :: rest => sorted j :: sortedItems rest

def sortedMembers : List (Text × Json) → List (Text × Json)
  | [] => []
  | (k, j) :: rest => (k, sorted j) :: sortedMembers rest

end

mutual

/-- The text of a document without blanks, members in their own order. -/
def compact : Json → Text
  | .list items => "[" ++ compactItems items ++ "]"
  | .object members => "\x7b" ++ compactMembers members ++ "\x7d"
  | leaf => leafText .fewest leaf

/-- The texts of items with commas between them. -/
def compactItems : List Json → Text
  | [] => []
  | [j] => compact j
  | j :: rest => compact j ++ "," ++ compactItems rest

/-- The texts of members with commas between them. -/
def compactMembers : List (Text × Json) → Text
  | [] => []
  | [(k, j)] => quote .fewest k ++ ":" ++ compact j
  | (k, j) :: rest => quote .fewest k ++ ":" ++ compact j ++ "," ++ compactMembers rest

end

def write (j : Json) : Text := compact (sorted j)

/-! ## Indented text -/

def newline (level : Nat) : Text := "\n" ++ List.replicate (2 * level) (0x20 : CodePoint)

mutual

/-- The text of a document on several lines, its first line at the given level. -/
def indented (level : Nat) : Json → Text
  | .list [] => "[]"
  | .object [] => "\x7b\x7d"
  | .list (j :: rest) =>
    "[" ++ newline (level + 1) ++ indented (level + 1) j ++ indentedItems (level + 1) rest ++
      newline level ++ "]"
  | .object ((k, j) :: rest) =>
    "\x7b" ++ newline (level + 1) ++ quote .ascii k ++ ": " ++ indented (level + 1) j ++
      indentedMembers (level + 1) rest ++ newline level ++ "\x7d"
  | leaf => leafText .ascii leaf

/-- Further items, each after a comma on a line of its own. -/
def indentedItems (level : Nat) : List Json → Text
  | [] => []
  | j :: rest => "," ++ newline level ++ indented level j ++ indentedItems level rest

/-- Further members, each after a comma on a line of its own. -/
def indentedMembers (level : Nat) : List (Text × Json) → Text
  | [] => []
  | (k, j) :: rest =>
    "," ++ newline level ++ quote .ascii k ++ ": " ++ indented level j ++ indentedMembers level rest

end

def writeIndented (j : Json) : Text := indented 0 j

/-! ## Integers too long to write -/

/-- The most decimal digits of an integer that is read or written. -/
def maxDigits : Nat := 4300

/-- The integer has too many digits to be written. -/
def isOversized (n : Int) : Bool := Nat.pow 10 maxDigits ≤ n.natAbs

mutual

/-- Some integer in the document has too many digits to be written. -/
def hasOversized : Json → Bool
  | .int n => isOversized n
  | .list items => itemsOversized items
  | .object members => membersOversized members
  | _ => false

/-- Some integer in the items has too many digits. -/
def itemsOversized : List Json → Bool
  | [] => false
  | j :: rest => hasOversized j || itemsOversized rest

/-- Some integer in the members has too many digits. -/
def membersOversized : List (Text × Json) → Bool
  | [] => false
  | (_, j) :: rest => hasOversized j || membersOversized rest

end

end CanonStore.Json
