import CanonStore.Yaml.Token

/-!
# Scalars

The four ways to write a scalar: plain, between single or double quotes, and as a block that is
literal or folded. Every function returns the text of the scalar and the cursor after it. The number
of rounds is bounded by the text that is left, because every round uses up at least one code point.
-/

namespace CanonStore.Yaml

/-- A token cannot be read. -/
abbrev badToken : YamlFault := .malformed .token

/-! ## Between quotes -/

/-- The line ends from here to the next code point that is no blank. A document separator may not
stand at the start of a line. -/
def quotedBreaks : Nat → Cursor → Except YamlFault (Text × Cursor)
  | 0, c => .ok ([], c)
  | rounds + 1, c =>
    if c.seesSeparator then .error badToken
    else
      let c := c.dropWhile isBlank
      match c.peek with
      | some ch =>
        if isBreak ch then
          (quotedBreaks rounds c.next).map fun r => (Cursor.breakText ch :: r.1, r.2)
        else .ok ([], c)
      | none => .ok ([], c)

/-- Blanks inside quotes: kept within a line, folded around line ends. -/
def quotedBlanks (c : Cursor) : Except YamlFault (Text × Cursor) :=
  let (blanks, c) := c.takeWhile isBlank
  match c.peek with
  | none => .error badToken
  | some ch =>
    if isBreak ch then
      (quotedBreaks (c.rest.length + 1) c.next).map fun r => (Cursor.fold ch r.1, r.2)
    else .ok (blanks, c)

/-- What a single code point after a backslash stands for. -/
def escaped? (ch : CodePoint) : Option CodePoint :=
  let table : List (CodePoint × CodePoint) :=
    [('0', 0x00), ('a', 0x07), ('b', 0x08), ('t', 0x09), (0x09, 0x09), ('n', 0x0A), ('v', 0x0B),
     ('f', 0x0C), ('r', 0x0D), ('e', 0x1B), (' ', 0x20), ('"', '"'), ('\\', '\\'), ('/', '/'),
     ('N', 0x85), ('_', 0xA0), ('L', 0x2028), ('P', 0x2029)]
  (table.find? fun e => e.1 = ch).map (·.2)

/-- How many hexadecimal digits follow a letter after a backslash. -/
def escapeLength? (ch : CodePoint) : Option Nat :=
  if ch = 'x' then some 2 else if ch = 'u' then some 4 else if ch = 'U' then some 8 else none

def hexNumber (t : Text) : Nat := t.foldl (fun n c => 16 * n + c.hexValue?.getD 0) 0

/-- The code point with a number that an escape gives. -/
def escapedNumber (n : Nat) : Except YamlFault CodePoint :=
  if n < 0x110000 then .ok (CodePoint.ofNat n)
  else if n < 0x80000000 then .error (.scalar .value "chr() arg not in range(0x110000)")
  else .error (.scalar .overflow "Python int too large to convert to C int")

/-- What follows a backslash. A line end is dropped together with the blanks after it. -/
def escape (c : Cursor) : Except YamlFault (Text × Cursor) :=
  match c.peek with
  | none => .error badToken
  | some ch =>
    match escaped? ch, escapeLength? ch with
    | some e, _ => .ok ([e], c.next)
    | none, some n =>
      let digits := c.next.rest.take n
      if digits.length = n && digits.all CodePoint.isHexDigit then
        (escapedNumber (hexNumber digits)).map fun e => ([e], c.next.skip n)
      else .error badToken
    | none, none =>
      -- An escaped line end, with the blanks that the next line starts with.
      if isBreak ch then quotedBreaks (c.rest.length + 1) c.next else .error badToken

/-- The text up to the closing quote; `done` is what has been read, last first. -/
def quotedBody (isDouble : Bool) : Nat → Cursor → Text → Except YamlFault (Text × Cursor)
  | 0, _, _ => .error badToken
  | rounds + 1, c, done =>
    match c.peek with
    | none => .error badToken
    | some ch =>
      if ch = (if isDouble then 0x22 else 0x27) then
        -- Between single quotes a quote is written twice, and nothing else is escaped.
        if !isDouble && c.peekAt 1 = some 0x27 then quotedBody isDouble rounds (c.skip 2) (0x27 :: done)
        else .ok (done.reverse, c.next)
      else if isDouble && ch = '\\' then do
        let (t, c) ← escape c.next
        quotedBody isDouble rounds c (t.reverse ++ done)
      else if isBlank ch || isBreak ch then do
        let (t, c) ← quotedBlanks c
        quotedBody isDouble rounds c (t.reverse ++ done)
      else quotedBody isDouble rounds c.next (ch :: done)

def quoted (isDouble : Bool) (c : Cursor) : Except YamlFault (Text × Cursor) :=
  quotedBody isDouble (c.rest.length + 1) c.next []

/-! ## Plain -/

/-- A plain scalar does not go on with a code point that is followed by another. -/
def stopsPlain (inFlow : Bool) (ch : CodePoint) (following : Option CodePoint) : Bool :=
  endsWord (some ch) ||
    (ch = ':' && (endsWord following || (inFlow && following.any (isOneOf ",[]\x7b\x7d")))) ||
    (inFlow && isOneOf ",?[]\x7b\x7d" ch)

/-- The leading run of a plain scalar without blanks. -/
def plainRun (inFlow : Bool) : Text → Text
  | [] => []
  | ch :: rest => if stopsPlain inFlow ch rest.head? then [] else ch :: plainRun inFlow rest

/-- Blanks and line ends from the start of a line. There is no text if a document separator comes. -/
def plainBreaks : Nat → Cursor → Option Text × Cursor
  | 0, c => (some [], c)
  | rounds + 1, c =>
    if c.seesSeparator then (none, c)
    else
      let c := c.skipBlanks
      match c.peek with
      | some ch =>
        if isBreak ch then
          let (more, c) := plainBreaks rounds c.next
          (more.map (Cursor.breakText ch :: ·), c)
        else (some [], c)
      | none => (some [], c)

/-- What lies between two runs of a plain scalar, empty if the scalar ends here; the cursor after it;
and whether it holds a line end. -/
def plainGap (c : Cursor) : Text × Cursor × Bool :=
  let (blanks, c) := c.takeWhile (· = 0x20)
  match c.peek with
  | some ch =>
    if isBreak ch then
      match plainBreaks (c.rest.length + 1) c.next with
      | (some more, c) => (Cursor.fold ch more, c, true)
      | (none, c) => ([], c, true)
    else (blanks, c, false)
  | none => (blanks, c, false)

/-- A plain scalar from one of its runs on; in block style its lines are indented to a column. The
truth value says whether the scalar ends after a line end. -/
def plainFrom (inFlow : Bool) (indent : Nat) : Nat → Cursor → Text × Cursor × Bool
  | 0, c => ([], c, false)
  | rounds + 1, c =>
    let run := plainRun inFlow c.rest
    let (gap, after, broken) := plainGap (c.skip run.length)
    -- After a gap the scalar goes on unless a comment starts, the line is not indented far enough, or the
    -- next code point cannot stand in a plain scalar.
    let goesOn :=
      !gap.isEmpty && !after.sees '#' && (inFlow || indent ≤ after.column) &&
        !(plainRun inFlow after.rest).isEmpty
    if goesOn then
      let (more, c, broken) := plainFrom inFlow indent rounds after
      (run ++ gap ++ more, c, broken)
    else (run, after, broken)

def plain (inFlow : Bool) (indent : Nat) (c : Cursor) : Text × Cursor × Bool :=
  plainFrom inFlow indent (c.rest.length + 1) c

/-! ## Blocks -/

/-- What becomes of the line ends at the end of a block. -/
inductive Chomping where
  | clip
  | strip
  | keep
deriving DecidableEq

def chomping? (ch : Option CodePoint) : Option Chomping :=
  if ch = some 0x2B then some .keep else if ch = some 0x2D then some .strip else none

def indentation? (ch : Option CodePoint) : Option Nat :=
  match ch with
  | some d => if d.isDigit then some (d.val - 0x30) else none
  | none => none

/-- The header of a block: chomping and indentation in either order, then nothing but a comment. -/
def blockHeader (c : Cursor) : Except YamlFault (Chomping × Option Nat × Cursor) :=
  let (chomping, indentation, c) :=
    match chomping? c.peek with
    | some chomping =>
      match indentation? c.next.peek with
      | some n => (some chomping, some n, c.skip 2)
      | none => (some chomping, none, c.next)
    | none =>
      match indentation? c.peek with
      | some n =>
        match chomping? c.next.peek with
        | some chomping => (some chomping, some n, c.skip 2)
        | none => (none, some n, c.next)
      | none => (none, none, c)
  -- An indentation of zero would not tell the block from what is around it.
  if indentation = some 0 || !endsItem c.peek then .error badToken
  else
    let c := c.skipBlanks.skipComment
    if endsLine c.peek then .ok (chomping.getD .clip, indentation, c.skipBreak) else .error badToken

/-- Empty lines in front of a block whose indentation is not given: their line ends, and the greatest
column that blanks reach. -/
def leadingBreaks : Nat → Cursor → Text × Nat × Cursor
  | 0, c => ([], 0, c)
  | rounds + 1, c =>
    let c := c.skipBlanks
    match c.peek with
    | some ch =>
      if isBreak ch then
        let (more, widest, d) := leadingBreaks rounds c.next
        (Cursor.breakText ch :: more, max c.column widest, d)
      else ([], c.column, c)
    | none => ([], c.column, c)

def skipIndentation (indent : Nat) (c : Cursor) : Cursor :=
  c.skip (min (indent - c.column) (c.rest.takeWhile (· = 0x20)).length)

/-- The line ends of empty lines inside a block. -/
def blockBreaks (indent : Nat) : Nat → Cursor → Text × Cursor
  | 0, c => ([], c)
  | rounds + 1, c =>
    let c := skipIndentation indent c
    match c.peek with
    | some ch =>
      if isBreak ch then
        let (more, c) := blockBreaks indent rounds c.next
        (Cursor.breakText ch :: more, c)
      else ([], c)
    | none => ([], c)

/-- The lines of a block from one that is not empty on; `breaks` are the line ends of empty lines in
front of it. A line end between two lines is folded if neither starts with a blank. -/
def blockLines (folded : Bool) (chomping : Chomping) (indent : Nat) :
    Nat → Text → Cursor → Text × Cursor
  | 0, breaks, c => (breaks, c)
  | rounds + 1, breaks, c =>
    let startsBlank := c.peek.any isBlank
    let (line, c) := c.takeWhile fun ch => !isBreak ch
    let lineEnd : Text :=
      match c.peek with
      | some ch => [Cursor.breakText ch]
      | none => []
    let (more, c) := blockBreaks indent (c.rest.length + 1) c.skipBreak
    -- Another line that is indented as far belongs to the block. Otherwise the chomping decides on the line
    -- ends.
    if c.column = indent && c.peek.isSome then
      -- A line that starts with a blank keeps the line ends around it.
      let isFolded := folded && lineEnd = [0x0A] && !startsBlank && !c.peek.any isBlank
      let joint : Text := if isFolded then (if more.isEmpty then [0x20] else []) else lineEnd
      let (rest, c) := blockLines folded chomping indent rounds more c
      (breaks ++ line ++ joint ++ rest, c)
    else
      let tail : Text :=
        match chomping with
        | .strip => []
        | .clip => lineEnd
        | .keep => lineEnd ++ more
      (breaks ++ line ++ tail, c)

/-- A block scalar inside a collection whose entries are indented to `outer`, which is negative
outside of all collections. -/
def blockScalar (folded : Bool) (outer : Int) (c : Cursor) : Except YamlFault (Text × Cursor) := do
  let (chomping, indentation, c) ← blockHeader c.next
  -- Content is indented further than what is around it, and by at least one blank.
  let least := max 1 (outer + 1).toNat
  let rounds := c.rest.length + 1
  let (breaks, indent, c) :=
    match indentation with
    | none =>
      let (breaks, widest, c) := leadingBreaks rounds c
      (breaks, max least widest, c)
    | some n =>
      let indent := least + n - 1
      let (breaks, c) := blockBreaks indent rounds c
      (breaks, indent, c)
  if c.column = indent && c.peek.isSome then pure (blockLines folded chomping indent rounds breaks c)
  else pure (if chomping = .keep then breaks else [], c)

end CanonStore.Yaml
