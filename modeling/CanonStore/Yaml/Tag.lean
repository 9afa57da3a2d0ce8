import CanonStore.Yaml.Cursor

/-!
# Tags

A tag says what a node denotes. A plain scalar without a tag gets one from its text: `Tag.ofPlain`
knows the spellings of null, truth values, numbers and moments; everything else is a text.
-/

namespace CanonStore.Yaml

/-- What a node denotes. -/
inductive Tag where
  | null
  | bool
  | int
  | float
  | binary
  | moment
  | orderedPairs
  | pairs
  | set
  | text
  | sequence
  | mapping
  /-- A key whose value is a mapping to be merged. -/
  | merge
  /-- A key whose value is the main one. -/
  | main
  | other (name : Text)
deriving DecidableEq

namespace Tag

/-- What the names of the known tags start with. -/
def base : Text := "tag:yaml.org,2002:"

def known : List (Text × Tag) :=
  [("null", .null), ("bool", .bool), ("int", .int), ("float", .float), ("binary", .binary),
   ("timestamp", .moment), ("omap", .orderedPairs), ("pairs", .pairs), ("set", .set), ("str", .text),
   ("seq", .sequence), ("map", .mapping), ("merge", .merge), ("value", .main)]

def ofText (t : Text) : Tag :=
  match Text.dropPrefix? base t with
  | none => .other t
  | some short => ((known.find? fun e => e.1 = short).map (·.2)).getD (.other t)

end Tag

/-! ## Numbers -/

def dropSign : Text → Text
  | [] => []
  | c :: rest => if c = '+' || c = '-' then rest else c :: rest

def isDigitOrFill (c : CodePoint) : Bool := c.isDigit || c = '_'

def isFilledNumber : Text → Bool
  | [] => false
  | c :: rest => c.isDigit && rest.all isDigitOrFill

/-- One digit, or two that denote less than sixty. -/
def isSexagesimal : Text → Bool
  | [c] => c.isDigit
  | [c, d] => c.isDigit && c.val < 0x36 && d.isDigit
  | _ => false

/-- The text is an integer: binary, octal, decimal, hexadecimal or in base sixty. -/
def isInt (t : Text) : Bool :=
  match dropSign t with
  | [] => false
  | 0x30 :: 0x62 :: ds => !ds.isEmpty && ds.all (isOneOf "01_")
  | 0x30 :: 0x78 :: ds => !ds.isEmpty && ds.all fun c => c.isHexDigit || c = '_'
  -- This takes the single zero too.
  | 0x30 :: ds => ds.all (isOneOf "01234567_")
  | digits =>
    match Text.splitOn 0x3A digits with
    | first :: rest => isFilledNumber first && rest.all isSexagesimal
    | [] => false

/-- The end of the text is empty or an exponent with a sign. -/
def isExponent : Text → Bool
  | [] => true
  | e :: sign :: digits => isOneOf "eE" e && isOneOf "+-" sign && !digits.isEmpty && digits.all CodePoint.isDigit
  | _ => false

/-- Digits and underscores, then perhaps an exponent. -/
def isFraction (t : Text) : Bool := isExponent (t.dropWhile isDigitOrFill)

/-- A number with a point, or one in base sixty whose last place has a point. -/
def isPointed (t : Text) : Bool :=
  match (Text.splitOn 0x3A t).reverse with
  | [] => false
  | last :: earlier =>
    let whole := last.takeWhile fun c => c ≠ 0x2E
    match last.dropWhile fun c => c ≠ 0x2E with
    | [] => false
    | _ :: fraction =>
      match earlier.reverse with
      | [] => isFilledNumber whole && isFraction fraction
      | first :: middle =>
        isFilledNumber first && (middle ++ [whole]).all isSexagesimal && fraction.all isDigitOrFill

def isWord (words : List Text) (t : Text) : Bool := words.contains t

/-- The text is a number with a point, an infinity or no number. -/
def isFloat (t : Text) : Bool :=
  isPointed (dropSign t) || isWord [".inf", ".Inf", ".INF"] (dropSign t) ||
    isWord [".nan", ".NaN", ".NAN"] t ||
    (match t with
     | 0x2E :: d :: rest => d.isDigit && isFraction rest
     | _ => false)

/-! ## Moments -/

/-- A time of day as it is written, with the offset from UTC in seconds. -/
structure WrittenTime where
  hour : Nat
  minute : Nat
  second : Nat
  /-- The digits after the point. -/
  fraction : Text
  offset : Option Int

/-- A date as it is written, perhaps with a time of day. -/
structure WrittenMoment where
  year : Nat
  month : Nat
  day : Nat
  /-- Month and day have two digits each. -/
  isPadded : Bool
  time : Option WrittenTime

/-- A run of at least `least` and at most `most` digits, and what follows. -/
def takeDigits? (least most : Nat) (t : Text) : Option (Text × Text) :=
  let run := (t.takeWhile CodePoint.isDigit).take most
  if run.length < least then none else some (run, t.drop run.length)

def after? (c : CodePoint) : Text → Option Text
  | [] => none
  | d :: rest => if c = d then some rest else none

/-- An offset: blanks, then `Z` or a sign, hours and perhaps minutes. -/
def offset? (t : Text) : Option (Option Int) :=
  if t.isEmpty then some none
  else match t.dropWhile isBlank with
    | [] => none
    | c :: rest =>
      if c = 'Z' then if rest.isEmpty then some (some 0) else none
      else if c = '+' || c = '-' then do
        let (hours, rest) ← takeDigits? 1 2 rest
        let (minutes, rest) ←
          match rest with
          | [] => some ([], [])
          | _ => do takeDigits? 2 2 (← after? 0x3A rest)
        if rest.isEmpty then
          let seconds : Int := 3600 * Numeral.toNat hours + 60 * Numeral.toNat minutes
          some (some (if c = '-' then -seconds else seconds))
        else none
      else none

/-- What separates date and time: a letter or blanks. -/
def dropJoint? : Text → Option Text
  | [] => none
  | c :: rest =>
    if c = 'T' || c = 't' then some rest
    else if isBlank c then some (rest.dropWhile isBlank) else none

def WrittenTime.ofText? (t : Text) : Option WrittenTime := do
  let (hour, t) ← takeDigits? 1 2 t
  let (minute, t) ← takeDigits? 2 2 (← after? 0x3A t)
  let (second, t) ← takeDigits? 2 2 (← after? 0x3A t)
  let (fraction, t) :=
    match after? 0x2E t with
    | some r => (r.takeWhile CodePoint.isDigit, r.dropWhile CodePoint.isDigit)
    | none => ([], t)
  let offset ← offset? t
  pure ⟨Numeral.toNat hour, Numeral.toNat minute, Numeral.toNat second, fraction, offset⟩

def WrittenMoment.ofText? (t : Text) : Option WrittenMoment := do
  let (year, t) ← takeDigits? 4 4 t
  let (month, t) ← takeDigits? 1 2 (← after? 0x2D t)
  let (day, t) ← takeDigits? 1 2 (← after? 0x2D t)
  let time ← if t.isEmpty then some none else do some (← WrittenTime.ofText? (← dropJoint? t))
  pure ⟨Numeral.toNat year, Numeral.toNat month, Numeral.toNat day,
    month.length = 2 && day.length = 2, time⟩

/-- The text is a moment: a date alone has to be written with all its digits. -/
def isMoment (t : Text) : Bool :=
  match WrittenMoment.ofText? t with
  | some w => w.isPadded || w.time.isSome
  | none => false

/-! ## Plain scalars -/

def truthWords : List (Text × Bool) :=
  [("yes", true), ("no", false), ("true", true), ("false", false), ("on", true), ("off", false)]

/-- The spelling of a word with a capital letter in front. -/
def capitalized (t : Text) : Text := (t.take 1).map CodePoint.toUpperAscii ++ t.drop 1

/-- A word in small letters, with one capital letter or in capital letters. -/
def spellings (t : Text) : List Text := [t, capitalized t, t.map CodePoint.toUpperAscii]

def Tag.ofPlain (t : Text) : Tag :=
  if truthWords.any fun w => (spellings w.1).contains t then .bool
  else if isFloat t then .float
  else if isInt t then .int
  else if t = Text.ofString "<<" then .merge
  else if t.isEmpty || t = Text.ofString "~" || (spellings "null").contains t then .null
  else if isMoment t then .moment
  else if t = Text.ofString "=" then .main
  else .text

end CanonStore.Yaml
