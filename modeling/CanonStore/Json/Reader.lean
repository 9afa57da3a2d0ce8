import CanonStore.Json.Writer
import CanonStore.Binary64.Reader
import CanonStore.Text.Encoding

/-!
# Reading JSON documents

A recursive reader. Each step returns what it read and the strictly shorter rest of the text, which
is why reading ends. Faults are found in reading order and carry the number of code points left where
they were found; `Json.read` turns that into a position.

Besides strict JSON the reader takes the numbers `NaN`, `Infinity` and `-Infinity`, and keeps
surrogates that have no partner. `Json.readRaw` keeps repeated keys as well; `Json.read` joins them.
-/

namespace CanonStore.Json

/-- What is wrong at a place of a document. -/
inductive Problem where
  | valueExpected
  | commaExpected
  | colonExpected
  | nameExpected
  | extraData
  | unterminatedString
  | controlCharacter
  | badEscape
  | badUnicodeEscape
  | byteOrderMark
deriving DecidableEq

def Problem.text : Problem → Text
  | .valueExpected => "Expecting value"
  | .commaExpected => "Expecting ',' delimiter"
  | .colonExpected => "Expecting ':' delimiter"
  | .nameExpected => "Expecting property name enclosed in double quotes"
  | .extraData => "Extra data"
  | .unterminatedString => "Unterminated string starting at"
  | .controlCharacter => "Invalid control character at"
  | .badEscape => "Invalid \\escape"
  | .badUnicodeEscape => "Invalid \\uXXXX escape"
  | .byteOrderMark => "Unexpected UTF-8 BOM (decode using utf-8-sig)"

/-- Why reading stopped: a problem with the number of code points left at its place, an integer with
too many digits, or too many open brackets. -/
inductive Stop where
  | problem (p : Problem) (left : Nat)
  | oversized (digits : Nat)
  | tooDeep
deriving DecidableEq

/-- A text shorter than another one. -/
abbrev Shorter (s : Text) := { r : Text // r.length < s.length }

/-- What a step returns: a value and a rest shorter than the text. -/
abbrev Step (α : Type) (s : Text) := Except Stop (α × Shorter s)

def isBlank (c : CodePoint) : Bool := c = ' ' || c = '\t' || c = '\n' || c = '\r'

def skipBlanks (s : Text) : Text := s.dropWhile isBlank

/-- Dropping from the front makes no text longer. -/
theorem length_dropWhile_le (p : CodePoint → Bool) (s : Text) : (s.dropWhile p).length ≤ s.length :=
  (List.dropWhile_suffix p).length_le

theorem length_skipBlanks_le (s : Text) : (skipBlanks s).length ≤ s.length :=
  length_dropWhile_le isBlank s

/-- Dropping an initial part shortens the text by its length. -/
theorem length_of_dropPrefix {p s r : Text} (h : Text.dropPrefix? p s = some r) :
    r.length + p.length = s.length := by
  induction p generalizing s with
  | nil => simp only [Text.dropPrefix?, Option.some.injEq] at h; simp [h]
  | cons a p ih =>
    cases s with
    | nil => simp [Text.dropPrefix?] at h
    | cons c s =>
      rw [Text.dropPrefix?] at h
      split at h
      · have := ih h; simp only [List.length_cons]; omega
      · simp at h

/-! ## Strings -/

/-- The value of exactly four hexadecimal digits at the start of a text. -/
def hex4? : Text → Option Nat
  | a :: b :: c :: d :: _ => do
    let a ← a.hexValue?
    let b ← b.hexValue?
    let c ← c.hexValue?
    let d ← d.hexValue?
    pure (((a * 16 + b) * 16 + c) * 16 + d)
  | _ => none

def escapeValue? (c : CodePoint) : Option CodePoint :=
  if c = '"' then some '"'
  else if c = '\\' then some '\\'
  else if c = '/' then some '/'
  else if c = 'b' then some 0x08
  else if c = 'f' then some 0x0C
  else if c = 'n' then some '\n'
  else if c = 'r' then some '\r'
  else if c = 't' then some '\t'
  else none

/-- What is left of a text after dropping from it is shorter. -/
theorem length_drop_lt {s : Text} {n k : Nat} (h : s.drop n ≠ []) (hk : 0 < k) :
    (s.drop k).length < s.length := by
  have := List.length_pos_iff.2 h
  rw [List.length_drop] at this ⊢
  omega

/-- Reads an escape by number; `s` is the text after the letter `u`. The digits have to be followed by
more text. A high surrogate joins with a low one that is escaped right after it. -/
def unitEscapeAt (s : Text) : Step CodePoint s :=
  if h : s.drop 4 = [] then .error (.problem .badUnicodeEscape (s.length + 1))
  else match hex4? s with
    | none => .error (.problem .badUnicodeEscape (s.length + 1))
    | some n =>
      -- Any number is a code point here, a surrogate without partner too.
      let high := CodePoint.ofNat n
      let alone : CodePoint × Shorter s := (high, ⟨s.drop 4, length_drop_lt h (by decide)⟩)
      match Text.dropPrefix? "\\u" (s.drop 4) with
      | none => .ok alone
      | some after =>
        -- Fewer than five code points after the mark cannot be an escape in a string that is closed. They
        -- are left for the next item to refuse.
        if !high.isHighSurrogate || (after.drop 4).isEmpty then .ok alone
        else match hex4? after with
          | none => .error (.problem .badUnicodeEscape (after.length + 1))
          | some m =>
            if (CodePoint.ofNat m).isLowSurrogate then
              .ok (CodePoint.ofSurrogates high (CodePoint.ofNat m), ⟨s.drop 10, length_drop_lt h (by decide)⟩)
            -- The second escape is no partner: it is read again as an item of its own.
            else .ok alone

/-- Reads one code point of a string, or the closing quote. `opened` is the text from the opening quote
on. -/
def stringItem (opened : Text) : (s : Text) → Step (Option CodePoint) s
  | [] => .error (.problem .unterminatedString opened.length)
  | c :: rest =>
    if c = '"' then .ok (none, ⟨rest, by simp⟩)
    else if c.val < 0x20 then .error (.problem .controlCharacter (rest.length + 1))
    else if c ≠ '\\' then .ok (some c, ⟨rest, by simp⟩)
    else match rest with
      -- Every string that is not closed is reported at its opening quote.
      | [] => .error (.problem .unterminatedString opened.length)
      | e :: after =>
        if e = 'u' then
          match unitEscapeAt after with
          | .error stop => .error stop
          | .ok (v, r) => .ok (some v, ⟨r.val, by have := r.property; simp; omega⟩)
        else match escapeValue? e with
          | none => .error (.problem .badEscape (after.length + 2))
          | some v => .ok (some v, ⟨after, by simp only [List.length_cons]; omega⟩)

/-- Reads the body of a string up to and with its closing quote. -/
def stringBody (opened : Text) (s : Text) : Step Text s :=
  match stringItem opened s with
  | .error stop => .error stop
  | .ok (none, r) => .ok ([], r)
  | .ok (some c, r) =>
    match stringBody opened r.val with
    | .error stop => .error stop
    | .ok (t, r') => .ok (c :: t, ⟨r'.val, Nat.lt_trans r'.property r.property⟩)
termination_by s.length
decreasing_by exact r.property

/-! ## Numbers and words -/

/-- The numeral at the start of a text, without sign: its whole part, its fraction, its exponent and
what follows. The whole part is empty if there is no numeral. -/
structure Numeric where
  whole : Text
  fraction : Text
  exponent : Option Int
  rest : Text

/-- The whole part: a zero, or a run of digits that does not start with zero. -/
def takeWhole : Text → Text × Text
  | c :: rest => if c = '0' then ([c], rest) else Binary64.takeDigits (c :: rest)
  | [] => ([], [])

/-- A point and digits after it, if both are there. -/
def takeFraction (s : Text) : Text × Text :=
  match s with
  | c :: rest =>
    let (ds, after) := Binary64.takeDigits rest
    if c = '.' && !ds.isEmpty then (ds, after) else ([], s)
  | [] => ([], s)

/-- A letter `e`, perhaps a sign, and digits, if they are there. -/
def takeExponent (s : Text) : Option Int × Text :=
  match s with
  | c :: rest =>
    let (negative, unsigned) := Binary64.takeSign rest
    let (ds, after) := Binary64.takeDigits unsigned
    if (c = 'e' || c = 'E') && !ds.isEmpty then
      (some (if negative then -(Numeral.toNat ds : Int) else Numeral.toNat ds), after)
    else (none, s)
  | [] => (none, s)

/-- Splits off the longest numeral at the start of a text without sign. -/
def takeNumber (s : Text) : Numeric :=
  let (whole, s1) := takeWhole s
  let (fraction, s2) := takeFraction s1
  let (exponent, s3) := takeExponent s2
  ⟨whole, fraction, exponent, s3⟩

theorem length_takeDigits_le (s : Text) : (Binary64.takeDigits s).2.length ≤ s.length :=
  length_dropWhile_le _ s

theorem length_takeSign_le (s : Text) : (Binary64.takeSign s).2.length ≤ s.length := by
  cases s with
  | nil => exact Nat.le_refl _
  | cons c rest => simp only [Binary64.takeSign]; split <;> (try split) <;> simp

/-- A whole part that is not empty shortens the text. -/
theorem length_takeWhole_lt {s : Text} (h : (takeWhole s).1 ≠ []) :
    (takeWhole s).2.length < s.length := by
  cases s with
  | nil => exact absurd rfl h
  | cons c rest =>
    rw [takeWhole] at h ⊢
    by_cases hz : c = '0'
    · rw [if_pos hz]
      exact Nat.lt_succ_self _
    · rw [if_neg hz] at h ⊢
      have split := congrArg List.length
        (List.takeWhile_append_dropWhile (p := CodePoint.isDigit) (l := c :: rest))
      have pos := List.length_pos_iff.2 h
      simp only [List.length_append, Binary64.takeDigits] at split pos ⊢
      omega

theorem length_takeFraction_le (s : Text) : (takeFraction s).2.length ≤ s.length := by
  cases s with
  | nil => exact Nat.le_refl _
  | cons c rest =>
    simp only [takeFraction]
    split
    · exact Nat.le_succ_of_le (length_takeDigits_le rest)
    · exact Nat.le_refl _

theorem length_takeExponent_le (s : Text) : (takeExponent s).2.length ≤ s.length := by
  cases s with
  | nil => exact Nat.le_refl _
  | cons c rest =>
    simp only [takeExponent]
    split
    · exact Nat.le_succ_of_le
        (Nat.le_trans (length_takeDigits_le _) (length_takeSign_le rest))
    · exact Nat.le_refl _

/-- A numeral that is there shortens the text. -/
theorem length_takeNumber_lt {s : Text} (h : (takeNumber s).whole ≠ []) :
    (takeNumber s).rest.length < s.length :=
  Nat.lt_of_le_of_lt
    (Nat.le_trans (length_takeExponent_le _) (length_takeFraction_le _)) (length_takeWhole_lt h)

/-- What a numeral denotes: an integer if it has neither fraction nor exponent, otherwise a float. -/
def Numeric.value (n : Numeric) (negative : Bool) : Except Stop Json :=
  match n.fraction, n.exponent with
  | [], none =>
    -- The length of the digits counts, leading zeros are not in it: the format has none.
    if maxDigits < n.whole.length then .error (.oversized n.whole.length)
    else
      let m : Int := Numeral.toNat n.whole
      .ok (.int (if negative then -m else m))
  | fraction, exponent =>
    .ok (.float (Binary64.ofDecimal negative (Numeral.toNat (n.whole ++ fraction))
      (exponent.getD 0 - fraction.length)))

/-- The words of the format and what they denote. -/
def words : List (Text × Json) :=
  [("null", .null), ("true", .bool true), ("false", .bool false), ("NaN", .float .nan),
   ("Infinity", .float (.infinite false)), ("-Infinity", .float (.infinite true))]

/-- The word at the start of a text and what follows it. -/
def takeWord? (s : Text) : Option (Json × Text) :=
  words.findSome? fun w => (Text.dropPrefix? w.1 s).map (w.2, ·)

/-- A word that is there shortens the text. -/
theorem length_lt_of_takeWord {s : Text} {w : Json × Text} (h : takeWord? s = some w) :
    w.2.length < s.length := by
  obtain ⟨word, member, found⟩ := List.exists_of_findSome?_eq_some h
  obtain ⟨rest, dropped, rfl⟩ := Option.map_eq_some_iff.1 found
  have nonempty : 0 < word.1.length := (by decide : ∀ w ∈ words, 0 < w.1.length) word member
  have := length_of_dropPrefix dropped
  exact (by omega : rest.length < s.length)

def unsigned (s : Text) : Text := if s.head? = some '-' then s.drop 1 else s

theorem length_unsigned_le (s : Text) : (unsigned s).length ≤ s.length := by
  unfold unsigned
  split
  · rw [List.length_drop]; exact Nat.sub_le _ _
  · exact Nat.le_refl _

def scalar (s : Text) : Step Json s :=
  match h : takeWord? s with
  | some w => .ok (w.1, ⟨w.2, length_lt_of_takeWord h⟩)
  | none =>
    -- No word stands here. `-Infinity` is among the words, so a minus sign now belongs to a numeral.
    let n := takeNumber (unsigned s)
    if h : n.whole = [] then .error (.problem .valueExpected s.length)
    else match n.value (s.head? = some '-') with
      | .error stop => .error stop
      | .ok value =>
        .ok (value, ⟨n.rest, Nat.lt_of_lt_of_le (length_takeNumber_lt h) (length_unsigned_le s)⟩)

/-! ## Values -/

/-- How many containers of a text may lie inside one another. The stack sets the bound: each container puts one
frame on it. -/
def maxDepth : Nat := 980

mutual

/-- Reads a value that starts right here; `depth` more brackets may be opened. -/
def value (depth : Nat) : (s : Text) → Step Json s
  | [] => .error (.problem .valueExpected 0)
  | c :: rest =>
    if c = '"' then
      match stringBody (c :: rest) rest with
      | .error stop => .error stop
      | .ok (t, r) => .ok (.text t, ⟨r.val, Nat.lt_succ_of_lt r.property⟩)
    else if c = '[' then
      if depth = 0 then .error .tooDeep
      else match h : skipBlanks rest with
        | d :: after =>
          have := length_skipBlanks_le rest
          -- The empty list is told apart here, so that `items` can demand an item after every comma.
          if d = ']' then .ok (.list [], ⟨after, by simp_all; omega⟩)
          else match items (depth - 1) (d :: after) with
            | .error stop => .error stop
            | .ok (js, r) => .ok (.list js, ⟨r.val, by have := r.property; simp_all; omega⟩)
        | [] => .error (.problem .valueExpected 0)
    else if c = '{' then
      if depth = 0 then .error .tooDeep
      else match h : skipBlanks rest with
        | d :: after =>
          have := length_skipBlanks_le rest
          if d = '}' then .ok (.object [], ⟨after, by simp_all; omega⟩)
          else match members (depth - 1) (d :: after) with
            | .error stop => .error stop
            | .ok (ms, r) =>
              .ok (.object ms, ⟨r.val, by have := r.property; simp_all; omega⟩)
        | [] => .error (.problem .nameExpected 0)
    else scalar (c :: rest)
termination_by s => (s.length, 0)
decreasing_by all_goals (apply Prod.Lex.left; simp_all only [List.length_cons]; omega)

/-- Reads items up to and with the closing bracket. -/
def items (depth : Nat) (s : Text) : Step (List Json) s :=
  match value depth s with
  | .error stop => .error stop
  | .ok (j, r) =>
    have := length_skipBlanks_le r.val
    have := r.property
    match h : skipBlanks r.val with
    | [] => .error (.problem .commaExpected 0)
    | c :: after =>
      if c = ']' then .ok ([j], ⟨after, by simp_all; omega⟩)
      else if c ≠ ',' then .error (.problem .commaExpected (after.length + 1))
      -- After a comma blanks are skipped here, because `value` starts at its first code point.
      else
        have := length_skipBlanks_le after
        match items depth (skipBlanks after) with
        | .error stop => .error stop
        | .ok (js, r') => .ok (j :: js, ⟨r'.val, by have := r'.property; simp_all; omega⟩)
termination_by (s.length, 1)
decreasing_by
  · exact Prod.Lex.right _ (by decide)
  · apply Prod.Lex.left; simp_all; omega

/-- Reads members up to and with the closing brace. -/
def members (depth : Nat) (s : Text) : Step (List (Text × Json)) s :=
  match s with
  | [] => .error (.problem .nameExpected 0)
  | q :: body =>
    if q ≠ '"' then .error (.problem .nameExpected (body.length + 1))
    else match stringBody (q :: body) body with
      | .error stop => .error stop
      | .ok (k, r1) =>
        have := r1.property
        have := length_skipBlanks_le r1.val
        match h1 : skipBlanks r1.val with
        | [] => .error (.problem .colonExpected 0)
        | c :: after1 =>
          if c ≠ ':' then .error (.problem .colonExpected (after1.length + 1))
          else
            have := length_skipBlanks_le after1
            match value depth (skipBlanks after1) with
            | .error stop => .error stop
            | .ok (j, r2) =>
              have := r2.property
              have := length_skipBlanks_le r2.val
              match h2 : skipBlanks r2.val with
              | [] => .error (.problem .commaExpected 0)
              | d :: after2 =>
                if d = '}' then .ok ([(k, j)], ⟨after2, by simp_all; omega⟩)
                else if d ≠ ',' then .error (.problem .commaExpected (after2.length + 1))
                else
                  have := length_skipBlanks_le after2
                  match members depth (skipBlanks after2) with
                  | .error stop => .error stop
                  | .ok (ms, r3) =>
                    .ok ((k, j) :: ms, ⟨r3.val, by have := r3.property; simp_all; omega⟩)
termination_by (s.length, 1)
decreasing_by
  all_goals apply Prod.Lex.left
  all_goals simp_all
  all_goals omega

end

/-! ## Documents -/

/-- Why a text is no document. -/
inductive Fault where
  /-- A problem at a position of the text, with the line and column there. -/
  | syntaxProblem (p : Problem) (line column position : Nat)
  /-- An integer with too many digits. -/
  | oversized (digits : Nat)
  /-- Too many open brackets. -/
  | tooDeep
deriving DecidableEq

/-- The fault that a stop is in a given text: lines are counted from one by their line feeds, columns
from one in each line. -/
def Stop.inText (whole : Text) : Stop → Fault
  | .problem p left =>
    let before := whole.take (whole.length - left)
    .syntaxProblem p (before.count 0x0A + 1)
      ((before.reverse.takeWhile fun c => c ≠ 0x0A).length + 1) before.length
  | .oversized digits => .oversized digits
  | .tooDeep => .tooDeep

/-- The wording for an integer with too many digits. -/
def oversizedText (digits : Nat) : Text :=
  "Exceeds the limit (4300 digits) for integer string conversion: value has " ++
    Numeral.ofNat digits ++ " digits; use sys.set_int_max_str_digits() to increase the limit"

def Fault.message : Fault → Text
  | .syntaxProblem p line column position =>
    p.text ++ ": line " ++ Numeral.ofNat line ++ " column " ++ Numeral.ofNat column ++ " (char " ++
      Numeral.ofNat position ++ ")"
  | .oversized digits => oversizedText digits
  | .tooDeep => "maximum recursion depth exceeded"

/-- Reads one value with blanks around it and nothing else. Repeated keys are kept. -/
def readRaw (s : Text) : Except Stop Json :=
  match value maxDepth (skipBlanks s) with
  | .error stop => .error stop
  | .ok (j, r) =>
    match skipBlanks r.val with
    | [] => .ok j
    | rest => .error (.problem .extraData rest.length)

/-- Reads a text without looking for a byte order mark. -/
def readUnmarked (s : Text) : Except Fault Json :=
  match readRaw s with
  -- Of members with the same key the last one wins, but only now: their values were all read.
  | .ok j => .ok j.joined
  | .error stop => .error (stop.inText s)

def read (s : Text) : Except Fault Json :=
  if s.head? = some 0xFEFF then .error (Stop.inText s (.problem .byteOrderMark s.length))
  else readUnmarked s

/-- Why octets are no document. -/
inductive BytesFault where
  | encoding (fault : DecodingFault)
  | document (fault : Fault)
deriving DecidableEq

def readBytes (bytes : Bytes) : Except BytesFault Json :=
  match Text.ofDocument bytes with
  | .error fault => .error (.encoding fault)
  | .ok s => (readUnmarked s).mapError .document

end CanonStore.Json
