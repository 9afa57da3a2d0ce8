import CanonStore.Text

/-!
# Digests

The content digest of a sequence of octets: the first 64 octets of SHAKE-256. The sponge has 25 lanes
of 64 bits, of which 17 take in data, so a block is 136 octets. `absorb` mixes the padded message in,
block after block; `squeeze` draws the output.
-/

namespace CanonStore.Digest

/-- The state of the sponge: 25 lanes, lane `x + 5 * y` at column `x` and row `y`. -/
abbrev Lanes := Vector UInt64 25

def rotate (w : UInt64) (n : Nat) : UInt64 :=
  if n = 0 then w else (w <<< UInt64.ofNat n) ||| (w >>> UInt64.ofNat (64 - n))

/-- The lane at a column and a row, both counted modulo five. -/
def lane (s : Lanes) (x y : Nat) : UInt64 := s.get ⟨x % 5 + 5 * (y % 5), by omega⟩

/-- Builds a state from a function of column and row. -/
def Lanes.build (f : Nat → Nat → UInt64) : Lanes := Vector.ofFn fun i => f (i.val % 5) (i.val / 5)

/-- By how much the lane at a column and a row is rotated. -/
def offset (x y : Nat) : Nat :=
  [0, 1, 62, 28, 27, 36, 44, 6, 55, 20, 3, 10, 43, 25, 39, 41, 45, 15, 21, 8, 18, 2, 61, 56, 14].getD
    (x + 5 * y) 0

def roundConstants : List UInt64 :=
  [0x0000000000000001, 0x0000000000008082, 0x800000000000808A, 0x8000000080008000, 0x000000000000808B,
   0x0000000080000001, 0x8000000080008081, 0x8000000000008009, 0x000000000000008A, 0x0000000000000088,
   0x0000000080008009, 0x000000008000000A, 0x000000008000808B, 0x800000000000008B, 0x8000000000008089,
   0x8000000000008003, 0x8000000000008002, 0x8000000000000080, 0x000000000000800A, 0x800000008000000A,
   0x8000000080008081, 0x8000000000008080, 0x0000000080000001, 0x8000000080008008]

/-- Adds to each lane the parity of two neighbouring columns. -/
def theta (s : Lanes) : Lanes :=
  let parity : Vector UInt64 5 :=
    Vector.ofFn fun x =>
      lane s x 0 ^^^ lane s x 1 ^^^ lane s x 2 ^^^ lane s x 3 ^^^ lane s x 4
  let column (x : Nat) : UInt64 := parity.get ⟨x % 5, by omega⟩
  let change : Vector UInt64 5 := Vector.ofFn fun x => column (x + 4) ^^^ rotate (column (x + 1)) 1
  .build fun x y => lane s x y ^^^ change.get ⟨x % 5, by omega⟩

/-- Rotates each lane by its offset and moves it to its new place. -/
def rhoPi (s : Lanes) : Lanes :=
  .build fun x y => let x' := (x + 3 * y) % 5; rotate (lane s x' x) (offset x' x)

/-- Combines each lane with the next two of its row. -/
def chi (s : Lanes) : Lanes :=
  .build fun x y => lane s x y ^^^ ((lane s (x + 1) y ^^^ 0xFFFFFFFFFFFFFFFF) &&& lane s (x + 2) y)

def round (s : Lanes) (constant : UInt64) : Lanes :=
  let t := chi (rhoPi (theta s))
  t.set 0 (t[0] ^^^ constant)

def permute (s : Lanes) : Lanes := roundConstants.foldl round s

def rate : Nat := 136

/-- The number that up to eight octets denote, least significant first. -/
def word (bytes : Bytes) : UInt64 := bytes.foldr (fun b w => (w <<< 8) ||| b.toUInt64) 0

/-- The eight octets of a lane, least significant first. -/
def wordBytes (w : UInt64) : Bytes := (List.range 8).map fun i => (w >>> UInt64.ofNat (8 * i)).toUInt8

def absorbBlock (s : Lanes) (block : Bytes) : Lanes :=
  permute (Vector.ofFn fun i => s[i] ^^^ word ((block.drop (8 * i.val)).take 8))

/-- Fills up a last block of fewer than `rate` octets: the mark of the extendable output, zeros, and
the top bit of the last octet. -/
def padBlock (last : Bytes) : Bytes :=
  if last.length + 1 = rate then last ++ [0x9F]
  else last ++ 0x1F :: List.replicate (rate - last.length - 2) 0 ++ [0x80]

/-- Mixes a message into the state, whole blocks first and then the padded rest. -/
def absorb (s : Lanes) (message : Bytes) : Lanes :=
  if _h : message.length < rate then absorbBlock s (padBlock message)
  else absorb (absorbBlock s (message.take rate)) (message.drop rate)
termination_by message.length
decreasing_by simp only [rate] at *; simp; omega

/-- The first octets of the state that are output, at most one block of them. -/
def squeeze (s : Lanes) (count : Nat) : Bytes := (s.toList.flatMap wordBytes).take (min count rate)

def size : Nat := 64

def ofBytes (message : Bytes) : Bytes := squeeze (absorb (Vector.replicate 25 0) message) size

/-- The digest of two sequences, one after the other. -/
def ofPair (left right : Bytes) : Bytes := ofBytes (left ++ right)

end CanonStore.Digest
