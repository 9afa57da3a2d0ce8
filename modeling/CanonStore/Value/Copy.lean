import CanonStore.Value

/-!
# Copies of values

A copy of a value is made part by part. Values that cannot change are not copied but shared:
`Value.isShared` says which. A view on memory that belongs to others cannot be copied, and neither can
a value with too many containers inside one another; `Value.copyFault?` finds the first such part.
-/

namespace CanonStore

/-- Why a value cannot be copied. -/
inductive CopyFault where
  | memoryView
  | tooDeep
deriving DecidableEq

namespace Value

/-- How many containers inside one another can be copied. A copy puts two frames on the stack for each. -/
def maxCopyDepth : Nat := 480

mutual

def isShared : Value → Bool
  | .null | .bool _ | .int _ | .float _ | .text _ | .textMember _ _ | .intMember _ _ | .member _ _
  | .bytes _ => true
  | .foreign kind => kind.isCallable || kind = .range || kind = .complex || kind = .decimal
  | .tuple items => areShared items
  | _ => false

def areShared : List Value → Bool
  | [] => true
  | v :: rest => isShared v && areShared rest

end

mutual

/-- The first reason why a value cannot be copied; `depth` more containers may be opened. -/
def copyFaultAt (depth : Nat) : Value → Option CopyFault
  | .foreign .memoryview => some .memoryView
  | .list items | .tuple items => if depth = 0 then some .tooDeep else copyFaultItems (depth - 1) items
  | .dict entries => if depth = 0 then some .tooDeep else copyFaultEntries (depth - 1) entries
  | .record _ fields | .entry _ fields =>
    if depth = 0 then some .tooDeep else copyFaultFields (depth - 1) fields
  | _ => none

def copyFaultItems (depth : Nat) : List Value → Option CopyFault
  | [] => none
  | v :: rest =>
    match copyFaultAt depth v with
    | some fault => some fault
    | none => copyFaultItems depth rest

def copyFaultEntries (depth : Nat) : List (Value × Value) → Option CopyFault
  | [] => none
  | (k, v) :: rest =>
    match copyFaultAt depth k with
    | some fault => some fault
    | none =>
      match copyFaultAt depth v with
      | some fault => some fault
      | none => copyFaultEntries depth rest

def copyFaultFields (depth : Nat) : List (Text × Value) → Option CopyFault
  | [] => none
  | (_, v) :: rest =>
    match copyFaultAt depth v with
    | some fault => some fault
    | none => copyFaultFields depth rest

end

/-- The first reason why a value cannot be copied. -/
def copyFault? (v : Value) : Option CopyFault := copyFaultAt maxCopyDepth v

end Value

end CanonStore
