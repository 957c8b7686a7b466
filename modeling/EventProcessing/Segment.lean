import EventProcessing.Failure
import EventProcessing.KeyHash

/-!
Segments: slices of the key space. A key belongs to the segment whose id is the masked hash of the
key, so equal keys meet in one segment.
-/

namespace EventProcessing

structure Segment where
  id : UInt32
  mask : UInt32
  deriving DecidableEq, Inhabited

namespace Segment

def root : Segment := ⟨0, 0⟩

def make (id mask : UInt32) : Except Failure Segment :=
  if id ≤ mask then .ok ⟨id, mask⟩ else .error .idOutsideMask

def covers (s : Segment) (key : String) : Bool := s.mask == 0 || keyHash key &&& s.mask == s.id

def powerFrom (n start : Nat) : Nat → Nat
  | 0 => 1 <<< start
  | steps + 1 => if n ≤ 1 <<< start then 1 <<< start else powerFrom n (start + 1) steps

def roundedCount? (count : Nat) : Option Nat :=
  let n := powerFrom (max count 1) 0 32
  if n < UInt32.size then some n else none

def layout (n : Nat) : List Segment :=
  (List.range n).map fun i => ⟨UInt32.ofNat i, UInt32.ofNat (n - 1)⟩

def split (count : Nat) : Except Failure (List Segment) :=
  match roundedCount? count with
  | some n => .ok (layout n)
  | none => .error .overflow

end Segment

end EventProcessing
