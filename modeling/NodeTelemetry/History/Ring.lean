namespace NodeTelemetry

/-- Samples of `width` values each, back to back in one array of words. The slots from `base` on,
`size` of them and modulo the capacity, are in use; `next` is the one to be written. -/
structure Ring where
  width : Nat
  capacity : Nat
  data : Array UInt64
  base : Nat := 0
  size : Nat := 0
  next : Nat := 0
  deriving DecidableEq, Repr

namespace Ring

/-- The words of a ring, counted in words as the machine multiplies them. -/
def allocation (width capacity : Nat) : Nat :=
  (UInt64.ofNat capacity * UInt64.ofNat width).toNat

def new (width capacity : Nat) : Ring :=
  let capacity := max capacity 1
  { width, capacity, data := Array.replicate (allocation width capacity) 0 }

def start (r : Ring) (slot : Nat) : Nat := slot * r.width

def slot (r : Ring) (i : Nat) : List UInt64 :=
  (r.data.extract (r.start i) (r.start i + r.width)).toList

def toList (r : Ring) : List (List UInt64) :=
  (List.range r.size).map fun k => r.slot ((r.base + k) % r.capacity)

def fit (width : Nat) (sample : List UInt64) : List UInt64 :=
  sample.take width ++ List.replicate (width - sample.length) 0

def write (data : Array UInt64) : Nat → List UInt64 → Array UInt64
  | _, [] => data
  | i, v :: vs => write (data.setIfInBounds i v) (i + 1) vs

def HasRoom (r : Ring) : Prop := r.start r.next + r.width ≤ r.data.size

instance (r : Ring) : Decidable r.HasRoom := inferInstanceAs (Decidable (_ ≤ _))

def push (r : Ring) (sample : List UInt64) : Bool × Ring :=
  let data := write r.data (r.start r.next) (fit r.width sample)
  let next := (r.next + 1) % r.capacity
  if r.size < r.capacity then (false, { r with data, next, size := r.size + 1 })
  else (true, { r with data, next, base := (r.base + 1) % r.capacity })

def pop (r : Ring) : Ring := { r with base := (r.base + 1) % r.capacity, size := r.size - 1 }

def oldest? (r : Ring) : Option (List UInt64) :=
  if r.size = 0 then none else some (r.slot r.base)

def newest? (r : Ring) : Option (List UInt64) :=
  if r.size = 0 then none else some (r.slot ((r.base + r.size - 1) % r.capacity))

def clear (r : Ring) : Ring := { r with size := 0, next := r.base }

theorem length_fit (width : Nat) (sample : List UInt64) : (fit width sample).length = width := by
  simp [fit]
  omega

@[simp] theorem size_write (data : Array UInt64) (i : Nat) (vs : List UInt64) :
    (write data i vs).size = data.size := by
  induction vs generalizing data i with
  | nil => rfl
  | cons v vs ih => simp [write, ih]

theorem length_toList (r : Ring) : r.toList.length = r.size := by simp [toList]

end Ring

end NodeTelemetry
