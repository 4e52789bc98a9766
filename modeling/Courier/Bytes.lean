/-!
Bytes, and views of a part of a memory block. A view shares its memory: a byte written to the
memory shows in the view.
-/

namespace Courier

abbrev Bytes := List UInt8

/-- The part of a memory block from `start` on. -/
structure View where
  memory : Bytes
  start : Nat
  length : Nat

namespace View

/-- A position counted from the end if negative, and kept within the block. -/
def clamp (size : Nat) (position : Int) : Nat :=
  if position < 0 then (size + position).toNat else min position.toNat size

/-- The view between two positions, empty if they are out of order. -/
def between (memory : Bytes) (start stop : Int) : View :=
  let start := clamp memory.length start
  ⟨memory, start, clamp memory.length stop - start⟩

/-- Overwrites one byte of the memory; outside of it nothing happens. -/
def poke (v : View) (position : Int) (byte : UInt8) : View :=
  if position < 0 then v else { v with memory := v.memory.set position.toNat byte }

def bytes (v : View) : Bytes := (v.memory.drop v.start).take v.length

end View
end Courier
