/-!
Request channels: unbounded, many senders, one receiver. A channel closes when its last sender is
released or when the receiver closes it; values sent before that are still handed out.

The buffer keeps values that were handed out already in front of `head`, and drops them once they
are many and make up half of it. A `next` call on an empty open channel waits; the channel
remembers the newest waiting call only, by its ticket.
-/

namespace Courier

structure Channel (α : Type) where
  buffer : Array α
  /-- The place of the next value in the buffer. -/
  head : Nat
  producers : Nat
  closed : Bool
  /-- The ticket of the waiting `next` call. -/
  waiter : Option Nat
  /-- The number of `next` calls so far, which is the ticket of the next one. -/
  asked : Nat
  /-- For every sender made so far, whether it is released. -/
  released : Array Bool
  /-- Whether the receiver is being iterated. -/
  iterated : Bool
  deriving Inhabited

namespace Channel

variable {α : Type}

/-- How many handed-out values the buffer keeps at least before it drops them. -/
def compactThreshold : Nat := 1024

/-- An open channel with one sender, number 0. -/
def new : Channel α := ⟨#[], 0, 1, false, none, 0, #[false], false⟩

/-- A waiting `next` call is served: with a value, or with none at the end. -/
structure Handoff (α : Type) where
  ticket : Nat
  value : Option α

/-- The answer to a `next` call. -/
inductive Next (α : Type) where
  | value (a : α)
  | done
  | waits (ticket : Nat)

/-- The values waiting to be handed out. -/
def live (c : Channel α) : List α := (c.buffer.toList).drop c.head

def size (c : Channel α) : Nat := c.buffer.size - c.head

def isReleased (c : Channel α) (sender : Nat) : Bool := c.released[sender]?.getD true

/-- A sender is closed when it is released or its channel is closed. -/
def isClosed (c : Channel α) (sender : Nat) : Bool := c.isReleased sender || c.closed

/-- Serves the waiting call, if there is one. -/
def serve (c : Channel α) (value : Option α) : Channel α × Option (Handoff α) :=
  match c.waiter with
  | some ticket => ({ c with waiter := none }, some ⟨ticket, value⟩)
  | none => (c, none)

/-- Sends a value: to the waiting call, else into the buffer. Refused on a closed sender. -/
def send (c : Channel α) (sender : Nat) (a : α) : Channel α × Bool × Option (Handoff α) :=
  if c.isClosed sender then (c, false, none)
  else
    match c.waiter with
    | some ticket => ({ c with waiter := none }, true, some ⟨ticket, some a⟩)
    | none => ({ c with buffer := c.buffer.push a }, true, none)

/-- A further sender. One made from a closed sender is released from the start. -/
def clone (c : Channel α) (sender : Nat) : Channel α × Nat :=
  let closed := c.isClosed sender
  ({ c with
      released := c.released.push closed
      producers := if closed then c.producers else c.producers + 1 }, c.released.size)

/-- Releases a sender; the last one closes the channel. -/
def release (c : Channel α) (sender : Nat) : Channel α × Option (Handoff α) :=
  if c.isReleased sender then (c, none)
  else
    let c := { c with
      released := c.released.setIfInBounds sender true
      producers := c.producers - 1 }
    if c.producers = 0 then
      let c := { c with closed := true }
      if c.size = 0 then c.serve none else (c, none)
    else (c, none)

/-- Moves the head past one value and drops what is no longer needed. -/
def advance (c : Channel α) : Channel α :=
  let head := c.head + 1
  if head = c.buffer.size then { c with buffer := #[], head := 0 }
  else if compactThreshold ≤ head ∧ c.buffer.size ≤ 2 * head then
    { c with buffer := c.buffer.extract head c.buffer.size, head := 0 }
  else { c with head := head }

/-- Asks for the next value. A waiting call displaces an older one. -/
def next (c : Channel α) : Channel α × Next α :=
  let ticket := c.asked
  let c := { c with asked := c.asked + 1 }
  match c.buffer[c.head]? with
  | some a => (c.advance, .value a)
  | none => if c.closed then (c, .done) else ({ c with waiter := some ticket }, .waits ticket)

/-- Closes the channel from the receiver's side and gives back the values that were waiting. -/
def close (c : Channel α) : Channel α × List α × Option (Handoff α) :=
  let dropped := c.live
  let (c, handoff) := { c with closed := true, buffer := #[], head := 0 }.serve none
  (c, dropped, handoff)

/-- Starts the one iteration of the receiver; none if it has been started before. -/
def iterate? (c : Channel α) : Option (Channel α) :=
  if c.iterated then none else some { c with iterated := true }

end Channel
end Courier
