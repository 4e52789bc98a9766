import Courier.CallId
import Courier.Intake
import Courier.Log.Level
import Courier.Target

/-!
Transports and their handles. A handle sends to one address and draws its ids from the counter of
its transport; transport and handles each hold a sender of one channel, which closes when the last
of them is released. One that nobody holds any more is released like any other.
-/

namespace Courier

structure Handle where
  sender : Nat
  uri : String
  deriving Inhabited

/-- Handles that share one counter of ids. -/
structure Handles where
  ids : CallId
  members : Array Handle

namespace Handles

def none : Handles := ⟨CallId.first, #[]⟩

instance : Inhabited Handles := ⟨none⟩

/-- Adds a handle; it has the next place. -/
def add (h : Handles) (handle : Handle) : Handles × Nat :=
  ({ h with members := h.members.push handle }, h.members.size)

/-- A further handle for the same address. -/
def clone {α : Type} (h : Handles) (channel : Channel α) (handle : Handle) :
    Handles × Channel α × Nat :=
  let (channel, sender) := channel.clone handle.sender
  let (h, place) := h.add ⟨sender, handle.uri⟩
  (h, channel, place)

def nextId (h : Handles) : Handles × Value :=
  let (id, ids) := h.ids.draw
  ({ h with ids := ids }, id)

end Handles

namespace Handle

/-- What a call of `send` comes to when its receive has ended. -/
def result : Slot.Reading Outcome → Attempt Value
  | .got (some (.success body)) => .ok (.bytes body)
  | .got (some (.failure fault)) => .error fault.toValue
  | .got none | .got (some (.foreign .undefined)) => .error Fault.diedWithoutResponse.toValue
  | .got (some (.foreign v)) => do
    if (← v.read "ok").truthy then return v.field "value"
    throw (v.field "error")
  | .refused reason => .error (Fault.aborted reason).toValue

/-- What a call of `send` leaves in the log when its receive has ended. -/
def remark (uri : String) : Slot.Reading Outcome → Option Log.Entry
  | .refused _ => some ⟨.debug, "Send abandoned by caller:", [.record [("url", .string uri)]]⟩
  | _ => none

end Handle

/-- The transport's own sender and its handles. -/
structure Transport where
  sender : Nat
  closed : Bool
  handles : Handles
  deriving Inhabited

namespace Transport

def new (sender : Nat) : Transport := ⟨sender, false, Handles.none⟩

/-- A handle for an address. -/
def handle {α : Type} (t : Transport) (channel : Channel α) (uri : String) :
    Except Fault (Transport × Channel α × Nat) := do
  let href ← target uri
  if t.closed then
    throw Fault.notListening
  let (channel, sender) := channel.clone t.sender
  let (handles, place) := t.handles.add ⟨sender, href⟩
  return ({ t with handles := handles }, channel, place)

/-- Releases the transport's own sender, once. -/
def close (t : Transport) : Transport × Option Nat :=
  if t.closed then (t, none) else ({ t with closed := true }, some t.sender)

end Transport
end Courier
