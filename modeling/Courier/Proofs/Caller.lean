import Courier.Handle
import Courier.Proofs.Channel

/-!
What callers do with a transport, its handles and its signals, and what that comes to for the
channel behind it. Where a transport runs makes no difference to its callers' side.
-/

namespace Courier

/-- What callers can do. Handles are known by their places. -/
inductive Caller where
  | handle (uri : String)
  | clone (place : Nat)
  | send (place : Nat) (payload : Bytes) (signal : Option Nat)
  | closeHandle (place : Nat)
  | close
  | abort (signal : Nat) (reason : Value)

/-- What is done to the channel and to the signals. -/
inductive Deed where
  | clone (sender : Nat)
  | send (sender : Nat) (uri : String) (payload : Bytes) (signal : Option Nat)
  | release (sender : Nat)
  | abort (signal : Nat) (reason : Value)

namespace Transport

variable {α β : Type} {t u : Transport} {c : Channel α} {d : Channel β}

/-- The transport after a caller has done something, and what is left to do. -/
def act (t : Transport) (c : Channel α) : Caller → Transport × Option Deed
  | .handle uri =>
    match t.handle c uri with
    | .ok (u, _, _) => (u, some (.clone t.sender))
    | .error _ => (t, none)
  | .clone place =>
    match t.handles.members[place]? with
    | some h => ({ t with handles := (t.handles.clone c h).1 }, some (.clone h.sender))
    | none => (t, none)
  | .send place payload signal =>
    (t, (t.handles.members[place]?).map fun h => .send h.sender h.uri payload signal)
  | .closeHandle place => (t, (t.handles.members[place]?).map fun h => .release h.sender)
  | .close => (t.close.1, t.close.2.map .release)
  | .abort signal reason => (t, some (.abort signal reason))

/-- Callers see of a channel only its senders and whether it is closed. -/
theorem act_congr (h : c.gate = d.gate) (caller : Caller) : t.act c caller = t.act d caller := by
  have hclone := Channel.clone_eq_of_gate h
  cases caller with
  | handle uri =>
    simp only [act, handle]
    cases ht : target uri with
    | error fault => rfl
    | ok href =>
      by_cases hc : t.closed = true
      · simp [hc, bind, Except.bind, throw, throwThe, MonadExceptOf.throw]
      · simp [hc, bind, Except.bind, pure, Except.pure, hclone]
  | clone place =>
    simp only [act, Handles.clone]
    cases t.handles.members[place]? with
    | none => rfl
    | some m => simp [hclone]
  | _ => rfl

end Transport
end Courier
