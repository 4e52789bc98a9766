import Courier.Outcome
import Courier.Value.Joined

/-!
One exchange with a network client: ask, look at the status, read the body. A failure of the
request or of the body stream becomes a network failure, a status other than 200 an HTTP failure
whose body is discarded, and a status of 200 the whole body. What is thrown while a failure is put
into words, by `discard`, by an answer that is none or by joining chunks that are not bytes or too
many, ends the exchange itself.

A response is no mere record: its status is looked at before the body is discarded, and asked for
again behind that, when it may say something else.
-/

namespace Courier

/-- The `discard` of a response. -/
inductive Discard where
  | absent
  | returns
  | throws (v : Value)

/-- A response before its body is read. -/
structure Response where
  status : Value
  discard : Discard
  /-- The status when it is asked for again. -/
  later : Attempt Value

namespace Response

/-- A response whose status stays what it is. -/
def steady (status : Value) (discard : Discard) : Response := ⟨status, discard, .ok status⟩

/-- Status 200 is the number 200 and nothing else. -/
def isOk (r : Response) : Bool :=
  match r.status with
  | .number x => x.same 200
  | _ => false

/-- The failure of a response with another status, which is the one that it has by then. -/
def refusal (r : Response) : Attempt Outcome := do
  return .failure (← Fault.http (← r.later))

end Response

inductive Exchange where
  | asking
  /-- The chunks read so far, the last one first. One that is bytes counts with what it holds at the
  end of the body. -/
  | reading (chunks : List Value)
  | over (result : Attempt Outcome)
  deriving Inhabited

namespace Exchange

/-- The request or the body stream failed with a value. -/
def failed (v : Value) : Exchange := .over ((Fault.network v).map .failure)

/-- The client has answered, or returned no response at all; also whether the body is discarded. -/
def answered (r : Attempt (Option Response)) : Exchange × Bool :=
  match r with
  | .error v => (failed v, false)
  | .ok none => (.over (.error (Value.unreadable .undefined "status")), false)
  | .ok (some response) =>
    if response.isOk then (.reading [], false)
    else
      match response.discard with
      | .absent => (.over response.refusal, false)
      | .returns => (.over response.refusal, true)
      | .throws v => (.over (.error v), true)

/-- A chunk of the body. -/
def chunk (e : Exchange) (v : Value) : Exchange :=
  match e with
  | .reading chunks => .reading (v :: chunks)
  | e => e

/-- The end of the body, with the memory that there is then, or the value it failed with. -/
def bodyEnded (e : Exchange) (r : Attempt Memory) : Exchange :=
  match e, r with
  | .reading _, .error v => failed v
  | .reading chunks, .ok memory => .over ((Value.joined memory chunks.reverse).map .success)
  | e, _ => e

end Exchange
end Courier
