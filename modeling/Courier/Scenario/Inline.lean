import Courier.Binary64.Numeral
import Courier.Scenario.Script

/-!
Scripts that the address of a module holds itself. A few shapes of scripts are known, with places
for values of their own; any other script exports nothing.
-/

namespace Courier.Scenario.Inline

/-- What stands in front of a text in another, and what stands behind it. -/
def cutAt (mark : List Char) : List Char → Option (List Char × List Char)
  | [] => if mark.isEmpty then some ([], []) else none
  | c :: rest =>
    if mark.isPrefixOf (c :: rest) then some ([], (c :: rest).drop mark.length)
    else (cutAt mark rest).map fun (before, behind) => (c :: before, behind)

/-- What stands between the parts of a text, the last of which ends it. -/
def between : List String → List Char → Option (List String)
  | [], cs => if cs.isEmpty then some [] else none
  | part :: parts, cs => do
    let (before, behind) ← cutAt part.toList cs
    return String.ofList before :: (← between parts behind)

/-- What stands in the places of a shape, given the parts between which they are. -/
def places (first : String) (parts : List String) (cs : List Char) : Option (List String) :=
  if first.toList.isPrefixOf cs then between parts (cs.drop first.length) else none

/-- A value that a script spells out. -/
def literal? (s : String) : Option Value :=
  if s = "null" then some .null
  else if s = "() => \x7b\x7d" then some .function
  else if !s.isEmpty && s.toList.all Char.isDigit then some (.number (.ofNumeral s))
  else none

/-- The start of a script after which a rejection that nobody handles is put up with. -/
def patience : String := "process.on(\x27unhandledRejection\x27, () => \x7b\x7d); "

/-- A client whose requests fail with an error that has a message of its own. -/
def failing (cs : List Char) : Option Script := do
  let [message] ← places
    "export default () => (\x7b request() \x7b throw Object.assign(new Error(), \x7b message: "
    [" \x7d) \x7d \x7d)"] cs | none
  let failure := Value.error "Error" (← literal? message) .undefined
  return { (default : Script) with reply := { (default : Reply) with syncThrow := some failure } }

/-- A client whose responses take another status when their body is discarded. -/
def changing (cs : List Char) : Option Script := do
  let [status, later] ← places
    "export default () => (\x7b request: () => (\x7b status: "
    [", body: [], discard() \x7b this.status = ", " \x7d \x7d) \x7d)"] cs | none
  let status ← literal? status
  let later ← literal? later
  return { (default : Script) with
    reply := { (default : Reply) with status := status, later := some later, chunks := [] } }

/-- A client whose factory breaks the logger of its reactor. -/
def breaking (cs : List Char) : Option Script := do
  let [] ← places
    ("export default (reactor) => \x7b reactor.logger.warn = reactor.logger.error = () => \x7b "
      ++ "throw new Error(\x27no log\x27) \x7d; return \x7b request() \x7b\x7d \x7d \x7d")
    [] cs | none
  return { (default : Script) with
    build := some [.returns (.record [("request", .function)])], breaksLogger := true }

/-- A factory that throws an error, and whose thread has a broadcast to send later on. -/
def lingering (cs : List Char) : Option Script := do
  let [channel, message] ← places
    "export default () => \x7b setTimeout(() => \x7b const c = new BroadcastChannel(\x27"
    ["\x27); c.postMessage(null); c.close() \x7d, 500); throw new Error(\x27", "\x27) \x7d"] cs | none
  return { (default : Script) with
    build := some [.ringLater channel, .throws (Value.plainError message)] }

/-- A client that answers when it has heard a broadcast. -/
def listening (cs : List Char) : Option Script := do
  let [channel, status] ← places
    "export default () => \x7b const c = new BroadcastChannel(\x27"
    ["\x27); const late = new Promise((r) => \x7b c.onmessage = () => r(",
      "); setTimeout(() => r(408), 5000).unref() \x7d).finally(() => c.close()); "
        ++ "return \x7b request: async () => (\x7b status: await late, body: [] \x7d) \x7d \x7d"] cs
    | none
  let status ← literal? status
  return { (default : Script) with
    reply := { (default : Reply) with
      before := [.wait (broadcastGate channel)], status := status, chunks := [] } }

/-- The client that a script exports the factory of. -/
def script? (cs : List Char) : Option Script :=
  if patience.toList.isPrefixOf cs then
    (failing (cs.drop patience.length)).map fun s => { s with catchesRejections := true }
  else failing cs <|> changing cs <|> breaking cs <|> lingering cs <|> listening cs

end Courier.Scenario.Inline
