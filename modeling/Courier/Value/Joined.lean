import Courier.Value.Octets

/-!
Bytes joined from chunks. The lengths that the chunks say they have are summed up before any chunk
is looked at, so a chunk that has no length, or a sum that is no size of bytes or that there is no
room for, is noticed before a chunk that is not bytes.
-/

namespace Courier.Value

/-- The length that a value says it has. -/
def length (v : Value) : Attempt Value :=
  match v with
  | .string s => .ok (nat (Text.length s))
  | .array items => .ok (nat items.length)
  | .bytes content | .buffer content => .ok (nat content.length)
  | .words content => .ok (nat content.length)
  | .function => .ok (nat 0)
  | v => v.read "length"

/-- The sum of the lengths of chunks; one that is nothing or zero is not added. -/
def totalLength (chunks : List Value) : Attempt Value :=
  chunks.foldlM (fun total chunk => do
    let length ← chunk.length
    if length.truthy then total.sum length else return total) (nat 0)

/-- A numeral in groups of three characters from its end. -/
def groupedDigits (s : String) : String :=
  let (sign, cs) := match s.toList with
    | '-' :: cs => ("-", cs)
    | cs => ("", cs)
  sign ++ String.ofList (separate cs.reverse).reverse
where
  separate : List Char → List Char
    | a :: b :: c :: d :: rest => a :: b :: c :: '_' :: separate (d :: rest)
    | cs => cs

/-- How the complaint about a number out of range shows it. -/
def outOfRangeText (x : Binary64) : String :=
  if x.isWhole && (x.toInt?.any fun n => Nat.pow 2 32 < n.natAbs) then groupedDigits x.toText
  else numberShown x

def outOfRange (x : Binary64) : Value :=
  systemError "RangeError" "ERR_OUT_OF_RANGE"
    ("The value of \"size\" is out of range. It must be >= 0 && <= " ++ toString mostBytes
      ++ ". Received " ++ outOfRangeText x)

/-- Makes room for so many bytes. -/
def allocate (memory : Memory) (size : Value) : Attempt Unit := do
  match size with
  | .number x =>
    match x.toInt? with
    | some n =>
      if x.isNegative || mostBytes < n then throw (outOfRange x)
      if memory.room < n then throw outOfMemory
    | none => throw (outOfRange x)
  | v => throw (← v.invalidArgument "The \"size\" argument must be of type number")

/-- Joins chunks of bytes, the first one being at the given place. -/
def joinFrom (place : Nat) : List Value → Attempt Bytes
  | [] => .ok []
  | chunk :: rest => do
    match chunk.bytes? with
    | some content => return content ++ (← joinFrom (place + 1) rest)
    | none =>
      throw (← chunk.invalidArgument ("The \"list[" ++ toString place
        ++ "]\" argument must be an instance of Buffer or Uint8Array"))

/-- Joins the chunks of a body in order, as far as there is room for them. -/
def joined (memory : Memory) (chunks : List Value) : Attempt Bytes := do
  if chunks.isEmpty then return []
  allocate memory (← totalLength chunks)
  joinFrom 0 chunks

end Courier.Value
