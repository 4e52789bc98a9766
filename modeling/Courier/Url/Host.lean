import Courier.Url.Percent

/-!
Hosts: names, IPv4 numbers and IPv6 numbers. Names of a special scheme are decoded and lowered;
only ASCII names are accepted. A name whose last label is a number has to be an IPv4 address, each
part decimal, octal or hexadecimal, the last one filling the bytes that remain. The longest run of
zero pieces of an IPv6 address is left out of its text.
-/

namespace Courier.Url

inductive Host where
  | empty
  | name (labels : String)
  | v4 (address : Nat)
  | v6 (pieces : List Nat)
  deriving Repr

def splitAll (sep : Char) (cs : List Char) : List (List Char) :=
  cs.foldr (fun c parts =>
    if c = sep then [] :: parts
    else match parts with
      | part :: rest => (c :: part) :: rest
      | [] => [[c]]) [[]]

/-! IPv4 -/

def digitIn? (radix : Nat) (c : Char) : Option Nat := do
  let n ← Text.hexDigit? c
  if n < radix then some n else none

def numeral? (radix : Nat) (cs : List Char) : Option Nat :=
  cs.foldlM (fun n c => (digitIn? radix c).map (radix * n + ·)) 0

/-- A part of an IPv4 address. -/
def v4Part? : List Char → Option Nat
  | [] => none
  | '0' :: 'x' :: ds | '0' :: 'X' :: ds => numeral? 16 ds
  | '0' :: d :: ds => numeral? 8 (d :: ds)
  | ds => numeral? 10 ds

def v4Parts (cs : List Char) : List (List Char) :=
  match (splitAll '.' cs).reverse with
  | [] :: part :: rest => (part :: rest).reverse
  | parts => parts.reverse

def endsInNumber (cs : List Char) : Bool :=
  match (v4Parts cs).getLast? with
  | some last => !last.isEmpty && (last.all Char.isDigit || (v4Part? last).isSome)
  | none => false

def v4? (cs : List Char) : Option Nat := do
  let parts := v4Parts cs
  if 4 < parts.length then none
  let numbers ← parts.mapM v4Part?
  let last ← numbers.getLast?
  let front := numbers.dropLast
  if front.any (255 < ·) || Nat.pow 256 (5 - numbers.length) ≤ last then none
  return last + front.zipIdx.foldl (fun sum (n, i) => sum + n * Nat.pow 256 (3 - i)) 0

def v4Text (address : Nat) : String :=
  ".".intercalate ([3, 2, 1, 0].map fun i => toString (address / Nat.pow 256 i % 256))

/-! IPv6 -/

/-- The four decimal parts at the end of an IPv6 address, as two pieces. -/
def v6Tail? (cs : List Char) : Option (List Nat) := do
  let parts := splitAll '.' cs
  if parts.length ≠ 4 then none
  let bytes ← parts.mapM fun ds =>
    if ds.isEmpty || (ds.head? = some '0' && ds.length ≠ 1) then none
    else (numeral? 10 ds).bind fun n => if n ≤ 255 then some n else none
  match bytes with
  | [a, b, c, d] => some [256 * a + b, 256 * c + d]
  | _ => none

/-- The pieces of one side of the gap. Only the last part may be in decimal. -/
def v6Side? (tail : Bool) : List (List Char) → Option (List Nat)
  | [] => some []
  | [part] =>
    if part.contains '.' then (if tail then v6Tail? part else none)
    else (piece? part).map ([·])
  | part :: rest => do return (← piece? part) :: (← v6Side? tail rest)
where
  piece? (ds : List Char) : Option Nat :=
    if ds.isEmpty || 4 < ds.length then none else numeral? 16 ds

/-- Splits at the first gap, two colons in a row. -/
def splitGap : List Char → Option (List Char × List Char)
  | ':' :: ':' :: rest => some ([], rest)
  | c :: rest => (splitGap rest).map fun (a, b) => (c :: a, b)
  | [] => none

def v6? (cs : List Char) : Option (List Nat) :=
  let side (tail : Bool) (cs : List Char) :=
    if cs.isEmpty then some [] else v6Side? tail (splitAll ':' cs)
  match splitGap cs with
  | none => do
    let pieces ← side true cs
    if pieces.length = 8 then some pieces else none
  | some (before, after) => do
    let front ← side false before
    let back ← side true after
    if 7 < front.length + back.length then none
    return front ++ List.replicate (8 - front.length - back.length) 0 ++ back

/-- The length of the run of zeros at the start. -/
def zeroRun (pieces : List Nat) : Nat := (pieces.takeWhile (· = 0)).length

/-- Start and length of the first longest run of at least two zeros. -/
def longestRun (pieces : List Nat) : Option (Nat × Nat) :=
  (List.range pieces.length).foldl (fun best i =>
    let run := zeroRun (pieces.drop i)
    if 1 < run ∧ (best.elim 0 (·.2)) < run then some (i, run) else best) none

def v6Text (pieces : List Nat) : String :=
  let join (ps : List Nat) := ":".intercalate (ps.map fun n => String.ofList (Nat.toDigits 16 n))
  match longestRun pieces with
  | none => join pieces
  | some (start, run) => join (pieces.take start) ++ "::" ++ join (pieces.drop (start + run))

/-! Names -/

/-- Characters that no host may hold. -/
def forbidden (c : Char) : Bool :=
  c.toNat = 0 || isOneOf "\t\n\r #/:<>?@[\\]^|" c

/-- Characters that no name of a special scheme may hold. -/
def forbiddenInName (c : Char) : Bool := forbidden c || isControl c || c = '%'

namespace Host

/-- Reads a host. Outside the special schemes a name is kept as it is. -/
def ofText? (special : Bool) (cs : List Char) : Option Host :=
  match cs with
  | '[' :: rest =>
    match rest.reverse with
    | ']' :: inner => (v6? inner.reverse).map .v6
    | _ => none
  | cs =>
    if special then
      let decoded := decodeBytes cs
      let name := decoded.map fun b => (Char.ofNat b.toNat).toLower
      if name.isEmpty || name.any forbiddenInName then none
      else if endsInNumber name then (v4? name).map .v4
      else some (.name (String.ofList name))
    else if cs.any forbidden then none
    else if cs.isEmpty then some .empty
    else some (.name (String.ofList (encode isControl cs)))

def text : Host → String
  | .empty => ""
  | .name labels => labels
  | .v4 address => v4Text address
  | .v6 pieces => "[" ++ v6Text pieces ++ "]"

end Host
end Courier.Url
