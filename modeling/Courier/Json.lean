import Courier.Binary64.Text

/-!
JSON documents and their compact text. Fields keep their order; `arrange` puts the fields of an
object into the order in which an object lists them: whole-number names first and ascending, then
the rest as they came.
-/

namespace Courier

inductive Json where
  | null
  | bool (b : Bool)
  | number (x : Binary64)
  | string (s : String)
  | array (items : List Json)
  | object (fields : List (String × Json))
  deriving Repr, Inhabited

namespace Json

/-- The characters of one escaped character of a string. -/
def escape (c : Char) : String :=
  if c = '"' then "\\\""
  else if c = '\\' then "\\\\"
  else if c = '\n' then "\\n"
  else if c = '\t' then "\\t"
  else if c = '\r' then "\\r"
  else if c = '\x08' then "\\b"
  else if c = '\x0c' then "\\f"
  else if c.toNat < 0x20 then
    "\\u00" ++ String.ofList [Nat.digitChar (c.toNat / 16), Nat.digitChar (c.toNat % 16)]
  else c.toString

def escapeAll (s : String) : String := s.foldl (fun out c => out ++ escape c) ""

def quote (s : String) : String := "\"" ++ escapeAll s ++ "\""

/-- JSON has no text for a number that is not finite. -/
def numberText (x : Binary64) : String := if x.isFinite then x.toText else "null"

mutual
/-- Appends the text of a document without blanks. -/
def write (out : String) : Json → String
  | .null => out ++ "null"
  | .bool b => out ++ if b then "true" else "false"
  | .number x => out ++ numberText x
  | .string s => out ++ quote s
  | .array items => writeItems (out.push '[') true items ++ "]"
  | .object fields => writeFields (out.push '\x7b') true fields ++ "\x7d"

def writeItems (out : String) (first : Bool) : List Json → String
  | [] => out
  | item :: items => writeItems (write (if first then out else out.push ',') item) false items

def writeFields (out : String) (first : Bool) : List (String × Json) → String
  | [] => out
  | (name, value) :: fields =>
    writeFields
      (write ((if first then out else out.push ',') ++ quote name ++ ":") value) false fields
end

/-- The text of a document without blanks. -/
def compact (j : Json) : String := write "" j

end Json

namespace Record

/-- The number that a name spells when it is a list index: no leading zero, below `2 ^ 32 - 1`. -/
def index? (name : String) : Option Nat :=
  match name.toList with
  | [] => none
  | cs@(c :: rest) =>
    if cs.all Char.isDigit ∧ (c ≠ '0' ∨ rest = []) then
      let n := cs.foldl (fun n d => 10 * n + (d.toNat - '0'.toNat)) 0
      if n < Nat.pow 2 32 - 1 then some n else none
    else none

/-- The order in which an object lists its fields. -/
def arrange {α : Type} (fields : List (String × α)) : List (String × α) :=
  let indexed := fields.filterMap fun f => (index? f.1).map (·, f)
  (indexed.mergeSort fun a b => a.1 ≤ b.1).map (·.2)
    ++ fields.filter fun f => (index? f.1).isNone

end Record
end Courier
