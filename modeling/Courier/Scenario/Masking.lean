/-!
Texts that differ from run to run or from place to place. Instants that stand where a log line has
its time, ports of the loopback address and the names of missing modules are written the same way
in every report.
-/

namespace Courier.Scenario.Masking

/-- What follows a text of a certain form, in which a zero stands for any digit. -/
def afterForm? : List Char → List Char → Option (List Char)
  | [], rest => some rest
  | _ :: _, [] => none
  | f :: form, c :: rest =>
    if c = f ∨ (f = '0' ∧ c.isDigit) then afterForm? form rest else none

def instant : String := "0000-00-00T00:00:00.000Z"

/-- The forms of a time and what is written for each. -/
def timeForms : List (String × String) :=
  [("[" ++ instant ++ "]", "[TS]"),
    ("\"timestamp\":\"" ++ instant ++ "\"", "\"timestamp\":\"TS\"")]

/-- The forms of a port up to its first digit; the other digits follow. -/
def portForm : String := "127.0.0.1:0"

/-- The forms of a missing module up to its name; the rest of the line follows. -/
def missingForms : List String := ["Cannot find module '", "Cannot find package '"]

/-- A masked text at the start of a text, and what follows it. -/
def masked? (cs : List Char) : Option (String × List Char) :=
  let time := timeForms.findSome? fun (form, shown) =>
    (afterForm? form.toList cs).map (shown, ·)
  let port := (afterForm? portForm.toList cs).map fun rest =>
    ("127.0.0.1:PORT", rest.dropWhile Char.isDigit)
  let missing := missingForms.findSome? fun form =>
    (afterForm? form.toList cs).map fun rest =>
      ("Cannot find module", rest.dropWhile fun c => c ≠ '\n')
  (time.or port).or missing

/-- Whether a masked text may start with the character. -/
def mayStart (c : Char) : Bool := c = '[' || c = '"' || c = '1' || c = 'C'

/-- Masks the rest of a text, given at least as much fuel as it has characters. -/
def maskFrom (shown : String) : Nat → List Char → String
  | 0, cs => shown ++ String.ofList cs
  | _, [] => shown
  | fuel + 1, c :: rest =>
    if mayStart c then
      match masked? (c :: rest) with
      | some (mark, rest) => maskFrom (shown ++ mark) fuel rest
      | none => maskFrom (shown.push c) fuel rest
    else maskFrom (shown.push c) fuel rest

/-- A text as reports show it. -/
def mask (s : String) : String := maskFrom "" s.length s.toList

end Courier.Scenario.Masking
