import Courier.Log.Format
import Courier.Value.Inspect
import Courier.Value.Number

/-!
What a console does with a line. The text in front may hold marks, each of which takes the next
argument in its own way; the arguments that are left are displayed. Taking or displaying an argument
may throw. What a line looks like in the end is not told here.
-/

namespace Courier.Log

/-- A mark in the text of a line: a percent sign and a letter. -/
inductive Mark where
  | text
  | number
  | whole
  | fraction
  | document
  /-- A display down to a level. -/
  | display (depth : Nat)
  | nothing

namespace Mark

def ofChar? : Char → Option Mark
  | 's' => some .text
  | 'd' => some .number
  | 'i' => some .whole
  | 'f' => some .fraction
  | 'j' => some .document
  | 'o' => some (.display 4)
  | 'O' => some (.display Value.display.depth)
  | 'c' => some .nothing
  | _ => none

/-- The marks of a text in order. What follows a percent sign belongs to it, mark or not. -/
def all : List Char → List Mark
  | '%' :: c :: rest => (ofChar? c).toList ++ all rest
  | _ :: rest => all rest
  | [] => []

/-- A value as a mark for texts takes it: an object with a text of its own is asked for that, and
any other is displayed without its parts. -/
def takeText : Value → Attempt String
  | v@(.custom ..) | v@(.coded _ (some _) _) | v@(.date _) => v.innerText
  | .string s => .ok s
  | v => Value.displayAt { Value.display with depth := 0 } 0 0 v

/-- A mark takes a value. -/
def take (m : Mark) (v : Value) : Attempt Unit := do
  match m, v with
  | .nothing, _ | .number, .bigint _ | .whole, .bigint _ => return ()
  | .number, .symbol _ | .whole, .symbol _ | .fraction, .symbol _ => return ()
  | .text, v => let _ ← takeText v
  | .number, v => let _ ← v.toNumber
  | .whole, v | .fraction, v => let _ ← v.innerText
  | .document, v => let _ ← v.json?
  | .display depth, v => let _ ← Value.displayAt { Value.display with depth := depth } 0 0 v

end Mark

/-- The marks take what they can, and the rest is displayed. -/
def takeAll : List Mark → List Value → Attempt Unit
  | _, [] => .ok ()
  | [], v :: rest => do
    let _ ← v.inspect
    takeAll [] rest
  | m :: marks, v :: rest => do
    m.take v
    takeAll marks rest

/-- A line is printed. Without a text in front nothing is marked. -/
def Line.print (l : Line) : Attempt Unit :=
  match l.args with
  | .string text :: args => takeAll (Mark.all text.toList) args
  | args => takeAll [] args

namespace Config

/-- A logger with these settings is called at the given time. -/
def say (c : Config) (now : String) (entry : Entry) : Attempt Unit := do
  match ← c.write now entry with
  | some line => line.print
  | none => return ()

/-- What a logger with these settings does with its calls, given the times at which they are made:
a call whose line cannot be had or printed throws. -/
def reaction (c : Config) (clock : Nat → String) : Reaction := fun n entry =>
  match c.say (clock n) entry with
  | .ok () => none
  | .error v => some v

end Config
end Courier.Log
