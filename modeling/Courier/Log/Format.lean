import Courier.Log.Level
import Courier.Value.Json

/-!
Lines of the console loggers. A line has a level from the configured one up; it is written
pretty, with the arguments left to the console, or as one JSON document.
-/

namespace Courier.Log

/-- Where the console sends a line. -/
inductive Stream where
  | log
  | warn
  | error
  deriving DecidableEq, Repr

namespace Stream

def name : Stream → String
  | .log => "log"
  | .warn => "warn"
  | .error => "error"

def ofLevel : Level → Stream
  | .warn => .warn
  | .error => .error
  | _ => .log

end Stream

/-- Settings of a console logger. Each is a value: only the undefined one takes its default. -/
structure Config where
  level : Value
  format : Value
  heading : Value
  timestamp : Value

namespace Config

/-- The settings in a value, undefined ones all being the defaults. -/
def ofValue (v : Value) : Attempt Config := do
  let settings := match v with
    | .undefined => Value.record []
    | v => v
  let level ← settings.read "level"
  let setting (v default : Value) : Value := if v.isUndefined then default else v
  return {
    level := setting level "info"
    format := setting (settings.field "format") "pretty"
    heading := setting (settings.field "prefix") "[HTTP-TRANSPORT]"
    timestamp := setting (settings.field "timestamp") true }

/-- Pretty lines from a level up, with the given heading. -/
def pretty (level : Level) (heading : String) : Config :=
  ⟨.string level.name, "pretty", .string heading, true⟩

/-- The settings that a caller names, with none left out. -/
def named (level : Level) (json : Bool) (heading : String) (timestamp : Bool) : Config :=
  ⟨.string level.name, if json then "json" else "pretty", .string heading, .bool timestamp⟩

/-- Lines from warnings up. -/
def standard : Config := pretty .warn "[HTTP-TRANSPORT]"

/-- A level that is none lets everything through. -/
def admits (c : Config) (level : Level) : Bool :=
  match Level.ofValue? c.level with
  | some least => least.rank ≤ level.rank
  | none => true

def isJson (c : Config) : Bool :=
  match c.format with
  | .string "json" => true
  | _ => false

end Config

/-- A line for the console: its stream and what it is called with. -/
structure Line where
  stream : Stream
  args : List Value

/-- The parts of a pretty line, absent ones empty, parted by blanks. -/
def joinParts (parts : List Value) : Attempt String := do
  return " ".intercalate (← Value.itemTexts parts)

/-- The line of one call at the given time, none if the level is too low. -/
def format (c : Config) (now : String) (level : Level) (message : Value) (args : List Value) :
    Attempt (Option Line) := do
  if !c.admits level then
    return none
  let stream := Stream.ofLevel level
  if c.isJson then
    let stamp := if c.timestamp.truthy then [("timestamp", Value.string now)] else []
    let data := if args.isEmpty then [] else [("data", Value.array args)]
    let document ← Value.json? (.record
      (stamp ++ [("level", .string level.name), ("message", message)] ++ data))
    return some ⟨stream, [(document.map Json.compact).elim .undefined .string]⟩
  else
    let stamp := if c.timestamp.truthy then [Value.string ("[" ++ now ++ "]")] else []
    let text ← joinParts (stamp ++ [c.heading, .string ("[" ++ level.label ++ "]"), message])
    return some ⟨stream, .string text :: args⟩

namespace Config

/-- The line of an entry at the given time. -/
def write (c : Config) (now : String) (entry : Entry) : Attempt (Option Line) :=
  Log.format c now entry.level (.string entry.message) entry.args

end Config

end Courier.Log
