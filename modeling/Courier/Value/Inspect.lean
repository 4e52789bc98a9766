import Courier.Json
import Courier.Text.Calendar
import Courier.Text.Width
import Courier.Value.Clone

/-!
The display of a value on a console: lists and records with their parts, quoted texts inside of
them, two levels deep. A list or record stands on one line if it fits, else each part has a line
of its own, and the parts of a long list share lines in columns.
-/

namespace Courier.Value

/-- How far a display goes. -/
structure Display where
  /-- The deepest level whose parts are shown. -/
  depth : Nat
  /-- The width of a line. -/
  width : Nat
  /-- How many items of a list are shown. -/
  items : Nat
  /-- Lists of more items than this are laid out in columns. -/
  plainItems : Nat
  /-- The most columns there are. -/
  columns : Nat
  /-- How many units of a text are shown. -/
  units : Nat
  /-- Texts of more units than this may be broken at their line ends. -/
  plainUnits : Nat
  /-- How many bytes are shown of bytes that read as text. -/
  bytes : Nat

def display : Display := ⟨2, 80, 100, 6, 12, 10000, 16, 50⟩

/-! Texts -/

def isName (s : String) : Bool :=
  match s.toList with
  | [] => false
  | c :: cs => (c.isAlpha || c = '_') && cs.all fun c => c.isAlphanum || c = '_'

def escaped (quote : Char) (c : Char) : String :=
  if c = quote then "\\" ++ c.toString
  else if c = '\\' then "\\\\"
  else if c = '\n' then "\\n"
  else if c = '\t' then "\\t"
  else if c = '\r' then "\\r"
  else if c = '\x08' then "\\b"
  else if c = '\x0c' then "\\f"
  else if c.toNat < 0x20 ∨ (0x7f ≤ c.toNat ∧ c.toNat < 0xa0) then
    "\\x" ++ String.ofList [(Nat.digitChar (c.toNat / 16)).toUpper,
      (Nat.digitChar (c.toNat % 16)).toUpper]
  else c.toString

/-- Whether one of two characters stands directly behind the other. -/
def holdsPair (a b : Char) : List Char → Bool
  | c :: d :: rest => (c = a && d = b) || holdsPair a b (d :: rest)
  | _ => false

/-- A quoted text: in single quotes, or in others if it holds some. -/
def quoted (s : String) : String :=
  let cs := s.toList
  let backtick := Char.ofNat 0x60
  let quote :=
    if !cs.contains '\'' then '\''
    else if !cs.contains '"' then '"'
    else if !cs.contains backtick && !holdsPair '$' '\x7b' cs then backtick
    else '\''
  quote.toString ++ String.join (cs.map (escaped quote)) ++ quote.toString

/-- The remark on what is left out, none if nothing is. -/
def leftOut (count : Nat) (what : String) : Option String :=
  if count = 0 then none
  else some ("... " ++ toString count ++ " more " ++ what ++ if count = 1 then "" else "s")

/-- A text broken behind its line ends. -/
def pieces (s : String) : List String :=
  let (done, piece) := s.toList.foldl (fun (done, piece) c =>
    if c = '\n' then (done ++ [String.ofList (piece ++ [c])], []) else (done, piece ++ [c]))
    (([] : List String), ([] : List Char))
  if piece.isEmpty ∧ !done.isEmpty then done else done ++ [String.ofList piece]

/-- A text inside of a value. A long one is quoted line by line. -/
def displayText (d : Display) (indent : Nat) (s : String) : String :=
  let ⟨shown, _, rest⟩ := Text.cut d.units s
  let n := Text.length shown
  let parts := if d.plainUnits < n ∧ d.width < n + indent + 4 then pieces shown else [shown]
  let glue := " +\n" ++ String.ofList (List.replicate (indent + 2) ' ')
  glue.intercalate (parts.map quoted) ++ (leftOut rest "character").getD ""

/-! Lists -/

/-- Whether the parts of a list take at least so many columns: as many as make the list two and a
half times as high as wide, the widest part being counted narrower where the others are. -/
def takesColumns (widest entries total n c : Nat) : Bool :=
  let column := widest + 2
  let side := (2 * c - 1) * (2 * c - 1)
  let narrowed : Int := (column - 3) * side - 10 * n
  side ≤ 10 * n
    && (narrowed ≤ 0 || narrowed * narrowed * entries ≤ (column * entries - total) * (side * side))

/-- The number of columns for parts of the given widths, 1 for none. The last of the entries may be
a remark that has no column. -/
def columnCount (d : Display) (indent entries : Nat) (widths : List Nat) : Nat :=
  let n := widths.length
  let total := widths.foldl (fun sum w => sum + (w + 2)) 0
  let widest := widths.foldl max 0
  let column := widest + 2
  if column * 3 + indent < d.width && (5 * column < total || widest ≤ 6) then
    let most := min d.columns ((d.width - indent) / column)
    (List.range most).foldl (fun best i =>
      if takesColumns widest entries total n (i + 1) then i + 1 else best) 1
  else 1

def pad (width : Nat) (atStart : Bool) (s : String) (columns : Nat) : String :=
  let blanks := String.ofList (List.replicate (width - columns) ' ')
  if atStart then blanks ++ s else s ++ blanks

/-- One line of parts, each with its width and the width of its column. -/
def columnLine (numeric : Bool) : List (String × Nat × Nat) → String
  | [] => ""
  | [(s, columns, width)] => if numeric then pad (width - 2) true s columns else s
  | (s, columns, width) :: rest =>
    pad width numeric (s ++ ", ") (columns + 2) ++ columnLine numeric rest

/-- The lines of parts in columns. -/
def columnLines (numeric : Bool) (count : Nat) (widths : List Nat) :
    Nat → List (String × Nat) → List String
  | 0, _ => []
  | fuel + 1, parts =>
    if parts.isEmpty then []
    else
      columnLine numeric ((parts.take count).zip widths |>.map fun ((s, w), width) => (s, w, width))
        :: columnLines numeric count widths fuel (parts.drop count)

/-- The parts of a long list, grouped into lines of columns if they are short. -/
def grouped (d : Display) (indent : Nat) (numeric : Bool) (parts : List String)
    (remark : Option String) : List String :=
  let measured := parts.map fun s => (s, Text.columns s)
  let widths := measured.map (·.2)
  let entries := parts.length + remark.toList.length
  let count := columnCount d indent entries widths
  if entries ≤ d.plainItems ∨ count ≤ 1 then parts ++ remark.toList
  else
    let columnWidths := (List.range count).map fun i =>
      (widths.zipIdx.foldl (fun w (x, j) => if j % count = i then max w x else w) 0) + 2
    columnLines numeric count columnWidths parts.length measured ++ remark.toList

/-- Puts parts between brackets: on one line if they fit and are allowed to. -/
def enclose (d : Display) (indent : Nat) (start stop : String) (oneLine : Bool)
    (parts : List String) : String :=
  let n := parts.length
  let size := 2 * n + indent + Text.length start + 10 +
    parts.foldl (fun sum s => sum + Text.length s) 0
  let line := ", ".intercalate parts
  if oneLine && size ≤ d.width && !line.toList.contains '\n' then
    start ++ " " ++ line ++ " " ++ stop
  else
    let margin := "\n" ++ String.ofList (List.replicate indent ' ')
    start ++ margin ++ "  " ++ ("," ++ margin ++ "  ").intercalate parts ++ margin ++ stop

/-- The display of a list, given the items that are shown and how many there are. -/
def encloseList (d : Display) (indent : Nat) (start : String) (numeric : Bool)
    (shown : List String) (count : Nat) : String :=
  if shown.isEmpty then start ++ "]"
  else
    let remark := leftOut (count - d.items) "item"
    let lines := grouped d indent numeric shown remark
    enclose d indent start "]" (lines.length = shown.length + remark.toList.length) lines

/-- Bytes in pairs of digits. -/
def digitPairs (content : Bytes) : String :=
  " ".intercalate (content.map fun b => String.ofList (Text.hexByte b))

def spaced (remark : Option String) : String := remark.elim "" (" " ++ ·)

/-! Errors -/

/-- The line that the display of an error starts with. An error of one class that was given the
name of another shows both. -/
def heading (name : ErrorName) (message : String) : String :=
  let rest := (errorText name.text message).drop name.text.length
  match name.given, name.heading with
  | some given, none =>
    if given.endsWith "Error" && given ≠ name.family then
      name.family ++ " [" ++ given ++ "]" ++ rest.toString
    else errorText given message
  | _, some line => line
  | none, none => errorText name.family message

/-- The first line that an error shows, and the mark of the lines that follow it. -/
def traced (line : String) : String := line ++ "\n    at"

/-- A message as a display shows it, which tells nothing of one that has no text. -/
def messageShown : Value → String
  | .undefined => ""
  | v => v.innerText.toOption.getD ""

def numberShown (x : Binary64) : String :=
  match x with
  | .finite true 0 _ => "-0"
  | x => x.toText

def isNumeric : Value → Bool
  | .number _ | .bigint _ => true
  | _ => false

def fieldName (name : String) : String :=
  if name = "__proto__" then "['__proto__']" else if isName name then name else quoted name

mutual
/-- The display of a value at a level, with the given indentation. -/
def displayAt (d : Display) (indent level : Nat) : Value → Attempt String
  | .undefined => .ok "undefined"
  | .null => .ok "null"
  | .bool b => .ok (if b then "true" else "false")
  | .number x => .ok (numberShown x)
  | .string s => .ok (displayText d indent s)
  | .bigint n => .ok (toString n ++ "n")
  | .symbol s => .ok ("Symbol(" ++ s ++ ")")
  | .function => .ok "[Function (anonymous)]"
  | .array items => do
    if d.depth < level ∧ !items.isEmpty then return "[Array]"
    return encloseList d indent "[" ((items.take (d.items + 1)).all isNumeric)
      (← displayItems d (indent + 2) (level + 1) d.items items) items.length
  | .record fields => do
    if fields.isEmpty then return "\x7b\x7d"
    if d.depth < level then return "[Object]"
    return enclose d indent "\x7b" "\x7d" true (← displayFields d (indent + 2) (level + 1) fields)
  | .bare fields => do
    if fields.isEmpty then return "[Object: null prototype] \x7b\x7d"
    if d.depth < level then return "[Object: null prototype]"
    return enclose d indent "[Object: null prototype] \x7b" "\x7d" true
      (← displayFields d (indent + 2) (level + 1) fields)
  | .bytes content => .ok (
    if d.depth < level ∧ !content.isEmpty then "[Uint8Array]"
    else encloseList d indent ("Uint8Array(" ++ toString content.length ++ ") [") true
      ((content.take d.items).map fun b => toString b.toNat) content.length)
  | .buffer content => .ok (
    "<Buffer " ++ digitPairs (content.take d.bytes)
      ++ spaced (leftOut (content.length - d.bytes) "byte") ++ ">")
  | .words content => .ok (
    if d.depth < level ∧ !content.isEmpty then "[Uint16Array]"
    else encloseList d indent ("Uint16Array(" ++ toString content.length ++ ") [") true
      ((content.take d.items).map toString) content.length)
  | .block content => .ok (
    if d.depth < level then "[ArrayBuffer]"
    else
      let bytes := digitPairs (content.take d.items)
        ++ spaced (leftOut (content.length - d.items) "byte")
      enclose d indent "ArrayBuffer \x7b" "\x7d" true
        ["[Uint8Contents]: <" ++ bytes ++ ">", "[byteLength]: " ++ toString content.length])
  | .date ms => .ok ((Text.isoText? ms.toInt?).getD "Invalid Date")
  | .map entries => do
    let start := "Map(" ++ toString entries.length ++ ") \x7b"
    if entries.isEmpty then return start ++ "\x7d"
    if d.depth < level then return "[Map]"
    return enclose d indent start "\x7d" true
      ((← displayEntries d (indent + 2) (level + 1) d.items entries)
        ++ (leftOut (entries.length - d.items) "item").toList)
  | .port => .ok (
    if d.depth < level then "[MessagePort [EventTarget]]"
    else "MessagePort [EventTarget] \x7b\n  active: true")
  | .object family => .ok (family ++ " \x7b\x7d")
  -- Of an error only the lines in front of its causes are kept, but the causes are displayed too.
  | .error name message cause => do
    if d.depth < level ∧ !cause.isUndefined then return "[" ++ name.family ++ "]"
    let _ ← displayAt d (indent + 2) (level + 1) cause
    return traced (heading name (messageShown message))
  | .coded name none message =>
    .ok (traced (errorText ("DOMException [" ++ name ++ "]") (messageShown message)))
  | .coded name code message => .ok (
    if d.depth < level then "[" ++ name ++ "]"
    else traced (errorText (codedName name code) (messageShown message)))
  | .fault kind message status cause => do
    if d.depth < level then return "[HttpTransportError]"
    let _ ← displayAt d (indent + 2) (level + 1) kind
    let _ ← displayAt d (indent + 2) (level + 1) status
    let _ ← displayAt d (indent + 2) (level + 1) cause
    return traced (errorText "HttpTransportError" (messageShown message))
  | .custom _ _ shown => shown

/-- The display of so many items of a list. -/
def displayItems (d : Display) (indent level : Nat) : Nat → List Value → Attempt (List String)
  | count + 1, v :: rest => do
    return (← displayAt d indent level v) :: (← displayItems d indent level count rest)
  | _, _ => .ok []

def displayFields (d : Display) (indent level : Nat) :
    List (String × Value) → Attempt (List String)
  | [] => .ok []
  | (name, v) :: rest => do
    return (fieldName name ++ ": " ++ (← displayAt d indent level v))
      :: (← displayFields d indent level rest)

def displayEntries (d : Display) (indent level : Nat) :
    Nat → List (Value × Value) → Attempt (List String)
  | count + 1, (k, v) :: rest => do
    return ((← displayAt d indent level k) ++ " => " ++ (← displayAt d indent level v))
      :: (← displayEntries d indent level count rest)
  | _, _ => .ok []
end

/-- A value as an argument of a console line: a text stands bare. -/
def inspect : Value → Attempt String
  | .string s => .ok s
  | v => displayAt display 0 0 v

end Courier.Value
