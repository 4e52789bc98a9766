import Courier.Url

/-!
Addresses that hold their own content: the type of the content, a comma, and the content as it is or
in base 64.
-/

namespace Courier.Url.Data

/-- The type in front of the parameters and the comma: two names with a slash between them. -/
def mediaType? (cs : List Char) : Option String :=
  match cs.span (· ≠ '/') with
  | (c :: family, slash :: rest) =>
    let (name, rest) := rest.span fun c => c ≠ ';' && c ≠ ','
    if name.isEmpty || !rest.contains ',' then none
    else some (String.ofList (c :: family ++ slash :: name))
  | _ => none

/-- Whether the text in front of the comma says that the content is in base 64. -/
def saysBase64 (kind : List Char) : Bool :=
  let word := "base64".toList.reverse
  let ending := (kind.reverse.dropWhile (isOneOf "\t\n\x0c\r ")).map Char.toLower
  word.isPrefixOf ending && ((ending.drop word.length).dropWhile (· = ' ')).head? = some ';'

/-- Whether bytes are digits of base 64. Blanks between them and the signs that fill up the last
group of four do not count, and one digit cannot stand alone in a group. -/
def isBase64 (content : Bytes) : Bool :=
  let cs := (content.map fun b => Char.ofNat b.toNat).filter fun c => !isOneOf "\t\n\x0c\r " c
  let digits := if cs.length % 4 ≠ 0 then cs else
    match cs.reverse with
    | '=' :: '=' :: rest | '=' :: rest | rest => rest
  digits.length % 4 ≠ 1 && digits.all fun c => c.isAlphanum || isOneOf "+/" c

/-- Whether the content of an address can be read, given the address behind its scheme. -/
def isReadable (text : List Char) : Bool :=
  match text.span (· ≠ ',') with
  | (kind, _ :: content) => !saysBase64 kind || isBase64 (decodeBytes content)
  | (_, []) => false

end Courier.Url.Data
