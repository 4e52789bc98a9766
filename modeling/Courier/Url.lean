import Courier.Url.Host

/-!
Absolute addresses: reading a text into the parts of an address and writing the parts back.
Reading forgives what browsers forgive (blanks around, back slashes, dots in the path, missing
slashes) and writing gives the one normal form.
-/

namespace Courier

inductive Url.Path where
  | opaquePath (text : String)
  | segments (parts : List String)
  deriving Repr

structure Url where
  scheme : String
  username : String
  password : String
  host : Option Url.Host
  port : Option Nat
  path : Url.Path
  query : Option String
  fragment : Option String
  deriving Repr

namespace Url

/-- The special schemes and their default ports. -/
def specialSchemes : List (String × Option Nat) :=
  [("http", some 80), ("https", some 443), ("ws", some 80), ("wss", some 443), ("ftp", some 21),
    ("file", none)]

def isSpecial (scheme : String) : Bool := specialSchemes.any (·.1 = scheme)

def defaultPort? (scheme : String) : Option Nat :=
  ((specialSchemes.find? (·.1 = scheme)).map (·.2)).join

/-! Reading -/

/-- Drops controls and blanks at both ends and every tab and line end. -/
def tidy (cs : List Char) : List Char :=
  let blank (c : Char) : Bool := c.toNat ≤ 0x20
  (((cs.dropWhile blank).reverse.dropWhile blank).reverse).filter
    fun c => c ≠ '\t' && c ≠ '\n' && c ≠ '\r'

/-- The scheme in front of the first colon, and what follows. -/
def splitScheme? (cs : List Char) : Option (String × List Char) :=
  let inScheme (c : Char) : Bool := c.isAlphanum || isOneOf "+-." c
  match cs.span inScheme with
  | (c :: name, ':' :: rest) =>
    if c.isAlpha then some (String.ofList ((c :: name).map Char.toLower), rest) else none
  | _ => none

/-- Splits before the first character that ends the part. -/
def splitBefore (ends : Char → Bool) (cs : List Char) : List Char × List Char :=
  cs.span fun c => !ends c

/-- Splits a query and a fragment off the end. -/
def splitEnd (special : Bool) (cs : List Char) :
    List Char × Option String × Option String :=
  let (rest, fragment) := match splitBefore (· = '#') cs with
    | (rest, _ :: f) => (rest, some (String.ofList (encode inFragment f)))
    | (rest, []) => (rest, none)
  match splitBefore (· = '?') rest with
  | (path, _ :: q) =>
    (path, some (String.ofList (encode (if special then inSpecialQuery else inQuery) q)), fragment)
  | (path, []) => (path, none, fragment)

/-- The part before the last `@` and the part after it. -/
def splitLastAt (cs : List Char) : Option (List Char × List Char) :=
  match cs.reverse.span (· ≠ '@') with
  | (after, _ :: before) => some (before.reverse, after.reverse)
  | (_, []) => none

/-- Splits at the first colon outside of brackets. -/
def splitPort (inside : Bool) : List Char → List Char × Option (List Char)
  | [] => ([], none)
  | c :: rest =>
    if c = ':' ∧ !inside then ([], some rest)
    else
      let inside := if c = '[' then true else if c = ']' then false else inside
      let (host, port) := splitPort inside rest
      (c :: host, port)

/-- User name, password, host and port. -/
structure Authority where
  username : String
  password : String
  host : Host
  port : Option Nat

def port? (scheme : String) : Option (List Char) → Option (Option Nat)
  | none | some [] => some none
  | some ds => do
    if !ds.all Char.isDigit then none
    let n ← numeral? 10 ds
    if 65535 < n then none
    return if defaultPort? scheme = some n then none else some n

def authority? (scheme : String) (cs : List Char) : Option Authority := do
  let special := isSpecial scheme
  let (user, address) := match splitLastAt cs with
    | some (user, address) => (some user, address)
    | none => (none, cs)
  if user.isSome && address.isEmpty then none
  let (name, port) := splitPort false address
  if name.isEmpty && (special || port.isSome) then none
  let host ← Host.ofText? special name
  let port ← port? scheme port
  let (username, password) := splitBefore (· = ':') (user.getD [])
  return ⟨String.ofList (encode inUserInfo username),
    String.ofList (encode inUserInfo (password.drop 1)), host, port⟩

def isSingleDot (s : List Char) : Bool :=
  let s := s.map Char.toLower
  s = ".".toList || s = "%2e".toList

def isDoubleDot (s : List Char) : Bool :=
  let s := s.map Char.toLower
  s = "..".toList || s = ".%2e".toList || s = "%2e.".toList || s = "%2e%2e".toList

def isDriveLetter : List Char → Bool
  | [a, b] => a.isAlpha && (b = ':' || b = '|')
  | _ => false

/-- A letter and a colon in front, which the files of a drive have. -/
def namesDrive : List Char → Bool
  | a :: ':' :: _ => a.isAlpha
  | _ => false

/-- The path without its last segment, if there is one to take away; a drive stays. -/
def shorten? (file : Bool) (path : List (List Char)) : Option (List (List Char)) :=
  match path with
  | [] => none
  | [drive] => if file && namesDrive drive then none else some []
  | path => some path.dropLast

/--
Resolves the dots of a path, segment by segment. Dots at the end leave an empty last segment, but
two dots that take nothing away leave none where the path may be empty.
-/
def resolve (scheme : String) (path : List (List Char)) : List (List Char) → List (List Char)
  | [] => path
  | segment :: rest =>
    let file := scheme = "file"
    let last := rest.isEmpty
    if isDoubleDot segment then
      let shorter := shorten? file path
      let path := shorter.getD path
      let path := if last && (shorter.isSome || isSpecial scheme) then path ++ [[]] else path
      resolve scheme path rest
    else if isSingleDot segment then resolve scheme (if last then path ++ [[]] else path) rest
    else
      let segment :=
        if file && path.isEmpty && isDriveLetter segment then segment.take 1 ++ [':'] else segment
      resolve scheme (path ++ [encode inPath segment]) rest

/-- A dot and something else than a second dot: the name of a hidden file. -/
def isHiddenName : List Char → Bool
  | '.' :: c :: _ => c ≠ '.'
  | _ => false

/--
Whether a path is taken for one that has no dots to resolve. Only its first segment behind a slash
that starts with a dot is looked at: where that is a hidden name, all that follows stays as it is
written.
-/
def isSettled (file : Bool) (path : List Char) : Bool :=
  match splitAll '/' path with
  | [] => false
  | first :: rest =>
    path.all (fun c => !inPath c && !isOneOf "%\\" c) && first.head? ≠ some '.' &&
      !(file && isDriveLetter first) && (rest.find? (·.head? = some '.')).any isHiddenName

def isSlash (special : Bool) (c : Char) : Bool := c = '/' || (special && c = '\\')

/-- The segments of a path; a first slash opens the first segment. -/
def segments (scheme : String) (cs : List Char) : Path :=
  let special := isSpecial scheme
  if cs.isEmpty && !special then .segments []
  else
    let path := match cs with
      | c :: rest => if isSlash special c then rest else cs
      | [] => []
    let plain := path.map fun c => if isSlash special c then '/' else c
    let parts := splitAll '/' plain
    .segments <| (if isSettled (scheme = "file") path then parts else resolve scheme [] parts).map
      String.ofList

/-- An address with a host. -/
def withAuthority? (scheme : String) (cs : List Char) : Option Url := do
  let special := isSpecial scheme
  let (front, rest) := splitBefore (fun c => isSlash special c || c = '?' || c = '#') cs
  let a ← authority? scheme front
  let (path, query, fragment) := splitEnd special rest
  return ⟨scheme, a.username, a.password, some a.host, a.port, segments scheme path, query,
    fragment⟩

/-- An address of a file; a drive letter in the place of the host belongs to the path. -/
def file? (cs : List Char) : Option Url := do
  let slash := isSlash true
  let (host, rest) ← match cs with
    | a :: b :: rest =>
      if slash a && slash b then
        let (name, tail) := splitBefore (fun c => slash c || c = '?' || c = '#') rest
        if isDriveLetter name then some (Host.empty, rest)
        else if name.isEmpty then some (Host.empty, tail)
        else do
          let host ← Host.ofText? true name
          some (if host.text = "localhost" then .empty else host, tail)
      else some (Host.empty, cs)
    | _ => some (Host.empty, cs)
  let (path, query, fragment) := splitEnd true rest
  return ⟨"file", "", "", some host, none, segments "file" path, query, fragment⟩

/-- Reads an absolute address. -/
def parse? (s : String) : Option Url := do
  let (scheme, rest) ← splitScheme? (tidy s.toList)
  if scheme = "file" then file? rest
  else if isSpecial scheme then withAuthority? scheme (rest.dropWhile (isSlash true))
  else
    match rest with
    | '/' :: '/' :: rest => withAuthority? scheme rest
    | '/' :: _ =>
      let (path, query, fragment) := splitEnd false rest
      return ⟨scheme, "", "", none, none, segments scheme path, query, fragment⟩
    | _ =>
      let (path, query, fragment) := splitEnd false rest
      return ⟨scheme, "", "", none, none, .opaquePath (String.ofList (encode isControl path)),
        query, fragment⟩

/-! Writing -/

def Path.text : Path → String
  | .opaquePath text => text
  | .segments parts => String.join (parts.map ("/" ++ ·))

/-- The scheme with its colon. -/
def protocol (u : Url) : String := u.scheme ++ ":"

def authorityText (u : Url) (host : Host) : String :=
  let password := if u.password.isEmpty then "" else ":" ++ u.password
  let user :=
    if u.username.isEmpty ∧ u.password.isEmpty then "" else u.username ++ password ++ "@"
  "//" ++ user ++ host.text ++ u.port.elim "" fun p => ":" ++ toString p

/-- The normal form of an address. -/
def text (u : Url) : String :=
  let start := match u.host with
    | some host => u.authorityText host
    | none => if u.path.text.startsWith "//" then "/." else ""
  u.protocol ++ start ++ u.path.text ++ u.query.elim "" ("?" ++ ·) ++ u.fragment.elim "" ("#" ++ ·)

/-- Whether the scheme is one that requests can be sent by. -/
def isWeb (u : Url) : Bool := u.scheme = "http" || u.scheme = "https"

end Url
end Courier
