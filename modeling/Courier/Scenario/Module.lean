import Courier.Client.Network
import Courier.Scenario.Inline
import Courier.Url.Data

/-!
The modules that scenarios load clients from: the module of scripted clients, modules of the system,
scripts that an address holds itself, and names and addresses that lead to no module.
-/

namespace Courier.Scenario

/-- A function that a module exports: the factory of scripted clients, one that comes to the same
thing whatever it is called with, or the factory of the client of one script. Nothing else that a
module exports is ever asked for. -/
inductive Export where
  | factory
  | constant (made : Attempt Value)
  | scripted (script : Script)

/-- The module of scripted clients. -/
def clientsModule : String := "<clients>"

/-- The module of the default client. -/
def libraryModule : String := "<client>"

namespace Module

def notFound : Value := Value.systemError "Error" "ERR_MODULE_NOT_FOUND" "Cannot find module"

def unknownBuiltin (name : String) : Value :=
  Value.systemError "Error" "ERR_UNKNOWN_BUILTIN_MODULE" ("No such built-in module: " ++ name)

def invalidName (name reason : String) : Value :=
  Value.systemError "TypeError" "ERR_INVALID_MODULE_SPECIFIER"
    ("Invalid module \"" ++ name ++ "\" " ++ reason)

def encodedSeparator (path : String) : Value :=
  invalidName path "must not include encoded \"/\" or \"\\\" characters"

def directory (path : String) : Value :=
  Value.systemError "Error" "ERR_UNSUPPORTED_DIR_IMPORT"
    ("Directory import '" ++ path ++ "' is not supported resolving ES modules")

def undefinedImport (name : String) : Value :=
  Value.systemError "TypeError" "ERR_PACKAGE_IMPORT_NOT_DEFINED"
    ("Package import specifier \"" ++ name ++ "\" is not defined")

def foreignHost : Value :=
  Value.systemError "TypeError" "ERR_INVALID_FILE_URL_HOST"
    "File URL host must be \"localhost\" or empty on linux"

/-- The format of a content is told by its type. -/
def unknownFormat (address : String) : Value :=
  let kind := (Url.Data.mediaType? (address.toList.drop 5)).getD "null"
  Value.systemError "RangeError" "ERR_UNKNOWN_MODULE_FORMAT"
    ("Unknown module format: " ++ kind ++ " for URL " ++ address)

def untypedImport (address : String) : Value :=
  Value.systemError "TypeError" "ERR_IMPORT_ATTRIBUTE_MISSING"
    ("Module \"" ++ address ++ "\" needs an import attribute of \"type: json\"")

def unsupportedScheme (schemes protocol : String) : Value :=
  Value.systemError "Error" "ERR_UNSUPPORTED_ESM_URL_SCHEME"
    ("Only URLs with a scheme in: " ++ schemes ++ " are supported by the default ESM loader."
      ++ " Received protocol '" ++ protocol ++ "'")

def unresolvable (name : String) : Value :=
  Value.systemError "TypeError" "ERR_UNSUPPORTED_RESOLVE_REQUEST"
    ("Failed to resolve module specifier \"" ++ name ++ "\"")

/-! Files -/

/-- Whether a path writes a separator as a percent sign with two digits. -/
def hidesSeparator : List Char → Bool
  | '%' :: a :: b :: rest =>
    (a = '2' && b.toLower = 'f') || (a = '5' && b.toLower = 'c') || hidesSeparator (a :: b :: rest)
  | _ :: rest => hidesSeparator rest
  | [] => false

/-- What loading a file fails with; a path that ends with a slash leads to a directory. -/
def file (url : Url) : Value :=
  let path := url.path.text
  if hidesSeparator path.toList then encodedSeparator path
  else if url.host.any (·.text ≠ "") then foreignHost
  else if !Url.isDecodable path then Client.Network.malformedEscape
  else if path.endsWith "/" then directory path
  else notFound

/-- Whether a name is a path from where it stands, or from the top. -/
def isPath (name : String) : Bool :=
  name = "." || name = ".." || name.startsWith "/" || name.startsWith "./" || name.startsWith "../"

/-- The address of a path; one from where it stands is read in some directory. -/
def pathAddress? (path : String) : Option Url :=
  Url.parse? ("file:" ++ (if path.startsWith "/" then path else "/here/" ++ path))

/-! Addresses -/

/-- Whether a type is that of scripts. -/
def isScript (kind : String) : Bool :=
  let blank (c : Char) : Bool := c = ' '
  let kind := ((kind.toList.dropWhile blank).reverse.dropWhile blank).reverse.map Char.toLower
  kind = "text/javascript".toList || kind = "application/javascript".toList

/-- What loading the content of an address fails with, unless it is a script. -/
def content (url : Url) : Option Value :=
  let text := url.text
  let kind := (Url.Data.mediaType? url.path.text.toList).getD ""
  if !Url.Data.isReadable ({ url with fragment := none }.text.toList.drop 5) then some invalidUrl
  else if isScript kind then none
  else if kind = "application/json" then some (untypedImport text)
  else some (unknownFormat text)

/-- The exports of a script in an address. -/
def scriptExports (url : Url) : List (String × Export) :=
  let text := url.path.text.toList.dropWhile (· ≠ ',')
  (Inline.script? (text.drop 1)).toList.map fun script => ("default", .scripted script)

/-- What loading an address fails with, unless it is a script. -/
def address (url : Url) : Option Value :=
  if url.scheme = "file" then some (file url)
  else if url.scheme = "data" then content url
  else
    let schemes := if url.isWeb then "file and data" else "file, data, and node"
    some (unsupportedScheme schemes url.protocol)

/-! Modules of the system -/

/-- The modules of the system whose names need no scheme. -/
def systemModules : List String :=
  ["_http_agent", "_http_client", "_http_common", "_http_incoming", "_http_outgoing",
    "_http_server", "_stream_duplex", "_stream_passthrough", "_stream_readable",
    "_stream_transform", "_stream_wrap", "_stream_writable", "_tls_common", "_tls_wrap", "assert",
    "assert/strict", "async_hooks", "buffer", "child_process", "cluster", "console", "constants",
    "crypto", "dgram", "diagnostics_channel", "dns", "dns/promises", "domain", "events", "fs",
    "fs/promises", "http", "http2", "https", "inspector", "inspector/promises", "module", "net",
    "os", "path", "path/posix", "path/win32", "perf_hooks", "process", "punycode", "querystring",
    "readline", "readline/promises", "repl", "stream", "stream/consumers", "stream/promises",
    "stream/web", "string_decoder", "sys", "timers", "timers/promises", "tls", "trace_events",
    "tty", "url", "util", "util/types", "v8", "vm", "wasi", "worker_threads", "zlib"]

/-- The modules of the system whose names need their scheme. -/
def schemeModules : List String := ["sea", "sqlite", "test", "test/reporters"]

/-- The modules of the system that are functions, and what the function comes to. -/
def systemFunctions : List (String × Attempt Value) :=
  let nothing := ["assert", "assert/strict", "test"]
  let streams := ["_stream_duplex", "_stream_passthrough", "_stream_readable", "_stream_transform",
    "_stream_writable"]
  let emitters := ["events", "stream"]
  nothing.map (·, .ok .undefined) ++ streams.map (·, .ok (.record []))
    ++ emitters.map (·, .error (Value.typeError
      "Cannot read properties of undefined (reading '_events')"))
    ++ [("module", .error (Value.typeError "Cannot set properties of undefined (setting 'id')")),
      ("_stream_wrap", .error (Value.typeError
        "Class constructor JSStreamSocket cannot be invoked without 'new'"))]

/-- The exports of a module of the system. -/
def systemExports (name : String) : List (String × Export) :=
  (systemFunctions.filter (·.1 = name)).map fun (_, made) => ("default", .constant made)

/-- What loading a package fails with. -/
def package (name : String) : Value :=
  let cs := name.toList
  let first := cs.takeWhile (· ≠ '/')
  let isScoped := cs.head? = some '@'
  let whole := if isScoped then
      first ++ (cs.drop first.length).take 1 ++ (cs.drop (first.length + 1)).takeWhile (· ≠ '/')
    else first
  if (isScoped && first = cs) || cs.head? = some '.' || whole.any fun c => c = '%' || c = '\\' then
    invalidName name "is not a valid package name"
  else notFound

/-- What loading an import that a package names for itself fails with. -/
def ownImport (name : String) : Value :=
  if name = "#" || name.startsWith "#/" || name.endsWith "/" then
    invalidName name "is not a valid internal imports specifier name"
  else undefinedImport name

/-- The exports of a module, or the value that loading it fails with. -/
def load (name : String) : Attempt (List (String × Export)) :=
  let fails (v : Value) : Attempt (List (String × Export)) := .error v
  if name = clientsModule then .ok [("default", .factory), ("createScripted", .factory)]
  else if isPath name then fails ((pathAddress? name).elim (unresolvable name) file)
  else
    match Url.parse? name with
    | some url =>
      if url.scheme = "node" then
        let module := (name.drop 5).toString
        if name.startsWith "node:" && (systemModules ++ schemeModules).contains module then
          .ok (systemExports module)
        else fails (unknownBuiltin name)
      else (address url).elim (.ok (scriptExports url)) fails
    | none =>
      if name.startsWith "#" then fails (ownImport name)
      else if systemModules.contains name then .ok (systemExports name)
      else fails (package name)

end Module
end Courier.Scenario
