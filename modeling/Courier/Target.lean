import Courier.Fault
import Courier.Url

/-!
The address of a handle: an absolute address of the web, in its normal form.
-/

namespace Courier

/-- The cause of a text that is no address. -/
def invalidUrl : Value := Value.systemError "TypeError" "ERR_INVALID_URL" "Invalid URL"

/-- The normal form of an address that requests can be sent to. -/
def target (uri : String) : Except Fault String :=
  match Url.parse? uri with
  | none => .error (Fault.invalidUri uri invalidUrl)
  | some url =>
    if url.isWeb then .ok url.text
    else
      .error (Fault.invalidUri uri (Value.plainError ("Unsupported protocol " ++ url.protocol)))

end Courier
