import Scribe.Failure
import Scribe.Value.Host

/-!
# Accepting host data
-/

namespace Scribe.Host

/-- The value of host data. Data of an unknown type is a failure that names the type. -/
def accept (x : Host) : Except Failure Value :=
  match Value.ofHost x with
  | .ok v => .ok v
  | .error typeName =>
      .error (Fault.invalidValueType.failure.withAttrs [(utf8 "type", .text typeName)])

end Scribe.Host
