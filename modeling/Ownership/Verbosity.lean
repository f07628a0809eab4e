set_option autoImplicit false

/-!
# Verbosity

How much a run tells about itself: each repetition of the option adds a level, and being quiet
leaves only errors.
-/
namespace Ownership

inductive Verbosity where
  | error
  | warn
  | info
  | debug
  | trace
deriving DecidableEq, Repr

namespace Verbosity

def name : Verbosity → String
  | .error => "error"
  | .warn => "warn"
  | .info => "info"
  | .debug => "debug"
  | .trace => "trace"

def ofCount (count : Nat) (quiet : Bool) : Verbosity :=
  if quiet then .error
  else
    match count with
    | 0 => .warn
    | 1 => .info
    | 2 => .debug
    | _ => .trace

end Verbosity

end Ownership
