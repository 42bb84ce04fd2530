/-!
# Log records

* `Log.Level` : how grave a record is; a filter lets a level through (`Log.isEnabled`);
* `Log.Route` : records whose target lies under a given one are printed;
* `Log.routes` : with diagnostics turned on, those under `tsh::verbose`;
* `Log.written` : what a record prints.
-/

set_option autoImplicit false

namespace JobControl.Log

inductive Level where
  | error
  | warn
  | info
  | debug
  | trace
  deriving DecidableEq, Repr

/-- The higher the rank, the less grave; rank 0 stands for no record at all. -/
def Level.rank : Level → Nat
  | .error => 1
  | .warn => 2
  | .info => 3
  | .debug => 4
  | .trace => 5

/-- A filter lets pass the levels up to its own; `none` lets nothing pass. -/
def isEnabled (filter : Option Level) (level : Level) : Bool :=
  level.rank ≤ (filter.map Level.rank).getD 0

/-- The target of the diagnostics that `-v` turns on. -/
def diagnostics : String := "tsh::verbose"

/-- Prints the records whose target is `target` or lies below it. -/
structure Route where
  target : String
  deriving DecidableEq, Repr

/-- `a::b` lies below `a`, but `ab` does not. -/
def Route.covers (r : Route) (target : String) : Bool :=
  target == r.target || (r.target ++ "::").toList.isPrefixOf target.toList

/-- The routes of a shell. -/
def routes (verbose : Bool) : List Route := if verbose then [⟨diagnostics⟩] else []

/-- What a record prints: its message as a line, once for each route that covers its target. -/
def written (routes : List Route) (target message : String) : String :=
  String.join ((routes.filter (·.covers target)).map fun _ => message ++ "\n")

end JobControl.Log
