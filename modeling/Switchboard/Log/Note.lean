/-!
# Notes for the service log
-/
namespace Switchboard

inductive Level where
  | trace
  | debug
  | info
  | warn
  | error
  deriving Repr, DecidableEq

namespace Level

def word : Level → String
  | .trace => "TRACE"
  | .debug => "DEBUG"
  | .info => "INFO"
  | .warn => "WARN"
  | .error => "ERROR"

/-- How little it takes for a note of this level to be written. -/
def rank : Level → Nat
  | .error => 1
  | .warn => 2
  | .info => 3
  | .debug => 4
  | .trace => 5

end Level

/-- The parts of the service that write notes. -/
inductive Origin where
  | compiler
  | evaluator
  | bus
  | term
  | engine
  | service
  | ruleLog
  | host
  | logging
  deriving Repr, DecidableEq

/-- The name under which a log filter knows a part. -/
def Origin.target : Origin → String
  | .compiler => "switchlogic_expr::compiler"
  | .evaluator => "switchlogic_expr::evaluator"
  | .bus => "switchlogic_bus::memory_impl"
  | .term => "switchlogic_rules::term"
  | .engine => "switchlogic_rules::engine"
  | .ruleLog => "switchlogic_rules::logger"
  | .service => "logicsrv"
  | .host => "logicsrv::host"
  | .logging => "logicsrv::logging"

structure Note where
  level : Level
  origin : Origin
  text : String
  deriving Repr, DecidableEq

end Switchboard
