/-!
# Log events

Operations report what they do as events, in order. Nothing reads them back.
-/

namespace JobHierarchy

inductive LogLevel where
  | debug
  | info
  | warn
  | error
  deriving DecidableEq, Repr

def LogLevel.name : LogLevel → String
  | .debug => "DEBUG"
  | .info => "INFO"
  | .warn => "WARN"
  | .error => "ERROR"

structure LogEvent where
  level : LogLevel
  text : String
  deriving DecidableEq, Repr

def LogEvent.line (e : LogEvent) : String := e.level.name ++ " " ++ e.text

end JobHierarchy
