namespace MiniPascal

/-- How much detail a log entry carries. -/
inductive LogLevel where
  | debug
  | trace
deriving DecidableEq

/-- The name of a level. -/
def LogLevel.name : LogLevel → String
  | .debug => "DEBUG"
  | .trace => "TRACE"

/-- An event as a log shows it: a message and named fields. -/
structure LogEntry where
  level : LogLevel
  message : String
  fields : List (String × String)
deriving DecidableEq

end MiniPascal
