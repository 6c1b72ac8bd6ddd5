/-! # Log lines -/

namespace DiskKeys

/-- How much a log line matters. -/
inductive LogLevel where
  | error
  | warn
  | info
  /-- For those who look for a mistake. -/
  | debug
  deriving DecidableEq, Repr

/-- Whether lines are shown to an operator who has not asked for more. -/
def LogLevel.isShown : LogLevel → Bool
  | debug => false
  | _ => true

/-- A line that tells the operator what happened. -/
structure LogLine where
  level : LogLevel
  text : String
  deriving DecidableEq, Repr

/-- A line about what went as it should. -/
def LogLine.info (text : String) : LogLine := ⟨.info, text⟩

/-- A line about what went wrong without stopping anything. -/
def LogLine.warn (text : String) : LogLine := ⟨.warn, text⟩

/-- A remark on what happens on the way. -/
def LogLine.debug (text : String) : LogLine := ⟨.debug, text⟩

end DiskKeys
