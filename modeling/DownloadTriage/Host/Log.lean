/-!
# Log lines

What the agent says while it runs.
-/

namespace DownloadTriage

/-- How grave a line is. -/
inductive Level where
  | info
  | warn
  | error
  deriving DecidableEq, Repr

/-- The name of a level. -/
def Level.name : Level → String
  | info => "INFO"
  | warn => "WARN"
  | error => "ERROR"

/-- One line of the log. -/
structure LogLine where
  level : Level
  text : String
  deriving DecidableEq, Repr

namespace LogLine

/-- The line as it is shown. -/
def shown (l : LogLine) : String := l.level.name ++ " " ++ l.text

/-- News. -/
def info (text : String) : LogLine := ⟨.info, text⟩

/-- Something went wrong and is made good. -/
def warn (text : String) : LogLine := ⟨.warn, text⟩

/-- Something went wrong. -/
def error (text : String) : LogLine := ⟨.error, text⟩

end LogLine

end DownloadTriage
