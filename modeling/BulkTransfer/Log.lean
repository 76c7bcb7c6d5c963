/-!
# Log lines

What a component reports about its work: a level and a text.
-/

namespace BulkTransfer

/-- Importance of a log line. -/
inductive Level where
  | trace
  | debug
  deriving DecidableEq

/-- Word that stands for a level in a log. -/
def Level.word : Level → String
  | .trace => "TRACE"
  | .debug => "DEBUG"

/-- One line of a log. -/
structure LogLine where
  /-- Importance of the line. -/
  level : Level
  /-- What the line says. -/
  text : String
  deriving DecidableEq

/-- A log line as it is written, level first. -/
def LogLine.render (line : LogLine) : String :=
  line.level.word ++ " " ++ line.text

end BulkTransfer
