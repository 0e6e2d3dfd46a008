/-!
# Log lines

Every stage of a run reports what it does as lines of a log.  A line has a level and a message; a
reader of the log chooses the least level it wants to see.
-/

namespace Facade

namespace Log

/-- The levels, from the least to the most important. -/
inductive Level where
  | debug
  | info
  | warning
  | error
deriving DecidableEq, Repr, Inhabited

namespace Level

/-- The rank of a level. -/
def rank : Level → Nat
  | debug => 0
  | info => 1
  | warning => 2
  | error => 3

/-- The label in front of a message. -/
def label : Level → String
  | debug => "DEBUG"
  | info => "INFO"
  | warning => "WARNING"
  | error => "ERROR"

end Level

/-- One line of a log. -/
structure Line where
  level : Level
  message : String
deriving DecidableEq, Repr, Inhabited

/-- The line as it is shown. -/
def Line.text (l : Line) : String :=
  l.level.label ++ ": " ++ l.message

/-- The lines of at least the given level. -/
def atLeast (level : Level) (lines : List Line) : List Line :=
  lines.filter fun l => level.rank ≤ l.level.rank

/-- A line of level debug. -/
def debug (message : String) : Line := ⟨.debug, message⟩

/-- A line of level info. -/
def info (message : String) : Line := ⟨.info, message⟩

/-- A line of level warning. -/
def warning (message : String) : Line := ⟨.warning, message⟩

/-- A line of level error. -/
def error (message : String) : Line := ⟨.error, message⟩

end Log

end Facade
