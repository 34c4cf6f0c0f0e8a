import ActionDocs.Text.Basic

/-!
# The log of a run

- `Record`: one message, with its level and the part of the program it comes from.
- `Record.line`: the message as it is printed.
- `threshold?`: the levels that can be asked for by name, each as the least rank it lets through.
-/

namespace ActionDocs

namespace Log

/-- How important a message is. -/
inductive Level where
  | debug
  | info
  deriving DecidableEq, Repr

/-- Messages with a higher rank are more important. -/
def Level.rank : Level → Nat
  | .debug => 10
  | .info => 20

/-- The name of a level. -/
def Level.label : Level → Text
  | .debug => "DEBUG"
  | .info => "INFO"

/-- The part of the program that logs a message. -/
inductive Origin where
  /-- Reading doc comments. -/
  | reading
  /-- Writing the pages of a run. -/
  | site
  deriving DecidableEq, Repr

/-- The name of an origin in the log. -/
def Origin.label : Origin → Text
  | .reading => "orchdocs.extractors"
  | .site => "orchdocs.walker"

/-- One logged message. -/
structure Record where
  level : Level
  origin : Origin
  message : Text
  deriving DecidableEq, Repr

/-- A record as a printed line, its line end included. -/
def Record.line (r : Record) : Text :=
  r.level.label ++ " " ++ r.origin.label ++ ": " ++ r.message ++ "\n"

/-- The named thresholds. A threshold lets through the messages of its rank and above. -/
def thresholds : List (Text × Nat) :=
  [("CRITICAL", 50), ("FATAL", 50), ("ERROR", 40), ("WARN", 30), ("WARNING", 30), ("INFO", 20),
    ("DEBUG", 10), ("NOTSET", 0)]

/-- The rank that a named threshold stands for, if there is such a threshold. -/
def threshold? (name : Text) : Option Nat :=
  thresholds.lookup name

end Log

/-- The messages of a run, oldest first. -/
abbrev Log := List Log.Record

/-- The printed lines of the messages that reach a threshold. -/
def Log.printed (threshold : Nat) (log : Log) : Text :=
  (log.filter fun r => threshold ≤ r.level.rank).flatMap Log.Record.line

end ActionDocs
