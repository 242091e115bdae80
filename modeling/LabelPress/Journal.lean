/-!
# The journal

What the program reports while it works. A computation that reports returns its entries as data.
-/

namespace LabelPress.Journal

/-- How much an entry matters. -/
inductive Level
  | debug
  | info
  | warning
  | error
  | critical
deriving DecidableEq, Repr

/-- The number of a level; a greater one matters more. -/
def Level.severity : Level → Nat
  | debug => 10
  | info => 20
  | warning => 30
  | error => 40
  | critical => 50

/-- The name of a level. -/
def Level.name : Level → String
  | debug => "DEBUG"
  | info => "INFO"
  | warning => "WARNING"
  | error => "ERROR"
  | critical => "CRITICAL"

/-- All levels, from the least. -/
def Level.all : List Level := [debug, info, warning, error, critical]

theorem Level.mem_all (l : Level) : l ∈ all := by cases l <;> decide

/-- The parts of the program that report. -/
inductive Channel
  | program
  | commands
  | passes
  | conversion
  | canvas
  | barcode
  | fonts
  | rasterizers
  | exporting
deriving DecidableEq, Repr

/-- One report. -/
structure Entry where
  level : Level
  channel : Channel
  text : String
deriving DecidableEq, Repr

/-- The entries that matter at least as much as a level. -/
def atLeast (level : Level) (entries : List Entry) : List Entry :=
  entries.filter fun e => level.severity ≤ e.level.severity

end LabelPress.Journal
