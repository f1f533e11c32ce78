import DisplayTopology.Text.Blank
import DisplayTopology.Text.Numeral

/-!
# Log levels

Messages have one of five levels, the most urgent first. A threshold is given as a number or as the
name of a level in any ASCII letter case, blanks around it aside.
-/

namespace DisplayTopology

/-- How urgent a message is. -/
inductive LogLevel where
  | critical
  | error
  | debug
  | info
  | profiling
  deriving DecidableEq

namespace LogLevel

/-- Every level, the most urgent first. -/
def all : List LogLevel := [critical, error, debug, info, profiling]

/-- The name of a level. -/
def name : LogLevel → String
  | critical => "critical"
  | error => "error"
  | debug => "debug"
  | info => "info"
  | profiling => "profiling"

/-- The number of a level; more urgent levels have smaller numbers. -/
def number : LogLevel → Nat
  | critical => 0
  | error => 1
  | debug => 2
  | info => 3
  | profiling => 4

/-- A text with its ASCII capitals in lower case. -/
def lowerCase (cs : List Char) : List Char := cs.map Char.toLower

/-- The level of this name, in any ASCII letter case. -/
def ofName? (name : List Char) : Option LogLevel :=
  all.find? fun level => lowerCase level.name.toList == lowerCase name

/-- The threshold that a text gives: a number of 32 bits, or the number of a level. -/
def threshold? (text : String) : Option Nat :=
  let given := Text.trim text.toList
  Text.numeral? Text.wordLimit32 given <|> (ofName? given).map number

theorem mem_all (level : LogLevel) : level ∈ all := by cases level <;> decide

/-- The name of a level gives its number. -/
theorem threshold?_name (level : LogLevel) : threshold? level.name = some level.number := by
  cases level <;> decide

end LogLevel

end DisplayTopology
