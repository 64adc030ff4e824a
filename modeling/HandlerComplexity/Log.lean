/-!
# Log entries
-/

namespace HandlerComplexity

namespace Log

inductive Level
  | debug
  | info
  | warning
deriving DecidableEq, Repr

def Level.name : Level → String
  | debug => "DEBUG"
  | info => "INFO"
  | warning => "WARNING"

/-- The rank against which a threshold is set. -/
def Level.rank : Level → Nat
  | debug => 10
  | info => 20
  | warning => 30

/-- The part of the program that speaks. -/
inductive Source
  | scoring
  | building
  | engine
deriving DecidableEq, Repr

def Source.name : Source → String
  | scoring => "hccscan.analysis.hcc"
  | building => "hccscan.parsing.units"
  | engine => "hccscan.core.engine"

structure Entry where
  level : Level
  source : Source
  message : String
deriving DecidableEq, Repr

end Log

/-- Entries in the order in which they were written. -/
abbrev Log := List Log.Entry

end HandlerComplexity
