import NovelScript.Number.Decimal

/-!
# Log records

What the parts of the program report: a level, the name of the reporting logger, and a message.
Levels are ordered by weight.
-/

set_option autoImplicit false

namespace NovelScript

namespace Log

inductive Level where
  | debug | info | warning | error | critical
  deriving DecidableEq, Repr

namespace Level

def name : Level → String
  | debug => "DEBUG"
  | info => "INFO"
  | warning => "WARNING"
  | error => "ERROR"
  | critical => "CRITICAL"

/-- The weight that levels are compared by. -/
def weight : Level → Nat
  | debug => 10
  | info => 20
  | warning => 30
  | error => 40
  | critical => 50

end Level

structure Record where
  level : Level
  logger : String
  message : String
  deriving DecidableEq, Repr

/-- The name of the program's own logger; its parts report below it. -/
def rootName : String := "renpy_transcoder"

/-- The logger of a part of the program. -/
def loggerOf (part : String) : String :=
  rootName ++ "." ++ part

end Log

/-- A count in a message. -/
def countText (n : Nat) : String :=
  String.ofList (DecimalStyle.natText n)

end NovelScript
