import SqlAssembly.Calendar.Timestamp
import SqlAssembly.Json.Basic
import SqlAssembly.Text.Case
import SqlAssembly.Text.Utf8
import SqlAssembly.Uuid

/-! # SQL values

The values that a statement binds or inlines, the text each is written as in a literal, and the
texts that are read as keywords: `NULL`, and the functions of the current time.
-/
namespace SqlAssembly

inductive Value where
  | null
  | bool (b : Bool)
  | int (n : Int64)
  | float (x : Decimal.Double)
  | text (s : String)
  | bytes (data : List UInt8)
  | timestamp (t : Calendar.Timestamp)
  | date (d : Calendar.Date)
  | uuid (u : Uuid)
  | json (j : Json)
deriving DecidableEq

namespace Value

/-- Floats are always positional, and whole ones have no point. -/
def floatStyle : Decimal.Style where
  tie := .upward
  keepsPoint := false

/-- The text of a value, neither quoted nor escaped.  Booleans are digits, which every vendor
accepts. -/
def literalText : Value → String
  | .null => "NULL"
  | .bool b => if b then "1" else "0"
  | .int n => toString n.toInt
  | .float x => x.toText floatStyle
  | .text s => s
  | .bytes data => Text.decode data
  | .timestamp t => t.toText " "
  | .date d => d.toText
  | .uuid u => u.toText
  | .json j => j.compress

/-- The null value, and a text that spells it in any letter case. -/
def isNullToken : Value → Bool
  | .null => true
  | .text s => Text.sameLetters s "null"
  | _ => false

def currentTimeCalls : List String := ["current_timestamp()", "date()", "now()"]

/-- A text that calls for the current time, outer blanks and letter case aside. -/
def isCurrentTimeToken : Value → Bool
  | .text s => currentTimeCalls.any fun call => Text.sameLetters (Text.trim s) call
  | _ => false

end Value

end SqlAssembly
