import SqlAssembly.Text.Blank
import SqlAssembly.Text.Case

/-! # Database vendors and dialects

What depends on the database: the names a vendor goes by, the shape of its positional placeholders,
and how a text is written between single quotes.  A dialect is the vendor that is active, if any,
together with an escape function, which need not be the vendor's own.
-/
namespace SqlAssembly

inductive Vendor where
  | mySql
  | postgreSql
  | sqlite3
  | sqlServer
deriving DecidableEq, Repr

/-- How a vendor's driver writes positional parameters. -/
inductive PlaceholderStyle where
  /-- `?` for every parameter. -/
  | question
  /-- `$1`, `$2`, and so on. -/
  | numbered
deriving DecidableEq, Repr

namespace PlaceholderStyle

def placeholder (style : PlaceholderStyle) (k : Nat) : List Char :=
  match style with
  | .question => ['?']
  | .numbered => '$' :: Nat.toDigits 10 k

end PlaceholderStyle

namespace Vendor

def all : List Vendor := [.mySql, .postgreSql, .sqlite3, .sqlServer]

def name : Vendor → String
  | .mySql => "mysql"
  | .postgreSql => "postgresql"
  | .sqlite3 => "sqlite3"
  | .sqlServer => "sqlserver"

def aliases : Vendor → List String
  | .mySql => ["mysql", "mysqli", "mariadb"]
  | .postgreSql => ["pgsql", "postgres", "postgresql"]
  | .sqlite3 => ["sqlite", "sqlite3"]
  | .sqlServer => ["sqlsrv", "mssql", "sqlserver"]

/-- The vendor of a name, outer blanks and letter case aside. -/
def ofName? (text : String) : Option Vendor :=
  all.find? fun v => Text.lower (Text.trim text) ∈ v.aliases

def index (v : Vendor) : Nat := all.idxOf v

def placeholders : Vendor → PlaceholderStyle
  | .postgreSql => .numbered
  | _ => .question

/-- What a character becomes between single quotes: a quote is doubled, a NUL vanishes, and where a
backslash escapes it is doubled too. -/
def escapeChar (v : Vendor) (c : Char) : List Char :=
  if c = '\'' then ['\'', '\'']
  else if c = '\\' ∧ v = .mySql then ['\\', '\\']
  else if c = '\x00' then []
  else [c]

def escape (v : Vendor) (raw : String) : String :=
  String.ofList (raw.toList.flatMap v.escapeChar)

@[simp] theorem toList_escape (v : Vendor) (raw : String) :
    (v.escape raw).toList = raw.toList.flatMap v.escapeChar := String.toList_ofList

end Vendor

def doubleQuote (c : Char) : List Char := if c = '\'' then ['\'', '\''] else [c]

def doubleQuotes (raw : String) : String := String.ofList (raw.toList.flatMap doubleQuote)

@[simp] theorem toList_doubleQuotes (raw : String) :
    (doubleQuotes raw).toList = raw.toList.flatMap doubleQuote := String.toList_ofList

/-- The active vendor and the escape function for quoted texts. -/
structure Dialect where
  vendor : Option Vendor
  escape : String → String

namespace Dialect

/-- The dialect of a vendor, or of none: without a vendor only quotes are doubled. -/
def standard (vendor : Option Vendor) : Dialect where
  vendor := vendor
  escape := match vendor with
    | some v => v.escape
    | none => doubleQuotes

@[simp] theorem vendor_standard (vendor : Option Vendor) : (standard vendor).vendor = vendor := rfl

end Dialect

end SqlAssembly
