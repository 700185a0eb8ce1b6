import SqlAssembly.Vendor

/-! # Column types of the vendors

The keywords that each vendor understands as column types, by category.  Every category has keywords
that all vendors share, and a keyword is found in any letter case.
-/
namespace SqlAssembly.Schema

/-- A category of types; it decides how arguments are laid out. -/
inductive TypeCategory where
  | string
  | fixedPoint
  | wholeNumber
  | dateTime
  | largeObject
deriving DecidableEq, Repr

/-- The categories in the order they are searched. -/
def TypeCategory.all : List TypeCategory :=
  [.string, .fixedPoint, .wholeNumber, .dateTime, .largeObject]

def sharedKeywords : TypeCategory → List String
  | .string => ["CHAR", "VARCHAR", "TEXT"]
  | .fixedPoint => ["NUMERIC", "DECIMAL"]
  | .wholeNumber => ["INT", "INTEGER", "SMALLINT", "BIGINT"]
  | .dateTime => ["DATE", "TIME", "TIMESTAMP"]
  | .largeObject => []

def vendorKeywords : Vendor → TypeCategory → List String
  | .mySql, .string =>
    ["TINYTEXT", "MEDIUMTEXT", "LONGTEXT", "ENUM", "SET", "BINARY", "VARBINARY"]
  | .mySql, .fixedPoint => ["FIXED", "DEC"]
  | .mySql, .wholeNumber =>
    ["TINYINT", "MEDIUMINT", "FLOAT", "DOUBLE", "REAL", "BIT", "BOOL", "BOOLEAN"]
  | .mySql, .dateTime => ["DATETIME", "YEAR"]
  | .mySql, .largeObject => ["TINYBLOB", "BLOB", "MEDIUMBLOB", "LONGBLOB", "JSON"]
  | .postgreSql, .string => ["CHARACTER", "BPCHAR", "CITEXT"]
  | .postgreSql, .fixedPoint => ["MONEY"]
  | .postgreSql, .wholeNumber =>
    ["SERIAL", "BIGSERIAL", "SMALLSERIAL", "REAL", "FLOAT", "BOOL", "BOOLEAN"]
  | .postgreSql, .dateTime => ["TIMESTAMPTZ", "TIMETZ", "INTERVAL"]
  | .postgreSql, .largeObject => ["BYTEA", "JSON", "JSONB", "UUID", "XML", "INET", "CIDR"]
  | .sqlite3, .string => ["CLOB", "NCHAR", "NVARCHAR"]
  | .sqlite3, .fixedPoint => []
  | .sqlite3, .wholeNumber => ["TINYINT", "MEDIUMINT", "REAL", "DOUBLE", "FLOAT", "BOOLEAN"]
  | .sqlite3, .dateTime => ["DATETIME"]
  | .sqlite3, .largeObject => ["BLOB"]
  | .sqlServer, .string => ["NCHAR", "NVARCHAR", "NTEXT"]
  | .sqlServer, .fixedPoint => ["DEC", "MONEY", "SMALLMONEY"]
  | .sqlServer, .wholeNumber => ["TINYINT", "BIT", "FLOAT", "REAL"]
  | .sqlServer, .dateTime => ["DATETIME", "DATETIME2", "SMALLDATETIME", "DATETIMEOFFSET"]
  | .sqlServer, .largeObject => ["IMAGE", "XML", "BINARY", "VARBINARY", "UNIQUEIDENTIFIER"]

/-- The category and the canonical keyword of a type, outer blanks and letter case aside. -/
def lookup (v : Vendor) (token : String) : Option (TypeCategory × String) :=
  TypeCategory.all.findSome? fun category =>
    ((sharedKeywords category ++ vendorKeywords v category).find? fun keyword =>
      Text.sameLetters keyword (Text.trim token)).map fun keyword => (category, keyword)

def autoIncrement : Vendor → String
  | .mySql => "AUTO_INCREMENT"
  | .postgreSql => "GENERATED BY DEFAULT AS IDENTITY"
  | .sqlite3 => "AUTOINCREMENT"
  | .sqlServer => "IDENTITY(1,1)"

def sequenceKeyword : Vendor → String
  | .mySql => "AUTO_INCREMENT"
  | .postgreSql => "SERIAL"
  | .sqlite3 => "AUTOINCREMENT"
  | .sqlServer => "IDENTITY(1,1)"

end SqlAssembly.Schema
