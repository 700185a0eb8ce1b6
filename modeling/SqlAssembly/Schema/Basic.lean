import SqlAssembly.Event
import SqlAssembly.Schema.Column

/-! # Schema fragments

Column definitions, key constraints and the actions of `ALTER TABLE`, for the vendor of a dialect.
Five type tokens are no types but ask for such an action; every other token is looked up among the
vendor's types, and one that is not found is reported.
-/
namespace SqlAssembly.Schema

/-- The tokens that ask for an action instead of naming a type. -/
inductive Action where
  | constraint
  | index
  | add
  | drop
  | change
deriving DecidableEq, Repr

namespace Action

def all : List Action := [.constraint, .index, .add, .drop, .change]

def token : Action → String
  | .constraint => "CONSTRAINT"
  | .index => "INDEX"
  | .add => "ADD"
  | .drop => "DROP"
  | .change => "CHANGE"

/-- The action that a token asks for, outer blanks and letter case aside. -/
def ofToken? (text : String) : Option Action :=
  all.find? fun a => a.token = Text.upper (Text.trim text)

end Action

/-- The vendor, which a schema fragment needs. -/
def required (vendor : Option Vendor) : Except Error Vendor :=
  match vendor with
  | some v => .ok v
  | none => .error .noVendor

def resolve (v : Vendor) (name : Option String) (token : String) (args : List Arg) :
    Except Error String := do
  return (← Column.parse v name token args).render v

def datatype (vendor : Option Vendor) (token : String) (args : List Arg) : Except Error String := do
  resolve (← required vendor) none token args

def keyList (args : List Arg) : Except Error String :=
  match argTexts args with
  | [] => .error (.emptyArgument .keyColumns)
  | keys => .ok (", ".intercalate keys)

/-- The text in front of arguments, which may not be blank, and the arguments after it. -/
def splitText (what : Argument) : List Arg → Except Error (String × List Arg)
  | .text s :: rest =>
    if Text.trim s = "" then .error (.emptyArgument what) else .ok (Text.trim s, rest)
  | _ => .error (.emptyArgument what)

def changeAction (v : Vendor) (name type : String) : Except Error String :=
  match v with
  | .mySql => .ok ("MODIFY " ++ name ++ " " ++ type)
  | .postgreSql => .ok ("ALTER COLUMN " ++ name ++ " TYPE " ++ type)
  | .sqlServer => .ok ("ALTER COLUMN " ++ name ++ " " ++ type)
  | .sqlite3 => .error (.unsupported v "changing a column definition")

def Action.perform (a : Action) (v : Vendor) (name : String) (args : List Arg) :
    Except Error String :=
  match a with
  | .constraint => do
    let (keyType, keys) ← splitText .keyType args
    let keys ← keyList keys
    return "CONSTRAINT " ++ name ++ " " ++ Text.upper keyType ++ " (" ++ keys ++ ")"
  | .index => do
    let keys ← keyList args
    return "INDEX " ++ name ++ " (" ++ keys ++ ")"
  | .add => do
    let (token, rest) ← splitText .dataType args
    let type ← datatype (some v) token rest
    return "ADD " ++ name ++ " " ++ type
  | .drop => .ok ("DROP COLUMN " ++ name)
  | .change => do
    let (token, rest) ← splitText .dataType args
    let type ← resolve v none token rest
    changeAction v name type

/-- The definition of a column, or the action that its token asks for. -/
def column (vendor : Option Vendor) (name token : String) (args : List Arg) :
    Except Error String := do
  let name := Text.trim name
  if name = "" then .error (.emptyArgument .columnName)
  else
    let v ← required vendor
    match Action.ofToken? token with
    | some a => a.perform v name args
    | none => resolve v (some name) token args

def keyConstraint (vendor : Option Vendor) (keyType name : String) (keys : List String) :
    Except Error String :=
  column vendor name Action.constraint.token (.text keyType :: keys.map .text)

def primaryKey (vendor : Option Vendor) (name : String) (keys : List String) :
    Except Error String := keyConstraint vendor "PRIMARY KEY" name keys

def uniqueKey (vendor : Option Vendor) (name : String) (keys : List String) :
    Except Error String := keyConstraint vendor "UNIQUE" name keys

def foreignKey (vendor : Option Vendor) (name : String) (keys : List String) (table : String)
    (references : List String) : Except Error String := do
  let table := Text.trim table
  if table = "" then .error (.emptyArgument .referencedTable)
  else
    let constraint ← keyConstraint vendor "FOREIGN KEY" name keys
    let references ← keyList (references.map .text)
    return constraint ++ " REFERENCES " ++ table ++ " (" ++ references ++ ")"

def index (vendor : Option Vendor) (name : String) (keys : List String) : Except Error String :=
  column vendor name Action.index.token (keys.map .text)

def addColumn (vendor : Option Vendor) (name token : String) (args : List Arg) :
    Except Error String :=
  column vendor name Action.add.token (.text token :: args)

def dropColumn (vendor : Option Vendor) (name : String) : Except Error String :=
  column vendor name Action.drop.token []

def changeColumn (vendor : Option Vendor) (name token : String) (args : List Arg) :
    Except Error String :=
  column vendor name Action.change.token (.text token :: args)

/-- The report of a schema fragment: a type that is not found is the only thing to report, and only
a vendor can miss one. -/
def reported {α : Type} (vendor : Option Vendor) (result : Except Error α) : Outcome α :=
  match result, vendor with
  | .error (.unknownDataType token), some v => ⟨result, [.unknownType v token]⟩
  | _, _ => ⟨result, []⟩

end SqlAssembly.Schema
