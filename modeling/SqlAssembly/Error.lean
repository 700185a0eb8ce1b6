import SqlAssembly.Condition.Operator
import SqlAssembly.Vendor

/-! # What can go wrong

Every failure as its cause, with the wording in one place.  A failure is soft when the input was
refused; an unknown column type, a broken configuration and a failed query are not.
-/
namespace SqlAssembly

inductive Argument where
  | conditions
  | table
  | column
  | values
  | columnList
  | joinTable
  | joinColumn
  | columnDefinitions
  | alterActions
  | columnName
  | keyType
  | dataType
  | keyColumns
  | referencedTable
deriving DecidableEq, Repr

def Argument.description : Argument → String
  | .conditions => "conditions"
  | .table => "table"
  | .column => "column"
  | .values => "values"
  | .columnList => "column list"
  | .joinTable => "join table"
  | .joinColumn => "join column"
  | .columnDefinitions => "column definitions"
  | .alterActions => "alter actions"
  | .columnName => "column name"
  | .keyType => "constraint key type"
  | .dataType => "data type"
  | .keyColumns => "key columns"
  | .referencedTable => "referenced table"

inductive Malformation where
  | missingColumn
  | missingOperator (column : String)
  | emptyGroup
  | oneValue (column operator : String) (got : Nat)
  | twoBounds (column operator : String) (got : Nat)
  | onlyNull (column operator : String)
  | nullComparison (column : String) (op : CompareOp)
  | nullPattern (column : String)
deriving DecidableEq, Repr

def Malformation.description : Malformation → String
  | .missingColumn => "condition without a column"
  | .missingOperator column => s!"condition on '{column}' without an operator"
  | .emptyGroup => "empty condition group"
  | .oneValue column operator got => s!"'{column} {operator}' expects exactly one value, got {got}"
  | .twoBounds column operator got => s!"'{column} {operator}' expects two bounds, got {got}"
  | .onlyNull column operator => s!"'{column} {operator}' only accepts NULL"
  | .nullComparison column op => s!"'{column} {op.token}' cannot compare against NULL"
  | .nullPattern column => s!"'{column}' cannot match a pattern against NULL"

inductive Misfit where
  | notCombinable (text : String) (filter : FilterKind)
  | unexpected (text : String)
  | duplicate (text : String)
  | besideWhere
deriving DecidableEq, Repr

def Misfit.description : Misfit → String
  | .notCombinable text filter => s!"'{text}' cannot be combined into a {filter.keyword} clause"
  | .unexpected text => s!"unexpected clause '{text}'"
  | .duplicate text => s!"duplicate clause '{text}'"
  | .besideWhere => "conditions supplied alongside a pre-built WHERE clause"

inductive JoinFault where
  | kind (text : String)
  | comparison (text : String)
deriving DecidableEq, Repr

def JoinFault.description : JoinFault → String
  | .kind text => s!"join kind '{text}'"
  | .comparison text => s!"join condition '{text}'"

inductive ConfigFault where
  | unknownVendor (name : String)
  | unreadable
  | zeroLogLength
  | unopened (path reason : String)
deriving DecidableEq, Repr

def ConfigFault.description : ConfigFault → String
  | .unknownVendor name => s!"unknown vendor '{name}'"
  | .unreadable => "failed to parse composer config"
  | .zeroLogLength => "max_sql_log_length must be greater than zero"
  | .unopened path reason => s!"failed to read config file {path}: {reason}"

inductive QueryFault where
  | mismatch (placeholders parameters : Nat)
  | refused (reason : String)
deriving DecidableEq, Repr

def QueryFault.description : QueryFault → String
  | .mismatch placeholders parameters =>
    s!"statement has {placeholders} placeholders but {parameters} parameters"
  | .refused reason => reason

inductive Error where
  | emptyArgument (what : Argument)
  | malformedCondition (cause : Malformation)
  | unsupportedOperator (operator : String)
  | missingWildcard (pattern : String)
  | unsupportedJoin (cause : JoinFault)
  | havingWithoutGroupBy
  | columnMismatch (inserted selected : Nat)
  | invalidFragment (cause : Misfit)
  | noVendor
  | unsupported (vendor : Vendor) (feature : String)
  | unknownDataType (token : String)
  | config (cause : ConfigFault)
  | query (cause : QueryFault)
deriving DecidableEq, Repr

namespace Error

def message : Error → String
  | .emptyArgument what => "Empty argument: " ++ what.description
  | .malformedCondition cause => "Malformed condition: " ++ cause.description
  | .unsupportedOperator operator => "Unsupported operator: " ++ operator
  | .missingWildcard pattern => "LIKE pattern without wildcard: " ++ pattern
  | .unsupportedJoin cause => "Unsupported join: " ++ cause.description
  | .havingWithoutGroupBy => "HAVING clause requires a GROUP BY clause"
  | .columnMismatch inserted selected =>
    s!"INSERT names {inserted} columns but SELECT yields {selected}"
  | .invalidFragment cause => "Invalid fragment: " ++ cause.description
  | .noVendor => "No active database vendor"
  | .unsupported vendor feature => s!"Unsupported by {vendor.name}: {feature}"
  | .unknownDataType token => "Data type not found: " ++ token
  | .config cause => "Configuration error: " ++ cause.description
  | .query cause => "Query error: " ++ cause.description

/-- The one failure that points at a broken schema definition. -/
def isUnknownDataType : Error → Bool
  | .unknownDataType _ => true
  | _ => false

/-- A refusal of the input, as opposed to a broken schema, configuration or query. -/
def isSoft : Error → Bool
  | .unknownDataType _ | .config _ | .query _ => false
  | _ => true

theorem isUnknownDataType_of_isSoft {e : Error} (h : e.isSoft = true) :
    e.isUnknownDataType = false := by
  cases e <;> simp_all [isSoft, isUnknownDataType]

end Error

/-! ## Results opened -/

instance decidableEqResult {α : Type} [DecidableEq α] : DecidableEq (Except Error α)
  | .ok a, .ok b => decidable_of_iff (a = b) (by simp)
  | .error e, .error e' => decidable_of_iff (e = e') (by simp)
  | .ok _, .error _ => isFalse (by simp)
  | .error _, .ok _ => isFalse (by simp)

section
variable {α β : Type}

@[simp] theorem ok_bind (a : α) (f : α → Except Error β) : (Except.ok a >>= f) = f a := rfl

@[simp] theorem error_bind (e : Error) (f : α → Except Error β) :
    (Except.error e >>= f) = .error e := rfl

theorem map_eq_bind (f : α → β) (x : Except Error α) : x.map f = x >>= fun a => .ok (f a) := by
  cases x <;> rfl

theorem bind_eq_ok {x : Except Error α} {f : α → Except Error β} {b : β} :
    (x >>= f) = .ok b ↔ ∃ a, x = .ok a ∧ f a = .ok b := by
  cases x <;> simp

@[simp] theorem map_ok (f : α → β) (a : α) : (Except.ok a : Except Error α).map f = .ok (f a) := rfl

@[simp] theorem map_error (f : α → β) (e : Error) :
    (Except.error e : Except Error α).map f = .error e := rfl

@[simp] theorem pure_eq_ok (a : α) : (pure a : Except Error α) = .ok a := rfl

end

def Vendor.parse (text : String) : Except Error Vendor :=
  match Vendor.ofName? text with
  | some v => .ok v
  | none => .error (.config (.unknownVendor (Text.lower (Text.trim text))))

end SqlAssembly
