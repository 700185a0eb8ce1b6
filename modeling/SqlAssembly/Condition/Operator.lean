import SqlAssembly.Text.Blank

/-! # Operators and joiners of conditions

The comparison operators, the words that join one condition to the next, and the two clauses that
conditions stand in.
-/
namespace SqlAssembly

inductive CompareOp where
  | eq
  /-- `<>` -/
  | lessGreater
  /-- `!=` -/
  | bangEq
  | lt
  | le
  | gt
  | ge
deriving DecidableEq, Repr

namespace CompareOp

def all : List CompareOp := [.eq, .lessGreater, .bangEq, .lt, .le, .gt, .ge]

def token : CompareOp → String
  | .eq => "="
  | .lessGreater => "<>"
  | .bangEq => "!="
  | .lt => "<"
  | .le => "<="
  | .gt => ">"
  | .ge => ">="

/-- The comparison that a token writes, outer blanks aside. -/
def ofToken? (text : String) : Option CompareOp := all.find? fun op => op.token = Text.trim text

/-- The two spellings of inequality. -/
def isNegative (op : CompareOp) : Bool := op = .lessGreater ∨ op = .bangEq

theorem ofToken?_token (op : CompareOp) : ofToken? op.token = some op := by cases op <;> decide

end CompareOp

inductive Combinator where
  | and
  | or
  | not
  | andNot
deriving DecidableEq, Repr

def Combinator.token : Combinator → String
  | .and => "AND"
  | .or => "OR"
  | .not => "NOT"
  | .andNot => "AND NOT"

/-- A clause made of conditions: one filters rows, the other groups. -/
inductive FilterKind where
  | whereRows
  | havingGroups
deriving DecidableEq, Repr

def FilterKind.keyword : FilterKind → String
  | .whereRows => "WHERE"
  | .havingGroups => "HAVING"

end SqlAssembly
