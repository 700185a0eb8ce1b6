import SqlAssembly.Fragment.Basic

/-! # Join clauses

A join of two tables on a comparison of one column of each.  The joined table is always given an
alias, by default its own name, and the right column is by default named like the left one.
-/
namespace SqlAssembly

inductive JoinKind where
  | inner
  | left
  | right
  | full
deriving DecidableEq, Repr

namespace JoinKind

def all : List JoinKind := [.inner, .left, .right, .full]

def keyword : JoinKind → String
  | .inner => "INNER"
  | .left => "LEFT"
  | .right => "RIGHT"
  | .full => "FULL"

/-- The kind that a text names, outer blanks and letter case aside. -/
def parse (text : String) : Except Error JoinKind :=
  let name := Text.upper (Text.trim text)
  match all.find? fun k => k.keyword = name with
  | some k => .ok k
  | none => .error (.unsupportedJoin (.kind name))

end JoinKind

structure Join where
  kind : JoinKind
  left : String
  right : String
  leftColumn : String
  rightColumn : Option String := none
  shortName : Option String := none
  comparison : String := "="

/-- An optional text, trimmed, or a default when it is absent or blank. -/
def trimmedOr (default : String) (text : Option String) : String :=
  match text with
  | some t => if Text.trim t = "" then default else Text.trim t
  | none => default

def Join.build (j : Join) : Except Error Fragment :=
  let left := Text.trim j.left
  let right := Text.trim j.right
  let leftColumn := Text.trim j.leftColumn
  if left = "" ∨ right = "" then .error (.emptyArgument .joinTable)
  else if leftColumn = "" then .error (.emptyArgument .joinColumn)
  else match CompareOp.ofToken? j.comparison with
    | none => .error (.unsupportedJoin (.comparison (Text.trim j.comparison)))
    | some op =>
      let name := trimmedOr right j.shortName
      let rightColumn := trimmedOr leftColumn j.rightColumn
      let condition :=
        left ++ "." ++ leftColumn ++ " " ++ op.token ++ " " ++ name ++ "." ++ rightColumn
      .ok ⟨.join,
        " " ++ j.kind.keyword ++ " JOIN " ++ right ++ " AS " ++ name ++ " ON " ++ condition ++ " "⟩

end SqlAssembly
