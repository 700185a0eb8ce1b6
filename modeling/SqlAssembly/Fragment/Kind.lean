import SqlAssembly.Condition.Operator
import SqlAssembly.Text.Blank
import SqlAssembly.Text.Case
import SqlAssembly.Text.Search
import SqlAssembly.Text.Utf8

/-! # Kinds of clauses

The clauses that a statement may carry after its head, in the order of the grammar, and how the kind
of a clause written by hand is recognised.  Only its leading keyword counts, except that a text that
begins like a join must also say `JOIN` somewhere.
-/
namespace SqlAssembly

inductive ClauseKind where
  | join
  | whereRows
  | groupBy
  | having
  | orderBy
  | limit
  | union
  /-- Not recognised as any clause. -/
  | raw
deriving DecidableEq, Repr

namespace ClauseKind

def grammar : List ClauseKind :=
  [.join, .whereRows, .groupBy, .having, .orderBy, .limit, .union, .raw]

def isRepeatable (k : ClauseKind) : Bool := k = .join ∨ k = .union

end ClauseKind

def FilterKind.clauseKind : FilterKind → ClauseKind
  | .whereRows => .whereRows
  | .havingGroups => .having

/-- Whether a text begins with a keyword, in any letter case, that ends there or before a character
which cannot continue it.  The text is cut where the keyword would end, in bytes. -/
def startsWithKeyword (keyword : String) (text : List Char) : Bool :=
  match Text.splitAtByte? (Text.byteLength keyword.toList) text with
  | some (front, back) =>
    decide (front.map Char.toUpper = keyword.toList) && !back.head?.any Text.isWordChar
  | none => false

/-- The keywords of the clauses that are recognised by their keyword alone. -/
def clauseKeywords : List (String × ClauseKind) :=
  [("WHERE", .whereRows), ("GROUP BY", .groupBy), ("HAVING", .having), ("ORDER BY", .orderBy),
    ("LIMIT", .limit), ("UNION", .union)]

def joinKeywords : List String := ["JOIN", "INNER", "LEFT", "RIGHT", "FULL", "CROSS", "NATURAL"]

/-- The kind of the clause that a text writes. -/
def classify (sql : String) : ClauseKind :=
  let text := Text.trimStartChars sql.toList
  match clauseKeywords.find? fun entry => startsWithKeyword entry.1 text with
  | some entry => entry.2
  | none =>
    if joinKeywords.any (startsWithKeyword · text) ∧
        Text.contains "JOIN".toList (text.map Char.toUpper) then .join
    else .raw

end SqlAssembly
