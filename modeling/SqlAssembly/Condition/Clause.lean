import SqlAssembly.Condition.Flatten
import SqlAssembly.Condition.Test

/-! # Condition clauses

The body of a `WHERE` or `HAVING` clause is a sequence of tokens: the tests of the leaves in order,
the parentheses around them, and between each two leaves the combinator of the former.  The
combinator of the last leaf joins nothing and is not written.
-/
namespace SqlAssembly

inductive ClauseToken where
  | opening
  | closing
  | joiner (combinator : Combinator)
  | test (test : Test)
deriving DecidableEq

def ClauseToken.template : ClauseToken → Template
  | .opening => [.word "("]
  | .closing => [.word ")"]
  | .joiner combinator => [.word (" " ++ combinator.token ++ " ")]
  | .test t => t.template

def Leaf.tokens (l : Leaf) (test : Test) : List ClauseToken :=
  List.replicate l.opens .opening ++ .test test :: List.replicate l.closes .closing

/-- The tokens of leaves, the first leaf that cannot be tested refused. -/
def bodyTokens : List Leaf → Except Error (List ClauseToken)
  | [] => .ok []
  | [l] => do return l.tokens (← l.condition.test)
  | l :: ls => do
    let test ← l.condition.test
    let rest ← bodyTokens ls
    return l.tokens test ++ .joiner l.condition.combinator :: rest

def forestTokens (forest : List Tree) : Except Error (List ClauseToken) :=
  if forest.isEmpty then .error (.emptyArgument .conditions)
  else do bodyTokens (← forestLeaves forest)

/-- A clause body between its keyword and a closing blank, its values left open. -/
def FilterKind.template (filter : FilterKind) (body : List ClauseToken) : Template :=
  .word (" " ++ filter.keyword ++ " ") :: (body.flatMap ClauseToken.template ++ [.word " "])

def FilterKind.ofForest (filter : FilterKind) (forest : List Tree) : Except Error Template := do
  return filter.template (← forestTokens forest)

end SqlAssembly
