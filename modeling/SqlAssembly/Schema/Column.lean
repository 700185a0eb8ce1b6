import SqlAssembly.Error
import SqlAssembly.Schema.TypeTable
import SqlAssembly.Text.Search

/-! # Column definitions

The arguments of a column type, sorted into a size or a precision, a literal, and options, and the
text they make up.  Two markers in any of them stand for the vendor's way to number rows.
-/
namespace SqlAssembly.Schema

def autoMarker : String := "__auto__"

def sequenceMarker : String := "__sequence__"

inductive Arg where
  | int (n : Nat)
  | text (s : String)
deriving DecidableEq, Repr

def Arg.toText : Arg → String
  | .int n => Nat.repr n
  | .text s => Text.trim s

/-- The texts of arguments, the blank ones left out. -/
def argTexts (args : List Arg) : List String := (args.map Arg.toText).filter (· ≠ "")

/-- The words that begin an option rather than a literal. -/
def optionKeywords : List String :=
  ["NOT NULL", "DEFAULT", "PRIMARY KEY", "UNIQUE", "CHECK", "REFERENCES"]

/-- Whether a text is an option: `NULL`, a text that begins like one, or one with a marker in it. -/
def isOption (s : String) : Bool :=
  let upper := Text.upper (Text.trim s)
  upper = "NULL" || optionKeywords.any (fun k => k.toList.isPrefixOf upper.toList) ||
    Text.contains autoMarker.toList s.toList || Text.contains sequenceMarker.toList s.toList

/-- A column definition with its arguments in their places. -/
structure Column where
  name : Option String
  category : TypeCategory
  typeName : String
  size : Option Nat := none
  precision : Option (Nat × Nat) := none
  literal : Option String := none
  options : List String := []
deriving DecidableEq, Repr

namespace Column

/-- The precision and scale of a fixed-point type that names neither. -/
def defaultPrecision : Nat × Nat := (10, 2)

/-- The precision and scale in front of arguments, and the arguments after them. -/
def splitPrecision : List Arg → (Nat × Nat) × List Arg
  | .int p :: .int s :: rest => ((p, s), rest)
  | .int p :: rest => ((p, defaultPrecision.2), rest)
  | rest => (defaultPrecision, rest)

def withArgs (c : Column) (args : List Arg) : Column :=
  match c.category with
  | .string | .wholeNumber | .dateTime =>
    match args with
    | .int n :: rest => { c with size := some n, options := argTexts rest }
    | .text s :: rest =>
      if isOption s then { c with options := argTexts args }
      else { c with literal := some (Text.trim s), options := argTexts rest }
    | [] => c
  | .fixedPoint =>
    let (precision, rest) := splitPrecision args
    { c with precision := some precision, options := argTexts rest }
  | .largeObject => { c with options := argTexts args }

def parse (v : Vendor) (name : Option String) (token : String) (args : List Arg) :
    Except Error Column :=
  match lookup v token with
  | none => .error (.unknownDataType (Text.trim token))
  | some (category, typeName) =>
    .ok (withArgs { name := name.map Text.trim, category, typeName } args)

def typeText (c : Column) : String :=
  match c.size, c.precision with
  | some n, _ => c.typeName ++ "(" ++ Nat.repr n ++ ")"
  | none, some (p, s) => c.typeName ++ "(" ++ Nat.repr p ++ "," ++ Nat.repr s ++ ")"
  | none, none => c.typeName

def parts (c : Column) : List String :=
  c.name.toList ++ c.typeText :: (c.literal.toList ++ c.options)

/-- The markers of a text replaced by a vendor's keywords. -/
def substitute (v : Vendor) (text : String) : String :=
  Text.replace sequenceMarker (sequenceKeyword v)
    (Text.replace autoMarker (autoIncrement v) text)

def render (c : Column) (v : Vendor) : String := substitute v (" ".intercalate c.parts)

end Column

end SqlAssembly.Schema
