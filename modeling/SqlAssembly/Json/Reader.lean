import SqlAssembly.Decimal.Numeral
import SqlAssembly.Json.Basic

/-! # Reading JSON

A text is cut into tokens one character at a time, and the tokens are put together on a stack of the
containers that are still open.  Both passes are structural, so reading is total without a bound on
the length; the nesting of containers is bounded by `maxDepth`.
-/
namespace SqlAssembly.Json

/-! ## Numbers -/

/-- The significand grown by digits while it fits in 64 bits, and the digits that are left. -/
def absorb (significand : Nat) : List Char → Nat × List Char
  | [] => (significand, [])
  | c :: cs =>
    let next := significand * 10 + (c.toNat - '0'.toNat)
    if next < 2 ^ 64 then absorb next cs else (significand, c :: cs)

def powerOfTen (n : Nat) : Decimal.Double := Decimal.Double.ofRatio false (10 ^ n) 1

/-- A double divided by `10 ^ n`, in steps of powers that are themselves finite doubles. -/
def divideByPower (x : Decimal.Double) (n : Nat) : Decimal.Double :=
  if n ≤ 308 then x.div (powerOfTen n)
  else if x.magnitude = 0 then x
  else divideByPower (x.div (powerOfTen 308)) (n - 308)
termination_by n

/-- The double of a significand and an exponent: the nearest double of the significand, multiplied
or divided by a power of ten.  A value beyond the largest double is refused. -/
def scaled? (significand : Nat) (exponent : Int) : Option Decimal.Double :=
  let x := Decimal.Double.ofRatio false significand 1
  if exponent < 0 then some (divideByPower x (-exponent).toNat)
  else if significand = 0 then some x
  else if 308 < exponent then none
  else
    let y := x.mul (powerOfTen exponent.toNat)
    if y.isInfinite then none else some y

def withSign (negative : Bool) (x : Decimal.Double) : Json :=
  .number (if negative then x.neg else x)

/-- An integer literal: whole within the signed and unsigned 64-bit ranges, and a double beyond them
and for minus zero. -/
def integerValue (negative : Bool) (n : Nat) : Json :=
  if negative then
    if n = 0 ∨ 2 ^ 63 < n then withSign true (Decimal.Double.ofRatio false n 1) else .integer (-n)
  else .integer n

/-- The number that a literal writes.  No digit may be missing beside the point, and a leading zero
stands alone. -/
def numberOf? (literal : List Char) : Option Json := do
  let (negative, body) := match literal with
    | '-' :: rest => (true, rest)
    | rest => (false, rest)
  let n ← Decimal.Numeral.ofChars? body
  if n.whole = [] ∨ n.fraction = some [] then none
  else if n.whole.head? = some '0' ∧ n.whole ≠ ['0'] then none
  else
    let (significand, left) := absorb 0 n.whole
    match n.fraction, n.exponent, left with
    | none, none, [] => some (integerValue negative significand)
    | fraction, exponent, left =>
      let digits := fraction.getD []
      let (significand, unread) := absorb significand digits
      let scale := (left.length : Int) - (digits.length - unread.length : Nat) + exponent.getD 0
      (scaled? significand scale).map (withSign negative)

/-! ## Tokens -/

/-- A token: punctuation, or a value that is no container. -/
inductive Token where
  | openArray
  | closeArray
  | openObject
  | closeObject
  | comma
  | colon
  | scalar (value : Json)

/-- Where the cutting into tokens stands.  Characters read are held last first. -/
inductive Cutting where
  | between
  | word (read : List Char)
  | literal (read : List Char)
  | text (read : List Char)
  | escape (read : List Char)
  /-- Inside `\uXXXX`, after a first surrogate if there is one. -/
  | code (read : List Char) (high : Option Nat) (digits : List Char)
  /-- After a first surrogate, before the backslash of the second. -/
  | secondSlash (read : List Char) (high : Nat)
  /-- After that backslash. -/
  | secondMark (read : List Char) (high : Nat)

def isLiteralChar (c : Char) : Bool :=
  c.isDigit || c == '+' || c == '-' || c == '.' || c == 'e' || c == 'E'

def wordValue? (word : List Char) : Option Json :=
  if word = ['n', 'u', 'l', 'l'] then some .null
  else if word = ['t', 'r', 'u', 'e'] then some (.bool true)
  else if word = ['f', 'a', 'l', 's', 'e'] then some (.bool false)
  else none

/-- The character that a letter after a backslash stands for. -/
def escaped? (c : Char) : Option Char :=
  match c with
  | '"' => some '"'
  | '\\' => some '\\'
  | '/' => some '/'
  | 'b' => some '\x08'
  | 'f' => some '\x0c'
  | 'n' => some '\n'
  | 'r' => some '\r'
  | 't' => some '\t'
  | _ => none

def Cutting.start (c : Char) : Option (List Token × Cutting) :=
  match c with
  | ' ' | '\t' | '\n' | '\r' => some ([], .between)
  | '[' => some ([.openArray], .between)
  | ']' => some ([.closeArray], .between)
  | '\x7b' => some ([.openObject], .between)
  | '\x7d' => some ([.closeObject], .between)
  | ',' => some ([.comma], .between)
  | ':' => some ([.colon], .between)
  | '"' => some ([], .text [])
  | c =>
    if c.isDigit || c == '-' then some ([], .literal [c])
    else if c.isLower then some ([], .word [c])
    else none

def Cutting.flush : Cutting → Option (List Token)
  | .between => some []
  | .word read => (wordValue? read.reverse).map fun v => [.scalar v]
  | .literal read => (numberOf? read.reverse).map fun v => [.scalar v]
  | _ => none

/-- The state after the four digits of a code unit. -/
def Cutting.unit (read : List Char) (high : Option Nat) (unit : Nat) : Option Cutting :=
  match high with
  | none =>
    if 0xD800 ≤ unit ∧ unit < 0xDC00 then some (.secondSlash read unit)
    else if 0xDC00 ≤ unit ∧ unit < 0xE000 then none
    else some (.text (Char.ofNat unit :: read))
  | some h =>
    if 0xDC00 ≤ unit ∧ unit < 0xE000 then
      some (.text (Char.ofNat (0x10000 + (h - 0xD800) * 0x400 + (unit - 0xDC00)) :: read))
    else none

def Cutting.step (state : Cutting) (c : Char) : Option (List Token × Cutting) :=
  match state with
  | .between => start c
  | .word read =>
    if c.isLower then some ([], .word (c :: read))
    else do
      let done ← state.flush
      let (more, next) ← start c
      return (done ++ more, next)
  | .literal read =>
    if isLiteralChar c then some ([], .literal (c :: read))
    else do
      let done ← state.flush
      let (more, next) ← start c
      return (done ++ more, next)
  | .text read =>
    if c = '"' then some ([.scalar (.text (String.ofList read.reverse))], .between)
    else if c = '\\' then some ([], .escape read)
    else if c.toNat < 32 then none
    else some ([], .text (c :: read))
  | .escape read =>
    if c = 'u' then some ([], .code read none [])
    else (escaped? c).map fun d => ([], .text (d :: read))
  | .code read high digits =>
    if digits.length < 3 then some ([], .code read high (c :: digits))
    else do
      let unit ← Text.hexNumber? (c :: digits).reverse
      let next ← Cutting.unit read high unit
      return ([], next)
  | .secondSlash read high => if c = '\\' then some ([], .secondMark read high) else none
  | .secondMark read high => if c = 'u' then some ([], .code read (some high) []) else none

def Cutting.tokens? (state : Cutting) : List Char → Option (List Token)
  | [] => state.flush
  | c :: cs => do
    let (done, next) ← state.step c
    return done ++ (← next.tokens? cs)

/-! ## Values -/

/-- The deepest nesting of containers that is read. -/
def maxDepth : Nat := 127

/-- A container that is still open: its parts so far, last first, and an object's key under way. -/
inductive Frame where
  | array (done : List Json)
  | object (done : List (String × Json)) (key : String)

inductive Await where
  | value
  | firstItem
  | key (mayClose : Bool)
  | colon
  /-- A value is complete. -/
  | after (value : Json)

/-- The open containers, innermost first, and what may come next. -/
structure Assembly where
  stack : List Frame := []
  await : Await := .value

def Assembly.begin (stack : List Frame) : Token → Option Assembly
  | .scalar v => some ⟨stack, .after v⟩
  | .openArray => if stack.length < maxDepth then some ⟨.array [] :: stack, .firstItem⟩ else none
  | .openObject =>
    if stack.length < maxDepth then some ⟨.object [] "" :: stack, .key true⟩ else none
  | _ => none

def Assembly.step (a : Assembly) (t : Token) : Option Assembly :=
  match a.await, t, a.stack with
  | .firstItem, .closeArray, .array _ :: rest => some ⟨rest, .after (.array [])⟩
  | .value, t, stack | .firstItem, t, stack => begin stack t
  | .key true, .closeObject, .object _ _ :: rest => some ⟨rest, .after (.object [])⟩
  | .key _, .scalar (.text k), .object done _ :: rest => some ⟨.object done k :: rest, .colon⟩
  | .colon, .colon, stack => some ⟨stack, .value⟩
  | .after v, .comma, .array done :: rest => some ⟨.array (v :: done) :: rest, .value⟩
  | .after v, .comma, .object done k :: rest =>
    some ⟨.object ((k, v) :: done) k :: rest, .key false⟩
  | .after v, .closeArray, .array done :: rest => some ⟨rest, .after (.array (v :: done).reverse)⟩
  | .after v, .closeObject, .object done k :: rest =>
    some ⟨rest, .after (.object ((k, v) :: done).reverse)⟩
  | _, _, _ => none

def ofTokens? (tokens : List Token) : Option Json := do
  let a ← tokens.foldlM Assembly.step {}
  match a with
  | ⟨[], .after v⟩ => some v
  | _ => none

/-- The value that a text writes, its fields in the order of the text. -/
def read? (text : String) : Option Json := do
  ofTokens? (← Cutting.between.tokens? text.toList)

/-- The canonical form of the value that a text writes. -/
def parse? (text : String) : Option Json := (read? text).map canonical

end SqlAssembly.Json
