import SqlAssembly.Settings
import SqlAssembly.Text.Hex

/-! # Settings documents

The settings as a text of `key = value` lines in the TOML notation, comments and blank lines between
them.  Four keys are known, each with a value of one type and each given once at most; every other
key, any table, and any value of another type makes the whole document unreadable.
-/
namespace SqlAssembly.Settings

inductive Scalar where
  | text (s : String)
  | bool (b : Bool)
  | int (n : Int)
deriving DecidableEq, Repr

def isGap (c : Char) : Bool := c = ' ' ∨ c = '\t'

def skipGap (cs : List Char) : List Char := cs.dropWhile isGap

/-- The text after a line break, `\n` or `\r\n`. -/
def lineBreak? : List Char → Option (List Char)
  | '\n' :: rest => some rest
  | '\r' :: '\n' :: rest => some rest
  | _ => none

/-- The text after its leading spaces, tabs and line breaks. -/
def skipLines : List Char → List Char
  | [] => []
  | '\r' :: '\n' :: rest => skipLines rest
  | c :: rest => if isGap c ∨ c = '\n' then skipLines rest else c :: rest

/-- The characters that may stand in a line: no control characters but the tab. -/
def isPlain (c : Char) : Bool := c = '\t' || (32 ≤ c.toNat && c.toNat ≠ 127)

/-! ## Quoted texts -/

def escape? : List Char → Option (Char × List Char)
  | 'b' :: rest => some ('\x08', rest)
  | 't' :: rest => some ('\t', rest)
  | 'n' :: rest => some ('\n', rest)
  | 'f' :: rest => some ('\x0c', rest)
  | 'r' :: rest => some ('\r', rest)
  | 'e' :: rest => some ('\x1b', rest)
  | '"' :: rest => some ('"', rest)
  | '\\' :: rest => some ('\\', rest)
  | 'x' :: rest => code 2 rest
  | 'u' :: rest => code 4 rest
  | 'U' :: rest => code 8 rest
  | _ => none
where
  /-- A character given by the digits of its code. -/
  code (width : Nat) (cs : List Char) : Option (Char × List Char) := do
    if cs.length < width then none
    else
      let n ← Text.hexNumber? (cs.take width)
      if n.isValidChar then some (Char.ofNat n, cs.drop width) else none

/-- The contents of a text in double quotes, after the first quote, and what follows the last.  The
bound exceeds the number of characters. -/
def basicText? : Nat → List Char → Option (List Char × List Char)
  | 0, _ => none
  | _ + 1, [] => none
  | _ + 1, '"' :: rest => some ([], rest)
  | n + 1, '\\' :: rest => do
    let (c, rest) ← escape? rest
    let (content, rest) ← basicText? n rest
    return (c :: content, rest)
  | n + 1, c :: rest =>
    if isPlain c then (basicText? n rest).map fun (content, rest) => (c :: content, rest) else none

def literalText? (cs : List Char) : Option (List Char × List Char) :=
  let content := cs.takeWhile (· ≠ '\'')
  match cs.dropWhile (· ≠ '\'') with
  | _ :: rest => if content.all isPlain then some (content, rest) else none
  | [] => none

/-- The end of a text in triple quotes, at its first quote: two quotes more may belong to the
text. -/
def tripleEnd? (quote : Char) (cs : List Char) : Option (List Char × List Char) :=
  let quotes := (cs.takeWhile (· = quote)).take 5
  if quotes.length < 3 then none else some (quotes.drop 3, cs.drop quotes.length)

/-- Whether a line holds no more than blanks. -/
def endsLine (cs : List Char) : Bool := (lineBreak? (skipGap cs)).isSome

/-- The contents of a text in triple quotes, and what follows it.  In double quotes a backslash at
the end of a line joins the lines.  The bound exceeds the number of characters. -/
def tripleText? (quote : Char) : Nat → List Char → Option (List Char × List Char)
  | 0, _ => none
  | _ + 1, [] => none
  | n + 1, c :: rest =>
    if c = quote then
      match tripleEnd? quote (c :: rest) with
      | some done => some done
      | none => continued n c rest
    else if c = '\\' ∧ quote = '"' then
      if endsLine rest then tripleText? quote n (skipLines rest)
      else do
        let (d, rest) ← escape? rest
        continued n d rest
    else match lineBreak? (c :: rest) with
      | some rest => continued n '\n' rest
      | none => if isPlain c then continued n c rest else none
where
  /-- A character of the contents, and what comes after it. -/
  continued (n : Nat) (c : Char) (rest : List Char) : Option (List Char × List Char) :=
    (tripleText? quote n rest).map fun (content, rest) => (c :: content, rest)

/-- The contents of a text in triple quotes after the opening ones, a line break at once after them
left out. -/
def openTriple? (quote : Char) (cs : List Char) : Option (List Char × List Char) :=
  let cs := (lineBreak? cs).getD cs
  tripleText? quote (cs.length + 1) cs

def quotedText? : List Char → Option (List Char × List Char)
  | '"' :: '"' :: '"' :: rest => openTriple? '"' rest
  | '\'' :: '\'' :: '\'' :: rest => openTriple? '\'' rest
  | '"' :: rest => basicText? (rest.length + 1) rest
  | '\'' :: rest => literalText? rest
  | _ => none

/-! ## Keys and values -/

def isKeyChar (c : Char) : Bool := Text.isWordChar c || c = '-'

def key? (cs : List Char) : Option (String × List Char) :=
  match cs with
  | '"' :: rest => (basicText? (rest.length + 1) rest).map fun (k, rest) => (String.ofList k, rest)
  | '\'' :: rest => (literalText? rest).map fun (k, rest) => (String.ofList k, rest)
  | cs =>
    let key := cs.takeWhile isKeyChar
    if key = [] then none else some (String.ofList key, cs.dropWhile isKeyChar)

def digitValue? (base : Nat) (c : Char) : Option Nat := do
  let n ← Text.hexValue? c
  if n < base then some n else none

/-- The number that digits write in a base, single underscores between them passed over. -/
def digits? (base : Nat) (cs : List Char) : Option Nat :=
  let rec
    /-- The digits after one that made `n`. -/
    more (n : Nat) : List Char → Option Nat
      | [] => some n
      | '_' :: c :: rest => do more (n * base + (← digitValue? base c)) rest
      | c :: rest => do more (n * base + (← digitValue? base c)) rest
  match cs with
  | [] => none
  | c :: rest => do more (← digitValue? base c) rest

/-- The number that decimal digits write, without a leading zero. -/
def decimal? (cs : List Char) : Option Nat :=
  if cs.head? = some '0' ∧ cs ≠ ['0'] then none else digits? 10 cs

/-- The integer that a word writes: a sign may stand before decimal digits only. -/
def integer? (word : List Char) : Option Int :=
  match word with
  | '+' :: cs => (decimal? cs).map fun n => (n : Int)
  | '-' :: cs => (decimal? cs).map fun n => -(n : Int)
  | '0' :: 'x' :: cs => (digits? 16 cs).map fun n => (n : Int)
  | '0' :: 'o' :: cs => (digits? 8 cs).map fun n => (n : Int)
  | '0' :: 'b' :: cs => (digits? 2 cs).map fun n => (n : Int)
  | cs => (decimal? cs).map fun n => (n : Int)

def word? (word : List Char) : Option Scalar :=
  if word = ['t', 'r', 'u', 'e'] then some (.bool true)
  else if word = ['f', 'a', 'l', 's', 'e'] then some (.bool false)
  else (integer? word).map .int

def endsWord (c : Char) : Bool := isGap c || c = '#' || c = '\n' || c = '\r'

def scalar? (cs : List Char) : Option (Scalar × List Char) :=
  if cs.head? = some '"' ∨ cs.head? = some '\'' then
    (quotedText? cs).map fun (s, rest) => (.text (String.ofList s), rest)
  else
    (word? (cs.takeWhile (!endsWord ·))).map fun v => (v, cs.dropWhile (!endsWord ·))

/-- What follows the end of a line: blanks, a comment, and the break or the end of the text. -/
def endOfLine? (cs : List Char) : Option (List Char) :=
  let cs := match skipGap cs with
    | '#' :: rest => rest.dropWhile isPlain
    | rest => rest
  if cs = [] then some [] else lineBreak? cs

/-! ## Documents -/

/-- The entries of a document, over a bound that exceeds the number of lines. -/
def entries? : Nat → List Char → Option (List (String × Scalar))
  | 0, _ => none
  | n + 1, cs =>
    match skipGap cs with
    | [] => some []
    | cs =>
      match endOfLine? cs with
      | some rest => entries? n rest
      | none => do
        let (key, rest) ← key? cs
        match skipGap rest with
        | '=' :: rest =>
          let (value, rest) ← scalar? (skipGap rest)
          let rest ← endOfLine? rest
          return (key, value) :: (← entries? n rest)
        | _ => none

def setEntry (s : Settings) : String × Scalar → Option Settings
  | ("vendor", .text name) => (Vendor.ofName? name).map fun v => { s with vendor := some v }
  | ("prepare", .bool b) => some { s with prepare := b }
  | ("log_sql", .bool b) => some { s with logSql := b }
  | ("max_sql_log_length", .int n) =>
    if 0 ≤ n ∧ n < UInt64.size then some { s with maxLogLength := some n.toNat } else none
  | _ => none

/-- The settings that a document writes, the others at their defaults. -/
def read? (text : String) : Option Settings := do
  let cs := match text.toList with
    | '\uFEFF' :: rest => rest
    | cs => cs
  let entries ← entries? (cs.length + 1) cs
  if (entries.map (·.1)).Nodup then entries.foldlM setEntry {} else none

def parse (text : String) : Except Error Settings :=
  match read? text with
  | some s => s.validate
  | none => .error (.config .unreadable)

/-- The settings of a file, which the system answered with its text, or with a reason not to. -/
def load (path : String) (answer : Except String String) : Except Error Settings :=
  match answer with
  | .ok text => parse text
  | .error reason => .error (.config (.unopened path reason))

end SqlAssembly.Settings
