import SqlAssembly.Json.Reader
import SqlAssembly.Value

/-! # Values as tagged JSON

Every value is an object with one field, named for its kind; the null value is the text `null`.
Reading takes a null object too, and is strict about everything else: one field, known to the
vocabulary, of the right type.
-/
namespace SqlAssembly.Value

def ofInteger? (n : Int) : Option Int64 :=
  if -2 ^ 63 ≤ n ∧ n < 2 ^ 63 then some (Int64.ofInt n) else none

def toTagged : Value → Json
  | .null => .text "null"
  | .bool b => .object [("bool", .bool b)]
  | .int n => .object [("int", .integer n.toInt)]
  | .float x => .object [("float", if x.isNaN || x.isInfinite then .null else .number x)]
  | .text s => .object [("text", .text s)]
  | .bytes data => .object [("bytes", .array (data.map fun b => .integer b.toNat))]
  | .timestamp t => .object [("timestamp", .text (t.toText "T"))]
  | .date d => .object [("date", .text d.toText)]
  | .uuid u => .object [("uuid", .text u.toText)]
  | .json j => .object [("json", j)]

def byte? : Json → Option UInt8
  | .integer n => if 0 ≤ n ∧ n < 256 then some (UInt8.ofNat n.toNat) else none
  | _ => none

def ofField? : String × Json → Option Value
  | ("null", .null) => some .null
  | ("bool", .bool b) => some (.bool b)
  | ("int", .integer n) => (ofInteger? n).map .int
  | ("float", .integer n) => some (.float (.ofInt n))
  | ("float", .number x) => some (.float x)
  | ("text", .text s) => some (.text s)
  | ("bytes", .array items) => (items.mapM byte?).map .bytes
  | ("timestamp", .text s) => (Calendar.Timestamp.read? s).map .timestamp
  | ("date", .text s) => (Calendar.Date.read? s).map .date
  | ("uuid", .text s) => (Uuid.read? s).map .uuid
  | ("json", j) => some (.json j.canonical)
  | _ => none

/-- The value of a tagged form, its fields as they stand in the text. -/
def ofTagged? : Json → Option Value
  | .text s => if s = "null" then some .null else none
  | .object [field] => ofField? field
  | _ => none

def readTagged? (text : String) : Option Value := do ofTagged? (← Json.read? text)

end SqlAssembly.Value
