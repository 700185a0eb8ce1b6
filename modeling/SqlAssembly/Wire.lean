import SqlAssembly.Value

/-! # Binary parameter format

The bytes that a value is sent to PostgreSQL as.  Integers follow the type of the column where its
width or kind differs from theirs; all other values are encoded by their own kind.
-/
namespace SqlAssembly.Wire

inductive ColumnType where
  | bool
  | int2
  | int4
  | int8
  | float4
  | float8
  | text
  | varchar
  | bytea
  | timestamp
  | date
  | uuid
  | json
  | jsonb
deriving DecidableEq, Repr

def ColumnType.all : List ColumnType :=
  [.bool, .int2, .int4, .int8, .float4, .float8, .text, .varchar, .bytea, .timestamp, .date, .uuid,
    .json, .jsonb]

def ColumnType.name : ColumnType → String
  | .bool => "bool"
  | .int2 => "int2"
  | .int4 => "int4"
  | .int8 => "int8"
  | .float4 => "float4"
  | .float8 => "float8"
  | .text => "text"
  | .varchar => "varchar"
  | .bytea => "bytea"
  | .timestamp => "timestamp"
  | .date => "date"
  | .uuid => "uuid"
  | .json => "json"
  | .jsonb => "jsonb"

/-- The bytes of a natural number, most significant first, in `width` bytes. -/
def bigEndian (width n : Nat) : List UInt8 :=
  match width with
  | 0 => []
  | width + 1 => bigEndian width (n / 256) ++ [UInt8.ofNat n]

@[simp] theorem length_bigEndian (width n : Nat) : (bigEndian width n).length = width := by
  induction width generalizing n with
  | zero => rfl
  | succ width ih => simp [bigEndian, ih]

def twosComplement (width : Nat) (n : Int) : List UInt8 :=
  bigEndian width (n % 2 ^ (8 * width)).toNat

def Fits (width : Nat) (n : Int) : Prop := -2 ^ (8 * width - 1) ≤ n ∧ n < 2 ^ (8 * width - 1)

instance (width : Nat) (n : Int) : Decidable (Fits width n) := inferInstanceAs (Decidable (_ ∧ _))

def checkedInteger (width : Nat) (n : Int) : Option (List UInt8) :=
  if Fits width n then some (twosComplement width n) else none

/-- The bytes of an integer for a column type; none if the type cannot hold it. -/
def encodeInt (type : ColumnType) (n : Int) : Option (List UInt8) :=
  match type with
  | .int2 => checkedInteger 2 n
  | .int4 => checkedInteger 4 n
  | .float8 => some (bigEndian 8 (Decimal.Double.ofInt n).bits.toNat)
  | .text | .varchar => some (Text.encode (toString n))
  | _ => some (twosComplement 8 n)

def encodeFloat (type : ColumnType) (x : Decimal.Double) : List UInt8 :=
  match type with
  | .float4 => bigEndian 4 x.toSingle.toNat
  | _ => bigEndian 8 x.bits.toNat

inductive Encoded where
  | null
  | bytes (data : List UInt8)
deriving DecidableEq, Repr

/-- What is sent for a value to a column of some type, or none if it cannot be sent. -/
def encode (type : ColumnType) : Value → Option Encoded
  | .null => some .null
  | .bool b => some (.bytes [if b then 1 else 0])
  | .int n => (encodeInt type n.toInt).map .bytes
  | .float x => some (.bytes (encodeFloat type x))
  | .text s => some (.bytes (Text.encode s))
  | .bytes data => some (.bytes data)
  | .timestamp t => some (.bytes (twosComplement 8 (t.nanosSince2000.tdiv 1000)))
  | .date d => some (.bytes (twosComplement 4 d.daysSince2000))
  | .uuid u => some (.bytes u.bytes)
  | .json j =>
    some (.bytes ((if type = .jsonb then [1] else []) ++ Text.encode j.compress))

end SqlAssembly.Wire
