import SqlAssembly.Text.Case
import SqlAssembly.Text.Hex

/-! # Universally unique identifiers

Identifiers of 128 bits.  They are written in lower case in five hyphenated groups, and read in that
form, without hyphens, in braces, or as a URN; letter case never matters.
-/
namespace SqlAssembly

structure Uuid where
  bits : BitVec 128
deriving DecidableEq

namespace Uuid

/-- The text cut into groups of the given lengths, joined by hyphens. -/
def hyphenate : List Nat → List Char → List Char
  | [], cs => cs
  | n :: ns, cs => cs.take n ++ '-' :: hyphenate ns (cs.drop n)

def toText (u : Uuid) : String :=
  String.ofList (hyphenate [8, 4, 4, 4] (Text.hexDigits 32 u.bits.toNat))

def bytes (u : Uuid) : List UInt8 :=
  (List.range 16).map fun i => UInt8.ofNat (u.bits.toNat >>> (8 * (15 - i)))

def ofDigits? (cs : List Char) : Option Uuid :=
  if cs.length = 32 then (Text.hexNumber? cs).map fun n => ⟨BitVec.ofNat 128 n⟩ else none

def ofHyphenated? (cs : List Char) : Option Uuid :=
  if cs.length = 36 then
    let digits := cs.filter (· ≠ '-')
    if hyphenate [8, 4, 4, 4] digits = cs then ofDigits? digits else none
  else none

def urnScheme : String := "urn:uuid:"

/-- The identifier that a text writes in one of the four forms. -/
def read? (text : String) : Option Uuid :=
  let cs := text.toList
  let n := urnScheme.length
  if Text.sameLetters (String.ofList (cs.take n)) urnScheme then ofHyphenated? (cs.drop n)
  else match cs with
    | '\x7b' :: rest =>
      if rest.getLast? = some '\x7d' then ofHyphenated? rest.dropLast else none
    | cs => (ofDigits? cs).or (ofHyphenated? cs)

end Uuid

end SqlAssembly
