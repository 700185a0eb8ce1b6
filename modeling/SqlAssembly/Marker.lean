import SqlAssembly.Text.Search
import SqlAssembly.Vendor

/-! # The parameter marker

Statements are assembled with one marker, whatever the vendor, wherever a bound value belongs.  The
markers of a text are its leftmost occurrences that do not overlap; they are counted to check a
statement, and replaced by a vendor's own placeholders before it is sent.
-/
namespace SqlAssembly.Marker

def text : String := "__param__"

def pieces (sql : String) : Text.Pieces := Text.pieces text.toList sql.toList

def count (sql : String) : Nat := Text.occurrences text.toList sql.toList

/-- The text with its markers replaced by placeholders, numbered from one. -/
def withPlaceholders (style : PlaceholderStyle) (sql : String) : String :=
  String.ofList ((pieces sql).fillFrom style.placeholder 1)

end SqlAssembly.Marker
