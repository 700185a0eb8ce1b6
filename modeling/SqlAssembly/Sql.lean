import SqlAssembly.Marker
import SqlAssembly.Value

/-! # SQL text with parameters

A piece of SQL is its text and the values bound to the markers in it, in order; pieces are appended
on both sides at once.  A template is SQL whose values are still open: rendering either binds each
value behind a marker or inlines it as a literal, and that is the only difference between the modes.
Templates can be written in any medium that takes texts and puts one thing after another.
-/
namespace SqlAssembly

/-- What SQL can be written in: it takes texts, appends, cuts off outer blanks, and can be quoted in
a message. -/
class Medium (σ : Type) extends Append σ where
  ofText : String → σ
  trim : σ → σ
  quote : σ → String

/-- A medium in which only what is written matters, not in which steps. -/
class LawfulMedium (σ : Type) [Medium σ] : Prop where
  append_assoc (a b c : σ) : a ++ b ++ c = a ++ (b ++ c)
  empty_append (a : σ) : Medium.ofText "" ++ a = a
  append_empty (a : σ) : a ++ Medium.ofText "" = a
  ofText_append (s t : String) : (Medium.ofText (s ++ t) : σ) = Medium.ofText s ++ Medium.ofText t

open Medium (ofText)

/-- The pieces one after another, a separator between each two. -/
def Medium.join {σ : Type} [Medium σ] (separator : String) : List σ → σ
  | [] => ofText ""
  | [a] => a
  | a :: as => a ++ (ofText separator ++ Medium.join separator as)

@[ext] structure Sql where
  text : String
  params : List Value := []
deriving DecidableEq

namespace Sql

instance : Append Sql := ⟨fun a b => ⟨a.text ++ b.text, a.params ++ b.params⟩⟩

instance : Coe String Sql := ⟨fun text => { text }⟩

/-- The same parameters with the outer blanks of the text cut off. -/
def trim (sql : Sql) : Sql := { sql with text := Text.trim sql.text }

/-- Messages quote the text without its outer blanks. -/
instance : Medium Sql where
  ofText text := { text }
  trim := trim
  quote sql := Text.trim sql.text

@[simp] theorem text_append (a b : Sql) : (a ++ b).text = a.text ++ b.text := rfl

@[simp] theorem params_append (a b : Sql) : (a ++ b).params = a.params ++ b.params := rfl

@[simp] theorem text_ofText (text : String) : (ofText text : Sql).text = text := rfl

@[simp] theorem params_ofText (text : String) : (ofText text : Sql).params = [] := rfl

@[simp] theorem text_trim (a : Sql) : (Medium.trim a).text = Text.trim a.text := rfl

@[simp] theorem params_trim (a : Sql) : (Medium.trim a).params = a.params := rfl

instance : LawfulMedium Sql where
  append_assoc a b c := by ext1 <;> simp [String.append_assoc]
  empty_append a := by ext1 <;> simp
  append_empty a := by ext1 <;> simp
  ofText_append s t := by ext1 <;> simp

theorem text_join (separator : String) (parts : List Sql) :
    (Medium.join separator parts).text = separator.intercalate (parts.map Sql.text) := by
  induction parts with
  | nil => simp [Medium.join]
  | cons a rest ih =>
    cases rest with
    | nil => simp [Medium.join]
    | cons b rest =>
      simp only [List.map_cons] at ih
      simp [Medium.join, ih, String.append_assoc]

theorem params_join (separator : String) (parts : List Sql) :
    (Medium.join separator parts).params = parts.flatMap Sql.params := by
  induction parts with
  | nil => rfl
  | cons a rest ih =>
    cases rest with
    | nil => simp [Medium.join]
    | cons b rest => simp [Medium.join, ih]

end Sql

inductive Piece where
  | word (text : String)
  | value (v : Value)
deriving DecidableEq

/-- SQL whose values have not been written yet. -/
abbrev Template := List Piece

namespace Template

def join (separator : String) : List Template → Template
  | [] => []
  | [t] => t
  | t :: ts => t ++ .word separator :: join separator ts

section
variable {σ : Type} [Medium σ] (value : Value → σ)

def writePiece : Piece → σ
  | .word text => ofText text
  | .value v => value v

def write : Template → σ
  | [] => ofText ""
  | p :: ps => writePiece value p ++ write ps

theorem write_singleton [LawfulMedium σ] (p : Piece) : write value [p] = writePiece value p :=
  LawfulMedium.append_empty _

theorem write_append [LawfulMedium σ] (t u : Template) :
    write value (t ++ u) = write value t ++ write value u := by
  induction t with
  | nil => exact (LawfulMedium.empty_append _).symm
  | cons p t ih =>
    change writePiece value p ++ write value (t ++ u) = _
    rw [ih, write, LawfulMedium.append_assoc]

theorem write_join [LawfulMedium σ] (separator : String) (ts : List Template) :
    write value (join separator ts) = Medium.join separator (ts.map (write value)) := by
  induction ts with
  | nil => rfl
  | cons t ts ih =>
    cases ts with
    | nil => rfl
    | cons u ts =>
      change write value (t ++ .word separator :: join separator (u :: ts)) = _
      rw [write_append, write, ih]
      rfl

end

end Template

/-- How values reach the text: bound behind markers, or inlined as literals that the dialect
escapes. -/
structure Rendering where
  dialect : Dialect
  bound : Bool

/-- A value between single quotes; the null value is a bare `NULL`. -/
def Dialect.literal (d : Dialect) (v : Value) : String :=
  if v = .null then "NULL" else "'" ++ d.escape v.literalText ++ "'"

namespace Rendering

def value (r : Rendering) (v : Value) : Sql :=
  if r.bound then { text := Marker.text, params := [v] } else { text := r.dialect.literal v }

def sql (r : Rendering) (t : Template) : Sql := Template.write r.value t

end Rendering

end SqlAssembly
