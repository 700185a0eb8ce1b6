import Mathlib.Tactic.SplitIfs
import SqlAssembly.Sql

/-! # String literals read back

A database splits a statement into the characters outside its string literals and the literals
themselves.  A quote inside a literal is written twice, and one database also reads escapes that
begin with a backslash.  Every literal that a standard dialect writes is read as one literal, and as
the text of its value, unless more quotes follow.
-/
namespace SqlAssembly

/-- A character outside literals, a literal as it is read, or the beginning of a literal that never
ends. -/
inductive Lexeme where
  | char (c : Char)
  | literal (read : List Char)
  | unclosed (read : List Char)
deriving DecidableEq

namespace Lexer

/-- What a lexer is in the middle of, and what it has read of a literal. -/
inductive State where
  | outside
  | inside (read : List Char)
  | afterBackslash (read : List Char)
  | afterQuote (read : List Char)
deriving DecidableEq

/-- Whether literals have escapes that begin with a backslash. -/
def readsBackslash (vendor : Option Vendor) : Bool := vendor = some .mySql

/-- What a character after a backslash is read as. -/
def backslashed (c : Char) : List Char :=
  match c with
  | '0' => ['\x00']
  | 'b' => ['\x08']
  | 'n' => ['\n']
  | 'r' => ['\r']
  | 't' => ['\t']
  | 'Z' => ['\x1a']
  | '%' => ['\\', '%']
  | '_' => ['\\', '_']
  | c => [c]

def lex (vendor : Option Vendor) : State → List Char → List Lexeme
  | .outside, [] => []
  | .inside read, [] | .afterBackslash read, [] => [.unclosed read]
  | .afterQuote read, [] => [.literal read]
  | .outside, c :: cs =>
    if c = '\'' then lex vendor (.inside []) cs else .char c :: lex vendor .outside cs
  | .inside read, c :: cs =>
    if c = '\'' then lex vendor (.afterQuote read) cs
    else if c = '\\' ∧ readsBackslash vendor then lex vendor (.afterBackslash read) cs
    else lex vendor (.inside (read ++ [c])) cs
  | .afterBackslash read, c :: cs => lex vendor (.inside (read ++ backslashed c)) cs
  | .afterQuote read, c :: cs =>
    if c = '\'' then lex vendor (.inside (read ++ ['\''])) cs
    else .literal read :: .char c :: lex vendor .outside cs

/-- What a backslash in a literal makes of the character behind it.  Two of them always make one. -/
structure Escapes where
  read : Char → List Char
  backslash : read '\\' = ['\\']

namespace Escapes

def plain : Escapes := ⟨fun c => [c], rfl⟩

/-- Some letters behind a backslash stand for control characters. -/
def named : Escapes := ⟨backslashed, rfl⟩

end Escapes

/-- The literal that a text begins with, or that it is in the middle of: what the literal is read
as, and how the text goes on behind its last quote. -/
def scan (escapes : Escapes) (vendor : Option Vendor) :
    State → List Char → Option (List Char × List Char)
  | .outside, c :: cs => if c = '\'' then scan escapes vendor (.inside []) cs else none
  | .inside read, c :: cs =>
    if c = '\'' then scan escapes vendor (.afterQuote read) cs
    else if c = '\\' ∧ readsBackslash vendor then scan escapes vendor (.afterBackslash read) cs
    else scan escapes vendor (.inside (read ++ [c])) cs
  | .afterBackslash read, c :: cs => scan escapes vendor (.inside (read ++ escapes.read c)) cs
  | .afterQuote read, c :: cs =>
    if c = '\'' then scan escapes vendor (.inside (read ++ ['\''])) cs else some (read, c :: cs)
  | .afterQuote read, [] => some (read, [])
  | .outside, [] | .inside _, [] | .afterBackslash _, [] => none

def readLiteral (escapes : Escapes) (vendor : Option Vendor) (text : String) :
    Option (String × String) :=
  (scan escapes vendor .outside text.toList).map fun p => (String.ofList p.1, String.ofList p.2)

/-- What is left of a text in a literal: without a vendor everything, and otherwise everything but
NUL. -/
def kept (vendor : Option Vendor) (raw : List Char) : List Char :=
  if vendor.isSome then raw.filter (· ≠ '\x00') else raw

section
variable (vendor : Option Vendor)

theorem lex_char {c : Char} (hc : c ≠ '\'') (cs : List Char) :
    lex vendor .outside (c :: cs) = .char c :: lex vendor .outside cs := by
  rw [lex, if_neg hc]

theorem lex_chars {cs : List Char} (hcs : '\'' ∉ cs) (rest : List Char) :
    lex vendor .outside (cs ++ rest) = cs.map .char ++ lex vendor .outside rest := by
  induction cs with
  | nil => rfl
  | cons c cs ih =>
    have hc : c ≠ '\'' := fun h => hcs (by simp [h])
    rw [List.cons_append, lex_char vendor hc, ih fun h => hcs (List.mem_cons_of_mem c h)]
    rfl

/-- The lexemes of a text that begins with a literal are that literal and the lexemes behind it. -/
theorem lex_of_scan {state : State} {cs read rest : List Char}
    (h : scan .named vendor state cs = some (read, rest)) :
    lex vendor state cs = .literal read :: lex vendor .outside rest := by
  induction cs generalizing state with
  | nil =>
    cases state with
    | afterQuote read' =>
      obtain ⟨rfl, rfl⟩ : read' = read ∧ [] = rest := by simpa [scan] using h
      rfl
    | outside | inside | afterBackslash => simp [scan] at h
  | cons c cs ih =>
    cases state with
    | outside =>
      by_cases hquote : c = '\''
      · simp only [scan, hquote, if_true] at h
        simp only [lex, hquote, if_true]
        exact ih h
      · simp [scan, hquote] at h
    | inside read' =>
      simp only [scan] at h
      simp only [lex]
      split_ifs at h ⊢ <;> exact ih h
    | afterBackslash read' =>
      simp only [lex]
      exact ih h
    | afterQuote read' =>
      by_cases hquote : c = '\''
      · simp only [scan, hquote, if_true] at h
        simp only [lex, hquote, if_true]
        exact ih h
      · obtain ⟨rfl, rfl⟩ : read' = read ∧ c :: cs = rest := by simpa [scan, hquote] using h
        simp only [lex, hquote, if_false]

/-- What a character becomes in a literal of a standard dialect. -/
def escapeChar (vendor : Option Vendor) (c : Char) : List Char :=
  match vendor with
  | some v => v.escapeChar c
  | none => doubleQuote c

theorem toList_escape_standard (raw : String) :
    ((Dialect.standard vendor).escape raw).toList = raw.toList.flatMap (escapeChar vendor) := by
  cases vendor with
  | none => exact toList_doubleQuotes raw
  | some v => exact Vendor.toList_escape v raw

variable (escapes : Escapes)

/-- Read inside a literal, an escaped character is the character itself, or nothing. -/
theorem scan_escapeChar (read : List Char) (c : Char) (rest : List Char) :
    scan escapes vendor (.inside read) (escapeChar vendor c ++ rest) =
      scan escapes vendor (.inside (read ++ kept vendor [c])) rest := by
  by_cases hquote : c = '\''
  · subst hquote
    cases vendor with
    | none => simp [escapeChar, doubleQuote, scan, kept]
    | some v => simp [escapeChar, Vendor.escapeChar, scan, kept]
  · cases vendor with
    | none => simp [escapeChar, doubleQuote, scan, kept, hquote, readsBackslash]
    | some v =>
      by_cases hbackslash : c = '\\'
      · subst hbackslash
        cases v <;> simp [escapeChar, Vendor.escapeChar, scan, kept, readsBackslash,
          escapes.backslash]
      · by_cases hnul : c = '\x00'
        · subst hnul
          simp [escapeChar, Vendor.escapeChar, kept]
        · simp [escapeChar, Vendor.escapeChar, scan, kept, hquote, hbackslash, hnul]

theorem scan_escape (raw : List Char) (read rest : List Char) :
    scan escapes vendor (.inside read) (raw.flatMap (escapeChar vendor) ++ rest) =
      scan escapes vendor (.inside (read ++ kept vendor raw)) rest := by
  induction raw generalizing read with
  | nil => simp [kept]
  | cons c raw ih =>
    have hkept : kept vendor (c :: raw) = kept vendor [c] ++ kept vendor raw := by
      cases vendor with
      | none => rfl
      | some v =>
        simp only [kept, Option.isSome_some, if_true]
        exact List.filter_append [c] raw
    rw [List.flatMap_cons, List.append_assoc, scan_escapeChar, ih, hkept, List.append_assoc]

/-- An escaped text between quotes is read up to the closing one, unless another quote follows. -/
theorem scan_quoted (raw : List Char) {rest : List Char} (hrest : rest.head? ≠ some '\'') :
    scan escapes vendor .outside ('\'' :: (raw.flatMap (escapeChar vendor) ++ '\'' :: rest)) =
      some (kept vendor raw, rest) := by
  have hclosed (read : List Char) :
      scan escapes vendor (.afterQuote read) rest = some (read, rest) := by
    cases rest with
    | nil => rfl
    | cons c rest =>
      have hc : c ≠ '\'' := fun h => hrest (by simp [h])
      simp only [scan, if_neg hc]
  rw [scan, if_pos rfl, scan_escape, List.nil_append, scan, if_pos rfl, hclosed]

/-- A literal that no quote follows is read as one literal, and as the text of its value. -/
theorem lex_literal {v : Value} (hv : v ≠ .null) {rest : List Char}
    (hrest : rest.head? ≠ some '\'') :
    lex vendor .outside (((Dialect.standard vendor).literal v).toList ++ rest) =
      .literal (kept vendor v.literalText.toList) :: lex vendor .outside rest := by
  have hquoted : ((Dialect.standard vendor).literal v).toList ++ rest =
      '\'' :: (v.literalText.toList.flatMap (escapeChar vendor) ++ '\'' :: rest) := by
    simp [Dialect.literal, hv, toList_escape_standard]
  rw [hquoted]
  exact lex_of_scan vendor (scan_quoted vendor .named v.literalText.toList hrest)

end

/-- Whatever the dialect, an escaped text between quotes is one literal that ends at the closing
quote, and it is read as the text, without its NUL characters where there is a vendor. -/
theorem readLiteral_escape (escapes : Escapes) (vendor : Option Vendor) (raw : String)
    {rest : String} (hrest : rest.toList.head? ≠ some '\'') :
    readLiteral escapes vendor ("'" ++ (Dialect.standard vendor).escape raw ++ "'" ++ rest) =
      some (String.ofList (kept vendor raw.toList), rest) := by
  have htext : ("'" ++ (Dialect.standard vendor).escape raw ++ "'" ++ rest).toList =
      '\'' :: (raw.toList.flatMap (escapeChar vendor) ++ '\'' :: rest.toList) := by
    simp [toList_escape_standard]
  rw [readLiteral, htext, scan_quoted vendor escapes raw.toList hrest, Option.map_some,
    String.ofList_toList]

/-- A quote, a NUL between two quotes, and a backslash in front of the closing quote. -/
theorem readLiteral_escape_backslash :
    " AND b".toList.head? ≠ some '\'' ∧
    readLiteral .plain (some .mySql) "'it''s ''''\\\\' AND b" = some ("it's ''\\", " AND b") ∧
    readLiteral .plain (some .sqlite3) "'it''s ''''\\' AND b" = some ("it's ''\\", " AND b") ∧
    readLiteral .plain none "'it''s ''\x00''\\' AND b" = some ("it's '\x00'\\", " AND b") := by
  have hrest : " AND b".toList.head? ≠ some '\'' := by decide
  have hread {vendor : Option Vendor} {text value : String}
      (htext : "'" ++ (Dialect.standard vendor).escape "it's '\x00'\\" ++ "'" ++ " AND b" = text)
      (hvalue : String.ofList (kept vendor "it's '\x00'\\".toList) = value) :
      readLiteral .plain vendor text = some (value, " AND b") := by
    rw [← htext, ← hvalue]
    exact readLiteral_escape .plain vendor "it's '\x00'\\" hrest
  refine ⟨hrest, ?_, ?_, ?_⟩
  · exact hread (by decide +kernel) (by decide +kernel)
  · exact hread (by decide +kernel) (by decide +kernel)
  · exact hread (by decide +kernel) (by decide +kernel)

end Lexer

end SqlAssembly
