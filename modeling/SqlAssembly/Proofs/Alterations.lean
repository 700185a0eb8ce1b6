import SqlAssembly.Proofs.Columns

/-! # One type in every definition

A column, a column to be added and a column whose type is to be changed all show the type that is
defined without a name.  The name has no marker, so that it stays what it is in front of the type,
and the reasons to refuse come in the same order: a blank name, a missing vendor, an unknown type,
and last what a vendor does not support.
-/
namespace SqlAssembly.Schema

/-! ## Types -/

theorem lookup_trim (v : Vendor) (token : String) :
    lookup v (Text.trim token) = lookup v token := by
  simp only [lookup, Text.trim_trim]

/-- The blanks around a token do not matter, nor do they show in a report. -/
theorem resolve_trim (v : Vendor) (name : Option String) (token : String) (args : List Arg) :
    resolve v name (Text.trim token) args = resolve v name token args := by
  cases h : lookup v token with
  | none =>
    have htrim : lookup v (Text.trim token) = none := (lookup_trim v token).trans h
    rw [resolve_of_unknown h, resolve_of_unknown htrim, Text.trim_trim]
  | some found =>
    have htrim : lookup v (Text.trim token) = some found := (lookup_trim v token).trans h
    rw [resolve_of_lookup h, resolve_of_lookup htrim]

theorem datatype_none (token : String) (args : List Arg) :
    datatype none token args = .error .noVendor := by
  rw [datatype, required, error_bind]

theorem datatype_some (v : Vendor) (token : String) (args : List Arg) :
    datatype (some v) token args = resolve v none token args := by
  rw [datatype, required, ok_bind]

/-- Whether a type is defined does not depend on its arguments. -/
theorem exists_datatype_iff (v : Vendor) (token : String) (args : List Arg) :
    (∃ type, datatype (some v) token args = .ok type) ↔ lookup v token ≠ none := by
  rw [datatype_some]
  cases h : lookup v token with
  | none => simp [resolve_of_unknown h]
  | some found => simp [resolve_eq h]

/-! ## Actions on a column of some type -/

theorem column_of_blank (vendor : Option Vendor) {name : String} (hname : Text.trim name = "")
    (token : String) (args : List Arg) :
    column vendor name token args = .error (.emptyArgument .columnName) := by
  simp [column, hname]

theorem column_of_action (vendor : Option Vendor) {name : String} (hname : Text.trim name ≠ "")
    (a : Action) (args : List Arg) :
    column vendor name a.token args =
      (required vendor >>= fun v => a.perform v (Text.trim name) args) := by
  have htoken : Action.ofToken? a.token = some a := by cases a <;> decide +kernel
  simp [column, hname, htoken]

section
variable (vendor : Option Vendor) {name token : String} (hname : Text.trim name ≠ "")
include hname

theorem column_eq_datatype (hunmarked : Unmarked name) (htoken : Action.ofToken? token = none)
    (args : List Arg) :
    column vendor name token args =
      (datatype vendor token args).map (Text.trim name ++ " " ++ ·) := by
  rw [column_of_named vendor hname htoken]
  cases vendor with
  | none => rw [datatype_none, required, error_bind, map_error]
  | some v =>
    rw [datatype_some, required, ok_bind, resolve_named v hunmarked.trim, Text.trim_trim]

variable (htoken : Text.trim token ≠ "")
include htoken

theorem addColumn_eq_datatype (args : List Arg) :
    addColumn vendor name token args =
      (datatype vendor token args).map ("ADD " ++ Text.trim name ++ " " ++ ·) := by
  rw [addColumn, column_of_action vendor hname]
  cases vendor with
  | none => rw [datatype_none, required, error_bind, map_error]
  | some v =>
    simp only [required, ok_bind, Action.perform, splitText, if_neg htoken, datatype_some,
      resolve_trim, map_eq_bind, pure_eq_ok]

theorem changeColumn_eq_datatype (args : List Arg) :
    changeColumn vendor name token args =
      (datatype vendor token args >>= fun type =>
        required vendor >>= fun v => changeAction v (Text.trim name) type) := by
  rw [changeColumn, column_of_action vendor hname]
  cases vendor with
  | none => rw [datatype_none, required, error_bind, error_bind]
  | some v =>
    simp only [required, ok_bind, Action.perform, splitText, if_neg htoken, datatype_some,
      resolve_trim]

end

/-- To add a column shows what defines it, or fails as its definition does. -/
theorem addColumn_eq_column (vendor : Option Vendor) {name token : String}
    (hunmarked : Unmarked name) (htoken : Text.trim token ≠ "")
    (haction : Action.ofToken? token = none) (args : List Arg) :
    addColumn vendor name token args = (column vendor name token args).map ("ADD " ++ ·) := by
  by_cases hname : Text.trim name = ""
  · rw [addColumn, column_of_blank vendor hname, column_of_blank vendor hname, map_error]
  · rw [column_eq_datatype vendor hname hunmarked haction,
      addColumn_eq_datatype vendor hname htoken]
    cases datatype vendor token args with
    | error e => rfl
    | ok type => simp only [map_ok, String.append_assoc]

/-- The definition of a column is its name and the type as it is defined without a name, and it is
refused only for want of a name or of the type.  To add a column shows the same definition or fails
the same way; to change one shows the same type in the vendor's words, unless the vendor has none.
A vendor that is missing and a type that it does not know are reported alike by all four. -/
theorem columns_show_one_type (vendor : Option Vendor) {name token : String}
    (hunmarked : Unmarked name) (htoken : Text.trim token ≠ "")
    (hpseudo : Text.upper (Text.trim token) ∉ ["CONSTRAINT", "INDEX", "ADD", "DROP", "CHANGE"])
    (args : List Arg) :
    (∀ d, column vendor name token args = .ok d ↔
      Text.trim name ≠ "" ∧ ∃ type, datatype vendor token args = .ok type ∧
        d = Text.trim name ++ " " ++ type) ∧
    (∀ d, addColumn vendor name token args = .ok d ↔
      ∃ d', column vendor name token args = .ok d' ∧ d = "ADD " ++ d') ∧
    (∀ e, addColumn vendor name token args = .error e ↔ column vendor name token args = .error e) ∧
    (Text.trim name ≠ "" → ∀ v type, vendor = some v → datatype vendor token args = .ok type →
      changeColumn vendor name token args =
        match v with
        | .mySql => .ok ("MODIFY " ++ Text.trim name ++ " " ++ type)
        | .postgreSql => .ok ("ALTER COLUMN " ++ Text.trim name ++ " TYPE " ++ type)
        | .sqlServer => .ok ("ALTER COLUMN " ++ Text.trim name ++ " " ++ type)
        | .sqlite3 => .error (.unsupported .sqlite3 "changing a column definition")) ∧
    (∀ v, vendor = some v →
      ((∃ type, datatype vendor token args = .ok type) ↔ lookup v token ≠ none)) ∧
    (Text.trim name ≠ "" →
      ∀ result ∈ [datatype vendor token args, column vendor name token args,
          addColumn vendor name token args, changeColumn vendor name token args],
        (vendor = none → result = .error .noVendor) ∧
        ∀ v, vendor = some v → lookup v token = none →
          result = .error (.unknownDataType (Text.trim token))) ∧
    (Error.unknownDataType (Text.trim token)).isSoft = false := by
  have haction : Action.ofToken? token = none := by
    refine List.find?_eq_none.2 fun a _ ha => hpseudo ?_
    rw [← of_decide_eq_true ha]
    cases a <;> decide +kernel
  have hadd := addColumn_eq_column vendor hunmarked htoken haction args
  refine ⟨fun d => ?_, fun d => ?_, fun e => ?_, fun hname v type hv htype => ?_, fun v hv => ?_,
    fun hname => ?_, rfl⟩
  · by_cases hname : Text.trim name = ""
    · simp [column_of_blank vendor hname, hname]
    · rw [column_eq_datatype vendor hname hunmarked haction, map_eq_bind, bind_eq_ok]
      simp [hname, eq_comm]
  · rw [hadd]
    cases column vendor name token args <;> simp [eq_comm]
  · rw [hadd]
    cases column vendor name token args <;> simp
  · subst hv
    rw [changeColumn_eq_datatype _ hname htoken, htype, ok_bind, required, ok_bind]
    cases v <;> rfl
  · subst hv
    exact exists_datatype_iff v token args
  · have hrefused {e : Error} (h : datatype vendor token args = .error e) :
        ∀ result ∈ [datatype vendor token args, column vendor name token args,
          addColumn vendor name token args, changeColumn vendor name token args],
          result = .error e := by
      rw [column_eq_datatype vendor hname hunmarked haction,
        addColumn_eq_datatype vendor hname htoken, changeColumn_eq_datatype vendor hname htoken, h]
      simp
    refine fun result hresult => ⟨fun hnone => ?_, fun v hv hunknown => ?_⟩
    · refine hrefused ?_ result hresult
      rw [hnone, datatype_none]
    · refine hrefused ?_ result hresult
      rw [hv, datatype_some, resolve_of_unknown hunknown]

/-- A precision without a scale, for a column, for one to be added and for one to be changed. -/
theorem columns_show_one_type_decimal :
    let args : List Arg := [.int 8, .text "NOT NULL"]
    Unmarked " price " ∧ Text.trim " decimal " ≠ "" ∧
      Text.upper (Text.trim " decimal ") ∉ ["CONSTRAINT", "INDEX", "ADD", "DROP", "CHANGE"] ∧
      column (some .postgreSql) " price " " decimal " args = .ok "price DECIMAL(8,2) NOT NULL" ∧
      addColumn (some .postgreSql) " price " " decimal " args =
        .ok "ADD price DECIMAL(8,2) NOT NULL" ∧
      changeColumn (some .postgreSql) " price " " decimal " args =
        .ok "ALTER COLUMN price TYPE DECIMAL(8,2) NOT NULL" := by
  intro args
  have hunmarked : Unmarked " price " := by decide +kernel
  have hname : Text.trim " price " ≠ "" := by decide +kernel
  have htoken : Text.trim " decimal " ≠ "" := by decide +kernel
  have hpseudo : Text.upper (Text.trim " decimal ") ∉
      ["CONSTRAINT", "INDEX", "ADD", "DROP", "CHANGE"] := by decide +kernel
  have htype : datatype (some .postgreSql) " decimal " args = .ok "DECIMAL(8,2) NOT NULL" := by
    decide +kernel
  obtain ⟨hcolumn, hadd, -, hchange, -⟩ :=
    columns_show_one_type (some .postgreSql) hunmarked htoken hpseudo args
  have hshown := (hcolumn _).2 ⟨hname, _, htype, rfl⟩
  exact ⟨hunmarked, htoken, hpseudo, hshown.trans (by decide +kernel),
    ((hadd _).2 ⟨_, hshown, rfl⟩).trans (by decide +kernel),
    (hchange hname _ _ rfl htype).trans (by decide +kernel)⟩

end SqlAssembly.Schema
