import Mathlib.Data.List.DropRight
import SqlAssembly.Proofs.Occurrences
import SqlAssembly.Schema.Basic

/-! # Arguments of a column

A definition is its parts with a blank between each two, and the markers are replaced in the whole
of it.  No marker contains a blank and no keyword makes one up, so that they are replaced in every
part by itself, and none is left.  The parts are the name, the type with the integers that it takes,
and every other argument in order, whichever place it was put into.  A blank argument is left out,
unless it is the first one of a type that takes a size.
-/
namespace SqlAssembly

/-! ## Outer blanks -/

namespace Text

theorem trim_eq_empty {s : String} : trim s = "" ↔ ∀ c ∈ s.toList, isBlank c = true := by
  have hstart : ∀ cs : List Char, (∀ c ∈ cs.dropWhile isBlank, isBlank c = true) →
      ∀ c ∈ cs, isBlank c = true := by
    intro cs h
    induction cs with
    | nil => exact fun c hc => absurd hc List.not_mem_nil
    | cons d cs ih =>
      by_cases hd : isBlank d = true
      · rw [List.dropWhile_cons_of_pos hd] at h
        exact List.forall_mem_cons.2 ⟨hd, ih h⟩
      · rwa [List.dropWhile_cons_of_neg hd] at h
  have hnil : trim s = "" ↔ List.rdropWhile isBlank (s.toList.dropWhile isBlank) = [] := by
    rw [← String.toList_inj, toList_trim]
    rfl
  rw [hnil, List.rdropWhile_eq_nil_iff]
  exact ⟨hstart _, fun h c hc => h c ((List.dropWhile_suffix _).subset hc)⟩

theorem trim_trim (s : String) : trim (trim s) = trim s := by
  let started := s.toList.dropWhile isBlank
  let trimmed := started.rdropWhile isBlank
  have hstart : trimmed.dropWhile isBlank = trimmed := by
    refine List.dropWhile_eq_self_iff.2 fun hlength => ?_
    have hprefix : trimmed <+: started := List.rdropWhile_prefix isBlank started
    have hstarted : 0 < started.length := Nat.lt_of_lt_of_le hlength hprefix.length_le
    have hfirst : trimmed[0] = started[0] := hprefix.getElem hlength
    rw [hfirst]
    exact List.dropWhile_eq_self_iff.1 (List.dropWhile_idempotent isBlank s.toList) _
  rw [← String.toList_inj, toList_trim, toList_trim]
  calc (trimmed.dropWhile isBlank).rdropWhile isBlank
    _ = trimmed.rdropWhile isBlank := by rw [hstart]
    _ = trimmed := List.rdropWhile_idempotent isBlank started

end Text

namespace Schema

/-! ## Markers replaced -/

def Unmarked (s : String) : Prop :=
  ¬ autoMarker.toList <:+: s.toList ∧ ¬ sequenceMarker.toList <:+: s.toList

instance (s : String) : Decidable (Unmarked s) := inferInstanceAs (Decidable (_ ∧ _))

theorem Unmarked.trim {s : String} (h : Unmarked s) : Unmarked (Text.trim s) := by
  have htrim : (Text.trim s).toList <:+: s.toList := by simpa using Text.infix_trimChars s.toList
  exact ⟨fun hauto => h.1 (hauto.trans htrim), fun hsequence => h.2 (hsequence.trans htrim)⟩

/-- Every marker has an underscore. -/
theorem unmarked_of_underscore {s : String} (h : '_' ∉ s.toList) : Unmarked s :=
  ⟨fun hauto => h (hauto.subset (by decide)), fun hsequence => h (hsequence.subset (by decide))⟩

/-- The keywords that stand for markers keep both markers apart. -/
theorem apart_keyword (v : Vendor) {marker keyword : String}
    (hmarker : marker = autoMarker ∨ marker = sequenceMarker)
    (hkeyword : keyword = autoIncrement v ∨ keyword = sequenceKeyword v) :
    Text.Apart marker.toList keyword.toList := by
  obtain ⟨hfirst, hlast, hnone⟩ : keyword.toList.head?.any (· ∉ marker.toList) = true ∧
      keyword.toList.getLast?.any (· ∉ marker.toList) = true ∧
      ¬ marker.toList <:+: keyword.toList := by
    rcases hmarker with rfl | rfl <;> rcases hkeyword with rfl | rfl <;> cases v <;> decide +kernel
  exact .of_ends hfirst hlast hnone

namespace Column

theorem substitute_of_unmarked (v : Vendor) {s : String} (h : Unmarked s) : substitute v s = s := by
  rw [substitute, Text.replace_of_absent h.1, Text.replace_of_absent h.2]

/-- No marker is left, and none comes about. -/
theorem unmarked_substitute (v : Vendor) (s : String) : Unmarked (substitute v s) := by
  have hauto := Text.not_infix_replace_self (by decide) (apart_keyword v (.inl rfl) (.inl rfl)) s
  exact ⟨Text.not_infix_replace (by decide) (apart_keyword v (.inl rfl) (.inr rfl)) hauto,
    Text.not_infix_replace_self (by decide) (apart_keyword v (.inr rfl) (.inr rfl)) _⟩

theorem substitute_spaced (v : Vendor) (s t : String) :
    substitute v (s ++ " " ++ t) = substitute v s ++ " " ++ substitute v t := by
  have hblank : " " = String.singleton ' ' := rfl
  rw [String.append_assoc, String.append_assoc, hblank, substitute,
    Text.replace_joined (by decide) (by decide), Text.replace_joined (by decide) (by decide)]
  rfl

theorem substitute_intercalate (v : Vendor) (parts : List String) :
    substitute v (" ".intercalate parts) = " ".intercalate (parts.map (substitute v)) := by
  have hempty : substitute v "" = "" := substitute_of_unmarked v (by decide)
  induction parts with
  | nil => simpa using hempty
  | cons s parts ih =>
    cases parts with
    | nil => simp
    | cons t parts =>
      simp only [List.map_cons, String.intercalate_cons_cons] at ih ⊢
      rw [substitute_spaced, ih]

end Column

/-! ## Types found -/

theorem mem_of_lookup {v : Vendor} {token keyword : String} {category : TypeCategory}
    (h : lookup v token = some (category, keyword)) :
    keyword ∈ sharedKeywords category ++ vendorKeywords v category ∧
      Text.lower keyword = Text.lower (Text.trim token) := by
  obtain ⟨found, -, hfound⟩ := List.exists_of_findSome?_eq_some h
  obtain ⟨k, hk, heq⟩ := Option.map_eq_some_iff.1 hfound
  obtain ⟨rfl, rfl⟩ := Prod.mk.inj heq
  have hletters : Text.sameLetters k (Text.trim token) = true :=
    List.find?_some (p := fun k => Text.sameLetters k (Text.trim token)) hk
  exact ⟨List.mem_of_find?_eq_some hk, (Text.sameLetters_iff ..).1 hletters⟩

/-- Every keyword is one word without an underscore, and none asks for an action. -/
theorem keyword_plain {v : Vendor} {category : TypeCategory} {keyword : String}
    (h : keyword ∈ sharedKeywords category ++ vendorKeywords v category) :
    (' ' ∉ keyword.toList ∧ '_' ∉ keyword.toList) ∧
      ∀ a ∈ Action.all, Text.lower a.token ≠ Text.lower keyword := by
  rcases List.mem_append.1 h with hshared | hvendor
  · clear h
    revert keyword
    cases category <;> decide +kernel
  · clear h
    revert keyword
    cases v <;> cases category <;> decide +kernel

theorem ofToken?_of_lookup {v : Vendor} {token keyword : String} {category : TypeCategory}
    (h : lookup v token = some (category, keyword)) : Action.ofToken? token = none := by
  obtain ⟨hmem, hletters⟩ := mem_of_lookup h
  refine List.find?_eq_none.2 fun a ha htoken => ?_
  have htoken : a.token = Text.upper (Text.trim token) := of_decide_eq_true htoken
  apply (keyword_plain hmem).2 a ha
  rw [htoken, Text.lower_upper, hletters]

/-! ## Arguments in their places -/

def Arg.isBlank : Arg → Bool
  | .int _ => false
  | .text s => Text.trim s = ""

theorem Arg.decide_toText (a : Arg) : decide (a.toText = "") = a.isBlank := by
  cases a with
  | int n => simp [toText, isBlank, Nat.repr_ne_empty]
  | text s => rfl

theorem argTexts_eq (args : List Arg) :
    argTexts args = (args.filter (!·.isBlank)).map Arg.toText := by
  rw [argTexts, List.filter_map]
  congr 1
  exact List.filter_congr fun a _ => by simp [← Arg.decide_toText]

/-- The integers in front of arguments, as many as there is room for. -/
def leadingInts : Nat → List Arg → List Nat
  | room + 1, .int n :: args => n :: leadingInts room args
  | _, _ => []

namespace TypeCategory

def room : TypeCategory → Nat
  | .string | .wholeNumber | .dateTime => 1
  | .fixedPoint => 2
  | .largeObject => 0

def sizes (category : TypeCategory) (args : List Arg) : List Nat := leadingInts category.room args

def sizeText (category : TypeCategory) (sizes : List Nat) : String :=
  match category, sizes with
  | .fixedPoint, _ => "(" ++ Nat.repr (sizes.getD 0 10) ++ "," ++ Nat.repr (sizes.getD 1 2) ++ ")"
  | _, n :: _ => "(" ++ Nat.repr n ++ ")"
  | _, [] => ""

/-- Whether a blank argument shows: a type that takes a size, and nothing else, has a blank text in
front. -/
def keepsBlank (category : TypeCategory) (args : List Arg) : Bool :=
  category.room = 1 && args.head?.any Arg.isBlank

end TypeCategory

theorem isOption_of_blank {s : String} (h : Text.trim s = "") : isOption s = false := by
  have hunderscore : '_' ∉ s.toList := fun hmem =>
    absurd (Text.trim_eq_empty.1 h '_' hmem) (by decide)
  have hunmarked := unmarked_of_underscore hunderscore
  rw [Unmarked, ← Text.contains_iff, ← Text.contains_iff, Bool.not_eq_true, Bool.not_eq_true]
    at hunmarked
  rw [isOption, h, hunmarked.1, hunmarked.2]
  decide

/-- A text in front makes up the same parts as an option or as a literal, unless it is blank. -/
theorem textParts_eq (s : String) (args : List Arg) :
    (if isOption s then argTexts (.text s :: args) else Text.trim s :: argTexts args) =
      (if Text.trim s = "" then [""] else []) ++ argTexts (.text s :: args) := by
  by_cases hs : Text.trim s = ""
  · rw [isOption_of_blank hs, if_pos hs, hs]
    simp [argTexts, Arg.toText, hs]
  · rw [if_neg hs]
    simp [argTexts, Arg.toText, hs]

theorem Column.splitPrecision_eq (args : List Arg) :
    Column.splitPrecision args =
      (((leadingInts 2 args).getD 0 10, (leadingInts 2 args).getD 1 2),
        args.drop (leadingInts 2 args).length) := by
  rcases args with _ | ⟨_ | _, _ | ⟨_ | _, args⟩⟩ <;> rfl

def TypeCategory.parts (category : TypeCategory) (keyword : String) (args : List Arg) :
    List String :=
  (keyword ++ category.sizeText (category.sizes args)) ::
    ((if category.keepsBlank args then [""] else []) ++
      argTexts (args.drop (category.sizes args).length))

/-- The parts are the same, whichever places the arguments are put into. -/
theorem Column.parts_withArgs (name : Option String) (category : TypeCategory) (typeName : String)
    (args : List Arg) :
    (Column.withArgs { name, category, typeName } args).parts =
      name.toList ++ category.parts typeName args := by
  cases category <;> simp only [withArgs, TypeCategory.parts, TypeCategory.sizes, TypeCategory.room,
    TypeCategory.sizeText, TypeCategory.keepsBlank]
  case fixedPoint => simp [parts, typeText, splitPrecision_eq, String.append_assoc]
  case largeObject => simp [parts, typeText, leadingInts]
  -- The other three categories take a size.
  all_goals
    rcases args with _ | ⟨n | s, args⟩
    case nil => simp [parts, typeText, leadingInts, argTexts]
    case cons.int => simp [parts, typeText, leadingInts, Arg.isBlank, String.append_assoc]
    case cons.text =>
      trans name.toList ++ typeName ::
        (if isOption s then argTexts (.text s :: args) else Text.trim s :: argTexts args)
      · by_cases hs : isOption s <;> simp [parts, typeText, hs]
      · simp [textParts_eq, leadingInts, Arg.isBlank]

/-! ## Definitions -/

section
variable {v : Vendor} {token keyword : String} {category : TypeCategory}

theorem resolve_of_lookup (h : lookup v token = some (category, keyword)) (name : Option String)
    (args : List Arg) :
    resolve v name token args =
      .ok (Column.substitute v
        (" ".intercalate ((name.map Text.trim).toList ++ category.parts keyword args))) := by
  rw [resolve, Column.parse, h, ← Column.parts_withArgs]
  rfl

theorem resolve_of_unknown (h : lookup v token = none) (name : Option String) (args : List Arg) :
    resolve v name token args = .error (.unknownDataType (Text.trim token)) := by
  rw [resolve, Column.parse, h]
  rfl

/-- A name without a marker stands in front of what is resolved without it. -/
theorem resolve_named (v : Vendor) {name : String} (hname : Unmarked name) (token : String)
    (args : List Arg) :
    resolve v (some name) token args =
      (resolve v none token args).map (Text.trim name ++ " " ++ ·) := by
  cases h : lookup v token with
  | none => rw [resolve_of_unknown h, resolve_of_unknown h, map_error]
  | some found =>
    rcases found with ⟨category, keyword⟩
    rw [resolve_of_lookup h, resolve_of_lookup h, map_ok]
    simp only [Option.map_some, Option.map_none, Option.toList_some, Option.toList_none,
      List.singleton_append, List.nil_append, TypeCategory.parts]
    rw [String.intercalate_cons_cons, Column.substitute_spaced,
      Column.substitute_of_unmarked v hname.trim]

theorem typeText_plain (h : keyword ∈ sharedKeywords category ++ vendorKeywords v category)
    (sizes : List Nat) :
    ' ' ∉ (keyword ++ category.sizeText sizes).toList ∧
      '_' ∉ (keyword ++ category.sizeText sizes).toList := by
  have hdigits (n : Nat) : ' ' ∉ Nat.toDigits 10 n := fun hblank =>
    absurd (Nat.isDigit_of_mem_toDigits (by decide) (by decide) hblank) (by decide)
  have hsize : ' ' ∉ (category.sizeText sizes).toList ∧ '_' ∉ (category.sizeText sizes).toList := by
    cases category <;> cases sizes <;> simp [TypeCategory.sizeText, hdigits]
  have hkeyword := (keyword_plain h).1
  simp [hkeyword, hsize]

theorem intercalate_cons (s : String) (texts : List String) :
    " ".intercalate (s :: texts) = s ++ String.join (texts.map (" " ++ ·)) := by
  induction texts generalizing s with
  | nil => simp
  | cons t texts ih =>
    rw [String.intercalate_cons_cons, ih, List.map_cons, String.join_cons]
    simp only [String.append_assoc]

/-- What stands behind a type: every argument that is not blank, behind one blank, with its markers
replaced. -/
def optionText (v : Vendor) (args : List Arg) : String :=
  String.join ((args.filter (!·.isBlank)).map fun a => " " ++ Column.substitute v a.toText)

def TypeCategory.definition (v : Vendor) (category : TypeCategory) (keyword : String)
    (args : List Arg) : String :=
  keyword ++ category.sizeText (category.sizes args) ++
    (if category.keepsBlank args then " " else "") ++
      optionText v (args.drop (category.sizes args).length)

theorem resolve_eq (h : lookup v token = some (category, keyword)) (args : List Arg) :
    resolve v none token args = .ok (category.definition v keyword args) := by
  have hplain := typeText_plain (mem_of_lookup h).1 (category.sizes args)
  have htype : Column.substitute v (keyword ++ category.sizeText (category.sizes args)) =
      keyword ++ category.sizeText (category.sizes args) :=
    Column.substitute_of_unmarked v (unmarked_of_underscore hplain.2)
  have hempty : Column.substitute v "" = "" := Column.substitute_of_unmarked v (by decide)
  rw [resolve_of_lookup h, Option.map_none, Option.toList_none, List.nil_append,
    Column.substitute_intercalate, TypeCategory.parts, List.map_cons, htype, intercalate_cons,
    TypeCategory.definition, optionText, argTexts_eq]
  by_cases hblank : category.keepsBlank args = true
  · simp [hblank, hempty, String.append_assoc, Function.comp_def]
  · simp [hblank, Function.comp_def]

/-! ## Blank arguments put in and left out -/

theorem map_leadingInts (room : Nat) (args : List Arg) :
    (leadingInts room args).map Arg.int ++ args.drop (leadingInts room args).length = args := by
  induction room generalizing args with
  | zero => rfl
  | succ room ih =>
    rcases args with _ | ⟨n | s, args⟩
    · rfl
    · exact congrArg (Arg.int n :: ·) (ih args)
    · rfl

/-- Behind the integers that a type takes, it takes what it still has room for. -/
theorem leadingInts_behind (room : Nat) (args kept : List Arg) :
    leadingInts room ((leadingInts room args).map Arg.int ++ kept) =
      leadingInts room args ++ leadingInts (room - (leadingInts room args).length) kept := by
  induction room generalizing args with
  | zero => rfl
  | succ room ih =>
    rcases args with _ | ⟨n | s, args⟩
    · rfl
    · simp [leadingInts, ih]
    · rfl

theorem TypeCategory.keepsBlank_eq_false {args : List Arg} (h : category.sizes args ≠ []) :
    category.keepsBlank args = false := by
  rcases args with _ | ⟨n | s, args⟩
  · simp [keepsBlank]
  · simp [keepsBlank, Arg.isBlank]
  · exact absurd (by cases category <;> rfl) h

theorem optionText_append (v : Vendor) (as bs : List Arg) :
    optionText v (as ++ bs) = optionText v as ++ optionText v bs := by
  simp [optionText, String.join_append]

/-- Blank arguments behind the integers of a type matter to its definition only if they keep another
integer from being one, or stand in front of everything. -/
theorem TypeCategory.definition_eq_iff
    (h : keyword ∈ sharedKeywords category ++ vendorKeywords v category) (args : List Arg)
    {kept : List Arg}
    (hkept : kept.filter (!·.isBlank) =
      (args.drop (category.sizes args).length).filter (!·.isBlank)) :
    category.definition v keyword ((category.sizes args).map Arg.int ++ kept) =
        category.definition v keyword args ↔
      category.sizes ((category.sizes args).map Arg.int ++ kept) = category.sizes args ∧
        category.keepsBlank ((category.sizes args).map Arg.int ++ kept) =
          category.keepsBlank args := by
  let sizes := category.sizes args
  let more := leadingInts (category.room - sizes.length) kept
  have hsizes : category.sizes (sizes.map Arg.int ++ kept) = sizes ++ more :=
    leadingInts_behind category.room args kept
  have hrest : (sizes.map Arg.int ++ kept).drop (sizes ++ more).length = kept.drop more.length := by
    have hlength : sizes.length = (sizes.map Arg.int).length := (List.length_map Arg.int).symm
    rw [List.length_append, hlength, List.drop_length_add_append]
  have hoptions : optionText v (args.drop sizes.length) =
      optionText v (more.map Arg.int) ++ optionText v (kept.drop more.length) := by
    rw [← optionText_append, map_leadingInts, optionText, optionText, hkept]
  change category.definition v keyword (sizes.map Arg.int ++ kept) = _ ↔
    category.sizes (sizes.map Arg.int ++ kept) = sizes ∧
      category.keepsBlank (sizes.map Arg.int ++ kept) = _
  rw [definition, definition, hsizes, hrest, show category.sizes args = sizes from rfl, hoptions]
  by_cases hmore : more = []
  · have hblank : ∀ b c : Bool, (if b then " " else "") = (if c then " " else "") ↔ b = c := by
      decide
    have hnone : optionText v [] = "" := rfl
    rw [hmore, List.append_nil, List.map_nil, hnone, String.empty_append, String.append_left_inj,
      String.append_right_inj, hblank]
    exact (and_iff_right rfl).symm
  · have hshown : category.keepsBlank (sizes.map Arg.int ++ kept) = false :=
      keepsBlank_eq_false (by simp [hsizes, hmore])
    refine iff_of_false (fun heq => ?_) fun hsame => hmore (by simpa using hsame.1)
    have hblank : ' ' ∈ (optionText v (more.map Arg.int)).toList := by
      cases hcases : more with
      | nil => exact absurd hcases hmore
      | cons n more => simp [optionText, Arg.isBlank]
    -- One of the integers has moved into the type, which has no blank in it.
    have htype : keyword ++ category.sizeText (sizes ++ more) =
        keyword ++ category.sizeText sizes ++ (if category.keepsBlank args then " " else "") ++
          optionText v (more.map Arg.int) := by
      rw [hshown, ← String.append_assoc, String.append_left_inj] at heq
      simpa using heq
    refine (typeText_plain h (sizes ++ more)).1 ?_
    rw [htype, String.toList_append]
    exact List.mem_append_right _ hblank

end

/-! ## Columns -/

theorem column_of_named (vendor : Option Vendor) {name token : String} (hname : Text.trim name ≠ "")
    (htoken : Action.ofToken? token = none) (args : List Arg) :
    column vendor name token args =
      (required vendor >>= fun v => resolve v (some (Text.trim name)) token args) := by
  simp [column, hname, htoken]

/-- A column is its name, its type with the integers that it takes, and every other argument that is
not blank, in order, each behind one blank and with its markers replaced.  No marker is left, and no
argument shows whether it is a literal or an option.  A blank argument shows only as an additional
blank, where it stands in front and the type takes a size; otherwise blank arguments may be put in
or left out, unless that makes an integer one of those that the type takes. -/
theorem column_shows_arguments {v : Vendor} {name token keyword : String} {category : TypeCategory}
    (hname : Text.trim name ≠ "") (hunmarked : Unmarked name)
    (hlookup : lookup v token = some (category, keyword)) (args : List Arg) :
    let sizes := category.sizes args
    let rest := args.drop sizes.length
    args = sizes.map .int ++ rest ∧
      ∃ d, column (some v) name token args = .ok d ∧ Unmarked d ∧
        d = Text.trim name ++ " " ++
          (keyword ++ category.sizeText sizes ++ (if category.keepsBlank args then " " else "") ++
            String.join ((rest.filter (!·.isBlank)).map fun a =>
              " " ++ Column.substitute v a.toText)) ∧
        ∀ kept : List Arg, kept.filter (!·.isBlank) = rest.filter (!·.isBlank) →
          (column (some v) name token (sizes.map .int ++ kept) = .ok d ↔
            category.sizes (sizes.map .int ++ kept) = sizes ∧
              category.keepsBlank (sizes.map .int ++ kept) = category.keepsBlank args) := by
  intro sizes rest
  have hcolumn (args : List Arg) : column (some v) name token args =
      .ok (Text.trim name ++ " " ++ category.definition v keyword args) := by
    rw [column_of_named _ hname (ofToken?_of_lookup hlookup), required, ok_bind,
      resolve_named v hunmarked.trim, resolve_eq hlookup, map_ok, Text.trim_trim]
  have hsubstituted : Text.trim name ++ " " ++ category.definition v keyword args =
      Column.substitute v (" ".intercalate (Text.trim name :: category.parts keyword args)) := by
    have hresolved := resolve_of_lookup hlookup (some name) args
    rw [resolve_named v hunmarked, resolve_eq hlookup, map_ok] at hresolved
    exact Except.ok.inj hresolved
  refine ⟨(map_leadingInts ..).symm, _, hcolumn args, ?_, ?_, fun kept hkept => ?_⟩
  · rw [hsubstituted]
    exact Column.unmarked_substitute ..
  · rw [TypeCategory.definition, optionText]
  · rw [hcolumn, Except.ok.injEq, String.append_right_inj]
    exact TypeCategory.definition_eq_iff (mem_of_lookup hlookup).1 args hkept

/-- An option, a blank argument, which may be left out, and a marker. -/
theorem column_shows_arguments_identity :
    let args : List Arg := [.int 11, .text "NOT NULL", .text " ", .text "__auto__"]
    Text.trim " id " ≠ "" ∧ Unmarked " id " ∧ lookup .mySql " int " = some (.wholeNumber, "INT") ∧
      column (some .mySql) " id " " int " args = .ok "id INT(11) NOT NULL AUTO_INCREMENT" ∧
      column (some .mySql) " id " " int " [.int 11, .text "NOT NULL", .text "__auto__"] =
        column (some .mySql) " id " " int " args := by
  intro args
  have hname : Text.trim " id " ≠ "" := by decide
  have hunmarked : Unmarked " id " := by decide
  have hlookup : lookup .mySql " int " = some (.wholeNumber, "INT") := by decide +kernel
  obtain ⟨-, d, hd, -, htext, hkept⟩ := column_shows_arguments hname hunmarked hlookup args
  have hshown : d = "id INT(11) NOT NULL AUTO_INCREMENT" := htext.trans (by decide +kernel)
  have hleft := (hkept [.text "NOT NULL", .text "__auto__"] (by decide)).2 (by decide)
  exact ⟨hname, hunmarked, hlookup, hshown ▸ hd, hleft.trans hd.symm⟩

/-- The blank argument in front of a whole number is not left out. -/
theorem column_shows_blank :
    lookup .mySql "INT" = some (.wholeNumber, "INT") ∧
      column (some .mySql) "a" "INT" [.text "NOT NULL"] = .ok "a INT NOT NULL" ∧
      column (some .mySql) "a" "INT" [.text "", .text "NOT NULL"] = .ok "a INT  NOT NULL" := by
  decide +kernel

end Schema

end SqlAssembly
