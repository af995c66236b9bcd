/-! Blank characters, trimming, and names that hold nothing but blanks.

A character is blank when the Unicode property `White_Space` holds of it. The
first and last characters of a trimmed text are never blank, and trimming twice
changes nothing more.
-/

set_option autoImplicit false

namespace ItemSchema.Text

/-- The code points with the property `White_Space`, as closed ranges in increasing order. -/
def blankRanges : List (Nat × Nat) :=
  [(0x0009, 0x000D), (0x0020, 0x0020), (0x0085, 0x0085), (0x00A0, 0x00A0), (0x1680, 0x1680),
   (0x2000, 0x200A), (0x2028, 0x2029), (0x202F, 0x202F), (0x205F, 0x205F), (0x3000, 0x3000)]

def isBlankChar (c : Char) : Bool :=
  blankRanges.any fun range => range.1 ≤ c.toNat && c.toNat ≤ range.2

def dropBlankEnd : List Char → List Char
  | [] => []
  | c :: rest =>
      match dropBlankEnd rest with
      | [] => if isBlankChar c then [] else [c]
      | kept => c :: kept

def trimChars (chars : List Char) : List Char :=
  dropBlankEnd (chars.dropWhile isBlankChar)

def trim (text : String) : String :=
  String.ofList (trimChars text.toList)

/-- A text is blank when no character of it is left after trimming. -/
def isBlank (text : String) : Bool :=
  text.toList.all isBlankChar

/-- The trimmed name, unless nothing is left of it. -/
def trimmed? (name : String) : Option String :=
  if isBlank name then none else some (trim name)

/-- A name as given, unless it is blank. -/
def nonBlank? (name : String) : Option String :=
  if isBlank name then none else some name

theorem dropBlankEnd_eq_nil_iff (chars : List Char) :
    dropBlankEnd chars = [] ↔ chars.all isBlankChar := by
  induction chars with
  | nil => simp [dropBlankEnd]
  | cons c rest ih =>
    cases h : dropBlankEnd rest with
    | nil =>
      have blank : rest.all isBlankChar = true := ih.mp h
      cases hc : isBlankChar c <;> simp [dropBlankEnd, h, hc, blank]
    | cons d kept =>
      have notBlank : ¬ rest.all isBlankChar = true := fun all => by simp [ih.mpr all] at h
      simp only [dropBlankEnd, h, List.all_cons, Bool.and_eq_true]
      exact ⟨fun same => by simp at same, fun all => absurd all.2 notBlank⟩

theorem dropBlankEnd_append_blank (chars blanks : List Char) (blank : blanks.all isBlankChar) :
    dropBlankEnd (chars ++ blanks) = dropBlankEnd chars := by
  induction chars with
  | nil => simpa [dropBlankEnd] using (dropBlankEnd_eq_nil_iff blanks).mpr blank
  | cons c rest ih => simp [dropBlankEnd, ih]

theorem trimChars_eq_nil_iff (chars : List Char) :
    trimChars chars = [] ↔ chars.all isBlankChar := by
  rw [trimChars, dropBlankEnd_eq_nil_iff]
  induction chars with
  | nil => simp
  | cons c rest ih =>
    cases h : isBlankChar c with
    | false => simp [List.dropWhile, h]
    | true => simpa [List.dropWhile, h] using ih

theorem dropBlankEnd_of_getLast {chars : List Char}
    (solid : ∀ c, chars.getLast? = some c → isBlankChar c = false) : dropBlankEnd chars = chars := by
  induction chars with
  | nil => rfl
  | cons c rest ih =>
    cases rest with
    | nil => simp [dropBlankEnd, solid c rfl]
    | cons d rest =>
      rw [dropBlankEnd, ih fun last isLast => solid last (by simpa using isLast)]

/-- A text without a blank at either end is left as it is. -/
theorem trimChars_of_ends {chars : List Char}
    (first : ∀ c, chars.head? = some c → isBlankChar c = false)
    (last : ∀ c, chars.getLast? = some c → isBlankChar c = false) : trimChars chars = chars := by
  have kept : chars.dropWhile isBlankChar = chars := by
    cases chars with
    | nil => rfl
    | cons c rest => simp [first c rfl]
  rw [trimChars, kept, dropBlankEnd_of_getLast last]

theorem trimChars_blank_append {blanks : List Char} (blank : blanks.all isBlankChar)
    (chars : List Char) : trimChars (blanks ++ chars) = trimChars chars := by
  rw [trimChars, List.dropWhile_append_of_pos (List.all_eq_true.mp blank), trimChars]

theorem trimChars_append_blank (chars : List Char) {blanks : List Char}
    (blank : blanks.all isBlankChar) : trimChars (chars ++ blanks) = trimChars chars := by
  rw [trimChars, List.dropWhile_append]
  split
  · next none =>
    rw [List.isEmpty_iff] at none
    rw [trimChars, none]
    exact (trimChars_eq_nil_iff blanks).mpr blank
  · exact dropBlankEnd_append_blank _ _ blank

/-- Blanks on either side do not count. -/
theorem trimChars_padded {before after : List Char} (blankBefore : before.all isBlankChar)
    (blankAfter : after.all isBlankChar) (chars : List Char) :
    trimChars (before ++ chars ++ after) = trimChars chars := by
  rw [trimChars_append_blank _ blankAfter, trimChars_blank_append blankBefore]

theorem exists_eq_dropBlankEnd_append (chars : List Char) :
    ∃ blanks, blanks.all isBlankChar ∧ chars = dropBlankEnd chars ++ blanks := by
  induction chars with
  | nil => exact ⟨[], rfl, rfl⟩
  | cons c rest ih =>
    obtain ⟨blanks, blank, split⟩ := ih
    cases kept : dropBlankEnd rest with
    | nil =>
      have allBlank : rest.all isBlankChar := (dropBlankEnd_eq_nil_iff rest).mp kept
      cases isBlank : isBlankChar c with
      | false => exact ⟨rest, allBlank, by simp [dropBlankEnd, kept, isBlank]⟩
      | true => exact ⟨c :: rest, by simp [isBlank, allBlank], by simp [dropBlankEnd, kept, isBlank]⟩
    | cons d kept' =>
      refine ⟨blanks, blank, ?_⟩
      rw [dropBlankEnd, kept, List.cons_append, ← kept, ← split]

/-- A text is what trimming leaves of it between two runs of blanks. -/
theorem exists_eq_padded_trimChars (chars : List Char) :
    ∃ before after, before.all isBlankChar ∧ after.all isBlankChar ∧
      chars = before ++ trimChars chars ++ after := by
  obtain ⟨after, blank, split⟩ := exists_eq_dropBlankEnd_append (chars.dropWhile isBlankChar)
  refine ⟨chars.takeWhile isBlankChar, after, ?_, blank, ?_⟩
  · exact List.all_takeWhile
  · rw [trimChars, List.append_assoc, ← split, List.takeWhile_append_dropWhile]

@[simp] theorem trimChars_trimChars (chars : List Char) :
    trimChars (trimChars chars) = trimChars chars := by
  obtain ⟨before, after, blankBefore, blankAfter, split⟩ := exists_eq_padded_trimChars chars
  have same := trimChars_padded blankBefore blankAfter (trimChars chars)
  rw [← split] at same
  exact same.symm

@[simp] theorem trim_trim (text : String) : trim (trim text) = trim text := by
  simp [trim]

theorem trim_padded {before after : String} (blankBefore : isBlank before) (blankAfter : isBlank after)
    (text : String) : trim (before ++ text ++ after) = trim text := by
  simp only [trim, String.toList_append, trimChars_padded blankBefore blankAfter]

/-- A text is blank exactly when trimming leaves nothing. -/
theorem isBlank_iff_trim_eq_empty (text : String) : isBlank text ↔ trim text = "" := by
  rw [isBlank, trim, ← trimChars_eq_nil_iff]
  constructor
  · intro none; rw [none]
  · intro same
    have lists := congrArg String.toList same
    simpa using lists

theorem trimmed?_eq_some_iff (name trimmed : String) :
    trimmed? name = some trimmed ↔ ¬ isBlank name ∧ trim name = trimmed := by
  unfold trimmed?
  cases blank : isBlank name <;> simp

/-- A trimmed name is its own trimmed form. -/
theorem trimmed?_of_trimmed? {name trimmed : String} (named : trimmed? name = some trimmed) :
    trimmed? trimmed = some trimmed := by
  obtain ⟨present, rfl⟩ := (trimmed?_eq_some_iff name trimmed).mp named
  rw [trimmed?_eq_some_iff, isBlank_iff_trim_eq_empty, trim_trim, ← isBlank_iff_trim_eq_empty]
  exact ⟨present, rfl⟩

/-- Passing over blank names keeps the others as they are given. -/
theorem bind_nonBlank? (text : Option String) : text.bind nonBlank? = text.filter (!isBlank ·) := by
  cases text with
  | none => rfl
  | some given => cases blank : isBlank given <;> simp [nonBlank?, blank, Option.filter]

end ItemSchema.Text
