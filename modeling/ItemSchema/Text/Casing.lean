import ItemSchema.Text.Lowercase

/-! Comparison of names that ignores case.

Two ASCII names are compared letter by letter. As soon as either name has
another character, the lowercase mappings of all characters are compared as one
sequence, so a mapping may change the length.
-/

set_option autoImplicit false

namespace ItemSchema.Text

def isAscii (text : String) : Bool :=
  text.toList.all (·.toNat < 0x80)

/-- The lowercase mappings of all characters of a text, in order. -/
def fold (text : String) : List Char :=
  text.toList.flatMap lowercase

def equalsIgnoringCase (a b : String) : Bool :=
  if isAscii a && isAscii b then a.toList.map Char.toLower == b.toList.map Char.toLower
  else fold a == fold b

/-- Every character is mapped to something. -/
theorem fold_eq_nil_iff (text : String) : fold text = [] ↔ text = "" := by
  have mapped : ∀ c, lowercase c ≠ [] := by
    intro c
    unfold lowercase
    split
    · simp
    · split <;> simp
  rw [fold, ← String.toList_eq_nil_iff]
  cases text.toList with
  | nil => simp
  | cons c rest => simp [mapped c]

theorem flatMap_lowercase_of_ascii (chars : List Char) (ascii : chars.all (·.toNat < 0x80)) :
    chars.flatMap lowercase = chars.map Char.toLower := by
  induction chars with
  | nil => rfl
  | cons c rest ih =>
    simp only [List.all_cons, Bool.and_eq_true, decide_eq_true_eq] at ascii
    rw [List.flatMap_cons, List.map_cons, ih ascii.2]
    simp [lowercase, ascii.1]

/-- The mapping of an ASCII text is its letter by letter lowercase. -/
theorem fold_of_isAscii (text : String) (ascii : isAscii text) :
    fold text = text.toList.map Char.toLower :=
  flatMap_lowercase_of_ascii text.toList ascii

/-- Both ways of comparing come to comparing the mappings. -/
theorem equalsIgnoringCase_iff (a b : String) : equalsIgnoringCase a b ↔ fold a = fold b := by
  unfold equalsIgnoringCase
  split
  · next ascii =>
    rw [Bool.and_eq_true] at ascii
    rw [fold_of_isAscii a ascii.1, fold_of_isAscii b ascii.2, beq_iff_eq]
  · exact beq_iff_eq

end ItemSchema.Text
