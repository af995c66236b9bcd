import ItemSchema.Embedded.QueryColumn

/-! The grammar of column references, and blanks inside the braces.

A column is written from its parts in a fixed order, and peeling the parts off
again leaves the name, but for one reading: an alias, a colon and a name that is a
join modifier read as a column with its modifier. Blanks around a column never
count. Inside the braces they count at one place: after a join modifier, which is
then not seen as one.
-/

set_option autoImplicit false

namespace ItemSchema.QueryColumn

open Text (isBlankChar trimChars)

section Peeling

variable {mark modifier : Char} {before after text rest blanks : List Char}

theorem afterFirst?_eq_none (free : mark ∉ text) : afterFirst? mark text = none := by
  induction text with
  | nil => rfl
  | cons c rest ih =>
    simp only [List.mem_cons, not_or] at free
    simp [afterFirst?, Ne.symm free.1, ih free.2]

theorem afterFirst?_append (mark : Char) (first second : List Char) :
    afterFirst? mark (first ++ second) =
      ((afterFirst? mark first).map (· ++ second)).or (afterFirst? mark second) := by
  induction first with
  | nil => rfl
  | cons c rest ih =>
    by_cases same : c = mark
    · simp [afterFirst?, same]
    · simp [afterFirst?, same, ih]

theorem exists_eq_of_afterFirst? (found : afterFirst? mark text = some rest) :
    ∃ before, text = before ++ mark :: rest := by
  induction text with
  | nil => cases found
  | cons c tail ih =>
    rw [afterFirst?] at found
    split at found
    · next same =>
      cases found
      exact ⟨[], by simp [same]⟩
    · obtain ⟨before, rfl⟩ := ih found
      exact ⟨c :: before, rfl⟩

theorem dropAlias_of_dot (dot : afterFirst? '.' text = some rest) : dropAlias text = rest := by
  rw [dropAlias, dot]

theorem dropAlias_of_colon (noDot : afterFirst? '.' text = none)
    (colon : afterFirst? ':' text = some rest)
    (column : ∀ c, isJoinModifier c → rest ≠ [c]) : dropAlias text = rest := by
  rw [dropAlias, noDot, colon]
  match rest, column with
  | [], _ => rfl
  | [c], column =>
    have isColumn : isJoinModifier c = false := by
      rw [← Bool.not_eq_true]
      exact fun isModifier => column c isModifier rfl
    simp [isColumn]
  | _ :: _ :: _, _ => rfl

theorem dropAlias_of_join (noDot : afterFirst? '.' text = none)
    (colon : afterFirst? ':' text = some [modifier]) (join : isJoinModifier modifier) :
    dropAlias text = text := by
  simp [dropAlias, noDot, colon, join]

theorem dropAlias_of_none (noDot : afterFirst? '.' text = none)
    (noColon : afterFirst? ':' text = none) : dropAlias text = text := by
  rw [dropAlias, noDot, noColon]

/-- A text that ends in a colon and a join modifier. -/
def EndsInJoin (text : List Char) : Prop :=
  ∃ name modifier, isJoinModifier modifier ∧ text = name ++ [':', modifier]

theorem dropJoin_append (text : List Char) (join : isJoinModifier modifier) :
    dropJoin (text ++ [':', modifier]) = text := by
  simp [dropJoin, join]

theorem dropJoin_of_not_endsInJoin (without : ¬ EndsInJoin text) : dropJoin text = text := by
  rw [dropJoin]
  split
  · next modifier rest reversed =>
    have written : text = rest.reverse ++ [':', modifier] := by
      simpa using congrArg List.reverse reversed
    rw [if_neg fun join => without ⟨rest.reverse, modifier, join, written⟩]
  · rfl

theorem EndsInJoin.append (before : List Char) (ends : EndsInJoin text) : EndsInJoin (before ++ text) := by
  obtain ⟨name, modifier, join, rfl⟩ := ends
  exact ⟨before ++ name, modifier, join, by simp⟩

theorem not_endsInJoin_of_not_mem (free : ':' ∉ text) : ¬ EndsInJoin text := by
  rintro ⟨name, modifier, -, rfl⟩
  simp at free

theorem dropLanguage_append (plain : '[' ∉ text) (rest : List Char) :
    dropLanguage (text ++ rest) = text ++ dropLanguage rest := by
  rw [dropLanguage, List.takeWhile_append_of_pos, dropLanguage]
  intro c member
  simpa using fun same : c = '[' => plain (same ▸ member)

theorem dropLanguage_of_not_mem (plain : '[' ∉ text) : dropLanguage text = text := by
  simpa [dropLanguage] using dropLanguage_append plain []

theorem dropLanguage_append_of_mem (qualified : '[' ∈ text) (rest : List Char) :
    dropLanguage (text ++ rest) = dropLanguage text := by
  unfold dropLanguage
  induction text with
  | nil => cases qualified
  | cons c text ih =>
    by_cases same : c = '['
    · simp [same]
    · have later : '[' ∈ text := (List.mem_cons.mp qualified).resolve_left (Ne.symm same)
      simpa [same] using ih later

/-- A text without its alias, where a colon ends one whatever follows it. -/
def beyondAlias (text : List Char) : List Char :=
  ((afterFirst? '.' text).or (afterFirst? ':' text)).getD text

theorem dropJoin_dropAlias (without : ¬ EndsInJoin text) :
    dropJoin (dropAlias text) = beyondAlias text := by
  cases dot : afterFirst? '.' text with
  | some rest =>
    obtain ⟨before, rfl⟩ := exists_eq_of_afterFirst? dot
    have later : ¬ EndsInJoin rest := fun ends => without ((ends.append ['.']).append before)
    simp [dropAlias_of_dot dot, dropJoin_of_not_endsInJoin later, beyondAlias, dot]
  | none =>
    cases colon : afterFirst? ':' text with
    | some rest =>
      obtain ⟨before, rfl⟩ := exists_eq_of_afterFirst? colon
      have later : ¬ EndsInJoin rest := fun ends => without ((ends.append [':']).append before)
      have column : ∀ c, isJoinModifier c → rest ≠ [c] := by
        rintro c join rfl
        exact without ⟨before, c, join, rfl⟩
      simp [dropAlias_of_colon dot colon column, dropJoin_of_not_endsInJoin later, beyondAlias, dot,
        colon]
    | none => simp [dropAlias_of_none dot colon, dropJoin_of_not_endsInJoin without, beyondAlias, dot, colon]

/-- A join modifier at the end is dropped, and what stands before it is told from an alias. -/
theorem dropJoin_dropAlias_append (text : List Char) (join : isJoinModifier modifier) :
    dropJoin (dropAlias (text ++ [':', modifier])) = beyondAlias text := by
  have undotted : '.' ∉ [':', modifier] := by
    rintro (_ | ⟨_, _ | ⟨_, none⟩⟩)
    · cases join
    · cases none
  have dots := afterFirst?_append '.' text [':', modifier]
  rw [afterFirst?_eq_none undotted, Option.or_none] at dots
  have colons := afterFirst?_append ':' text [':', modifier]
  rw [afterFirst?, if_pos rfl] at colons
  cases dot : afterFirst? '.' text with
  | some rest =>
    rw [dot, Option.map_some] at dots
    rw [dropAlias_of_dot dots, dropJoin_append rest join, beyondAlias, dot]
    rfl
  | none =>
    rw [dot, Option.map_none] at dots
    cases colon : afterFirst? ':' text with
    | some rest =>
      rw [colon, Option.map_some, Option.some_or] at colons
      have column : ∀ c, isJoinModifier c → rest ++ [':', modifier] ≠ [c] := by
        intro c _ same
        simpa using congrArg List.length same
      rw [dropAlias_of_colon dots colons column, dropJoin_append rest join, beyondAlias, dot, colon]
      rfl
    | none =>
      rw [colon, Option.map_none, Option.none_or] at colons
      rw [dropAlias_of_join dots colons join, dropJoin_append text join, beyondAlias, dot, colon]
      rfl

end Peeling

/-- A text with a brace before it, after it, or both. -/
def inBraces (opened closed : Bool) (inner : List Char) : List Char :=
  (if opened then [openingBrace] else []) ++ inner ++ (if closed then [closingBrace] else [])

/-- The characters of the feature that is named inside the braces. -/
def peel (inner : List Char) : List Char :=
  trimChars (dropLanguage (dropJoin (dropAlias inner)))

/-- A brace is never trimmed off, and where there is none the text itself has no blank. -/
theorem trimChars_inBraces {opened closed : Bool} {inner : List Char}
    (solidStart : opened = false → ∃ c, inner.head? = some c ∧ isBlankChar c = false)
    (solidEnd : closed = false → ∃ c, inner.getLast? = some c ∧ isBlankChar c = false) :
    trimChars (inBraces opened closed inner) = inBraces opened closed inner := by
  apply Text.trimChars_of_ends
  · intro c atStart
    cases opened with
    | true =>
      obtain rfl : openingBrace = c := by simpa [inBraces] using atStart
      rfl
    | false =>
      obtain ⟨first, isFirst, solid⟩ := solidStart rfl
      obtain rfl : first = c := by simpa [inBraces, isFirst] using atStart
      exact solid
  · intro c atEnd
    cases closed with
    | true =>
      obtain rfl : closingBrace = c := by simpa [inBraces] using atEnd
      rfl
    | false =>
      obtain ⟨last, isLast, solid⟩ := solidEnd rfl
      obtain rfl : last = c := by simpa [inBraces, isLast] using atEnd
      exact solid

theorem featureChars_inBraces (inner : List Char) :
    featureChars (inBraces true true inner) = peel inner := by
  have kept : trimChars (inBraces true true inner) = inBraces true true inner :=
    trimChars_inBraces (by simp) (by simp)
  rw [featureChars, kept]
  simp [inBraces, dropBraces, peel]

section Padding

variable {blanks text : List Char}

theorem not_mem_of_blank {c : Char} (blank : blanks.all isBlankChar) (solid : isBlankChar c = false) :
    c ∉ blanks := by
  intro member
  rw [List.all_eq_true.mp blank c member] at solid
  cases solid

theorem isBlankChar_of_isJoinModifier {c : Char} (join : isJoinModifier c) : isBlankChar c = false := by
  simp only [isJoinModifier, Bool.or_eq_true, decide_eq_true_eq] at join
  rcases join with (rfl | rfl) | rfl <;> rfl

theorem dropAlias_blank_append (blank : blanks.all isBlankChar) (text : List Char) :
    ∃ kept, kept.all isBlankChar ∧ dropAlias (blanks ++ text) = kept ++ dropAlias text := by
  have dots := afterFirst?_append '.' blanks text
  have colons := afterFirst?_append ':' blanks text
  rw [afterFirst?_eq_none (not_mem_of_blank blank rfl), Option.map_none, Option.none_or] at dots colons
  cases dot : afterFirst? '.' text with
  | some rest => exact ⟨[], rfl, by simp [dropAlias, dots, dot]⟩
  | none =>
    cases colon : afterFirst? ':' text with
    | none => exact ⟨blanks, blank, by simp [dropAlias, dots, dot, colons, colon]⟩
    | some rest =>
      by_cases join : ∃ c, isJoinModifier c ∧ rest = [c]
      · obtain ⟨c, join, rfl⟩ := join
        refine ⟨blanks, blank, ?_⟩
        rw [dropAlias_of_join (dots.trans dot) (colons.trans colon) join, dropAlias_of_join dot colon join]
      · have column : ∀ c, isJoinModifier c → rest ≠ [c] := fun c isJoin same => join ⟨c, isJoin, same⟩
        refine ⟨[], rfl, ?_⟩
        rw [dropAlias_of_colon (dots.trans dot) (colons.trans colon) column,
          dropAlias_of_colon dot colon column]
        rfl

theorem dropJoin_blank_append (blank : blanks.all isBlankChar) (text : List Char) :
    dropJoin (blanks ++ text) = blanks ++ dropJoin text := by
  by_cases ends : EndsInJoin text
  · obtain ⟨name, modifier, join, rfl⟩ := ends
    rw [← List.append_assoc, dropJoin_append _ join, dropJoin_append _ join]
  · rw [dropJoin_of_not_endsInJoin ends, dropJoin_of_not_endsInJoin]
    rintro ⟨name, modifier, join, same⟩
    rcases List.append_eq_append_iff.mp same with ⟨between, -, isEnd⟩ | ⟨between, isBlank, isEnd⟩
    · exact ends ⟨between, modifier, join, isEnd⟩
    · cases between with
      | nil => exact ends ⟨[], modifier, join, isEnd.symm⟩
      | cons c more =>
        have colon : ':' = c := (List.cons.inj isEnd).1
        apply not_mem_of_blank blank (rfl : isBlankChar ':' = false)
        rw [isBlank, colon]
        simp

/-- Blanks before a column count neither for its alias nor for its name. -/
theorem peel_blank_append (blank : blanks.all isBlankChar) (text : List Char) :
    peel (blanks ++ text) = peel text := by
  obtain ⟨kept, blankKept, dropped⟩ := dropAlias_blank_append blank text
  rw [peel, dropped, dropJoin_blank_append blankKept,
    dropLanguage_append (not_mem_of_blank blankKept rfl), Text.trimChars_blank_append blankKept, peel]

theorem not_endsInJoin_append_blank (text : List Char) (some : blanks ≠ [])
    (blank : blanks.all isBlankChar) : ¬ EndsInJoin (text ++ blanks) := by
  rintro ⟨name, modifier, join, same⟩
  obtain ⟨earlier, last, rfl⟩ := (List.eq_nil_or_concat blanks).resolve_left some
  have isLast : last = modifier := by simpa using congrArg List.getLast? same
  apply not_mem_of_blank blank (isBlankChar_of_isJoinModifier join)
  simp [isLast]

theorem beyondAlias_append_blank (text : List Char) (blank : blanks.all isBlankChar) :
    beyondAlias (text ++ blanks) = beyondAlias text ++ blanks := by
  have dots := afterFirst?_append '.' text blanks
  have colons := afterFirst?_append ':' text blanks
  rw [afterFirst?_eq_none (not_mem_of_blank blank rfl), Option.or_none] at dots colons
  rw [beyondAlias, dots, colons, beyondAlias]
  cases afterFirst? '.' text with
  | some rest => rfl
  | none => cases afterFirst? ':' text <;> rfl

theorem trimChars_dropLanguage_append_blank (text : List Char) (blank : blanks.all isBlankChar) :
    trimChars (dropLanguage (text ++ blanks)) = trimChars (dropLanguage text) := by
  by_cases qualified : '[' ∈ text
  · rw [dropLanguage_append_of_mem qualified]
  · rw [dropLanguage_append qualified, dropLanguage_of_not_mem (not_mem_of_blank blank rfl),
      dropLanguage_of_not_mem qualified, Text.trimChars_append_blank text blank]

/-- Blanks after a column are read like a join modifier: nothing else at its end is one then. -/
theorem peel_append_blank (text : List Char) (some : blanks ≠ []) (blank : blanks.all isBlankChar) :
    peel (text ++ blanks) = trimChars (dropLanguage (beyondAlias text)) := by
  rw [peel, dropJoin_dropAlias (not_endsInJoin_append_blank text some blank),
    beyondAlias_append_blank text blank, trimChars_dropLanguage_append_blank _ blank]

end Padding

/-- The characters that set the parts of a column apart. -/
def marks : List Char := [openingBrace, closingBrace, '.', ':', '[', ']']

/-- The name of a column or an alias. -/
structure Identifier where
  chars : List Char
  nonempty : chars ≠ []
  plain : ∀ c ∈ chars, isBlankChar c = false ∧ c ∉ marks

def Identifier.text (identifier : Identifier) : String := String.ofList identifier.chars

/-- Whether the name could be a join modifier as well. -/
def Identifier.isModifier (identifier : Identifier) : Bool :=
  match identifier.chars with
  | [c] => isJoinModifier c
  | _ => false

/-- A language may have blanks and square brackets in it, but no other marks. -/
structure Language where
  chars : List Char
  plain : ∀ c ∈ chars, c ∉ [openingBrace, closingBrace, '.', ':']

structure JoinModifier where
  letter : Char
  isModifier : isJoinModifier letter

structure Blanks where
  chars : List Char
  blank : chars.all isBlankChar

inductive AliasMark where
  | dot
  | colon

def AliasMark.char : AliasMark → Char
  | .dot => '.'
  | .colon => ':'

/-- The parts that a column is written from. -/
structure Column where
  before : Blanks
  -- whether there is an opening brace
  opened : Bool
  tableAlias : Option (Identifier × AliasMark)
  name : Identifier
  language : Option Language
  join : Option JoinModifier
  -- whether there is a closing brace
  closed : Bool
  after : Blanks

def aliasChars : Option (Identifier × AliasMark) → List Char
  | none => []
  | some (identifier, mark) => identifier.chars ++ [mark.char]

def languageChars : Option Language → List Char
  | none => []
  | some language => '[' :: language.chars ++ [']']

def joinChars : Option JoinModifier → List Char
  | none => []
  | some modifier => [':', modifier.letter]

namespace Column

/-- What stands between the braces. -/
def inner (column : Column) : List Char :=
  aliasChars column.tableAlias ++ (column.name.chars ++ languageChars column.language) ++
    joinChars column.join

def text (column : Column) : String :=
  String.ofList (column.before.chars ++ inBraces column.opened column.closed column.inner ++
    column.after.chars)

/-- The part that names the feature: the name, unless all there is besides it is an alias before a
colon and it could be a join modifier. -/
def feature (column : Column) : Identifier :=
  match column.tableAlias, column.language, column.join with
  | some (identifier, .colon), none, none =>
      if column.name.isModifier then identifier else column.name
  | _, _, _ => column.name

end Column

section Grammar

theorem Identifier.not_mem (identifier : Identifier) {mark : Char} (isMark : mark ∈ marks) :
    mark ∉ identifier.chars :=
  fun member => (identifier.plain mark member).2 isMark

theorem Identifier.trimChars_chars (identifier : Identifier) :
    trimChars identifier.chars = identifier.chars :=
  Text.trimChars_of_ends (fun c isFirst => (identifier.plain c (List.mem_of_head? isFirst)).1)
    fun c isLast => (identifier.plain c (List.mem_of_getLast? isLast)).1

theorem not_mem_languageChars {mark : Char} (isMark : mark = '.' ∨ mark = ':')
    (language : Option Language) : mark ∉ languageChars language := by
  cases language with
  | none => exact List.not_mem_nil
  | some language =>
    have inside : mark ∉ language.chars := fun member =>
      language.plain mark member (by rcases isMark with rfl | rfl <;> simp)
    rcases isMark with rfl | rfl <;> simpa [languageChars] using inside

theorem dropLanguage_languageChars (name : Identifier) (language : Option Language) :
    dropLanguage (name.chars ++ languageChars language) = name.chars := by
  rw [dropLanguage_append (name.not_mem (by simp [marks]))]
  cases language <;> simp [languageChars, dropLanguage]

/-- An alias is recognised by its mark, the first one there is. -/
theorem beyondAlias_aliasChars (tableAlias : Option (Identifier × AliasMark)) {rest : List Char}
    (noDot : '.' ∉ rest) (noColon : ':' ∉ rest) :
    beyondAlias (aliasChars tableAlias ++ rest) = rest := by
  match tableAlias with
  | none => simp [aliasChars, beyondAlias, afterFirst?_eq_none noDot, afterFirst?_eq_none noColon]
  | some (identifier, .dot) =>
    have noDotBefore : '.' ∉ identifier.chars := identifier.not_mem (by simp [marks])
    simp [aliasChars, AliasMark.char, beyondAlias, afterFirst?_append, afterFirst?_eq_none noDotBefore,
      afterFirst?]
  | some (identifier, .colon) =>
    have noDotBefore : '.' ∉ identifier.chars := identifier.not_mem (by simp [marks])
    have noColonBefore : ':' ∉ identifier.chars := identifier.not_mem (by simp [marks])
    simp [aliasChars, AliasMark.char, beyondAlias, afterFirst?_append, afterFirst?_eq_none noDotBefore,
      afterFirst?_eq_none noColonBefore, afterFirst?, afterFirst?_eq_none noDot]

theorem Identifier.isModifier_iff (identifier : Identifier) :
    identifier.isModifier ↔ ∃ c, isJoinModifier c ∧ identifier.chars = [c] := by
  unfold isModifier
  split
  · next c single => simp [single]
  · next many => simpa using fun c _ single => many c single

theorem EndsInJoin.split {text name : List Char} (ends : EndsInJoin (text ++ name)) (nonempty : name ≠ [])
    (noColon : ':' ∉ name) :
    ∃ before c, isJoinModifier c ∧ text = before ++ [':'] ∧ name = [c] := by
  obtain ⟨before, c, join, same⟩ := ends
  rcases List.append_eq_append_iff.mp same with ⟨between, -, rfl⟩ | ⟨between, rfl, isEnd⟩
  · simp at noColon
  · match between, isEnd with
    | [], isEnd =>
      rw [List.nil_append] at isEnd
      simp [← isEnd] at noColon
    | [_], isEnd =>
      obtain ⟨rfl, rfl⟩ := List.cons.inj isEnd
      exact ⟨before, c, join, rfl, rfl⟩
    | _ :: _ :: _, isEnd =>
      simp at isEnd
      exact absurd isEnd.2.2.2 nonempty

/-- Without a modifier of its own, a column ends in one only if its name is taken for one. -/
theorem exists_of_endsInJoin {tableAlias : Option (Identifier × AliasMark)} {name : Identifier}
    {language : Option Language}
    (ends : EndsInJoin (aliasChars tableAlias ++ (name.chars ++ languageChars language))) :
    ∃ identifier, tableAlias = some (identifier, .colon) ∧ language = none ∧ name.isModifier := by
  cases language with
  | some language =>
    obtain ⟨before, c, join, same⟩ := ends
    have isLast : ']' = c := by
      simpa [languageChars, List.getLast?_cons] using congrArg List.getLast? same
    rw [← isLast] at join
    cases join
  | none =>
    rw [languageChars, List.append_nil] at ends
    obtain ⟨before, c, join, aliased, single⟩ := ends.split name.nonempty (name.not_mem (by simp [marks]))
    have taken : name.isModifier := name.isModifier_iff.mpr ⟨c, join, single⟩
    match tableAlias with
    | none => simp [aliasChars] at aliased
    | some (identifier, .dot) => simp [aliasChars, AliasMark.char] at aliased
    | some (identifier, .colon) => exact ⟨identifier, rfl, rfl, taken⟩

/-- An alias, a colon and a name that could be a join modifier read as the alias alone. -/
theorem peel_alias_modifier (identifier name : Identifier) (taken : name.isModifier) :
    peel (identifier.chars ++ ':' :: name.chars) = identifier.chars := by
  obtain ⟨c, join, single⟩ := name.isModifier_iff.mp taken
  have noDot : '.' ∉ identifier.chars := identifier.not_mem (by simp [marks])
  have noColon : ':' ∉ identifier.chars := identifier.not_mem (by simp [marks])
  have noBracket : '[' ∉ identifier.chars := identifier.not_mem (by simp [marks])
  rw [peel, single, dropJoin_dropAlias_append _ join]
  rw [show beyondAlias identifier.chars = identifier.chars from
    beyondAlias_aliasChars none noDot noColon, dropLanguage_of_not_mem noBracket,
    identifier.trimChars_chars]

/-- Peeling takes an alias and a language off a name. -/
theorem trimChars_dropLanguage_beyondAlias (tableAlias : Option (Identifier × AliasMark))
    (name : Identifier) (language : Option Language) :
    trimChars (dropLanguage (beyondAlias
      (aliasChars tableAlias ++ (name.chars ++ languageChars language)))) = name.chars := by
  have noDot : '.' ∉ name.chars ++ languageChars language := by
    rw [List.mem_append, not_or]
    exact ⟨name.not_mem (by simp [marks]), not_mem_languageChars (.inl rfl) language⟩
  have noColon : ':' ∉ name.chars ++ languageChars language := by
    rw [List.mem_append, not_or]
    exact ⟨name.not_mem (by simp [marks]), not_mem_languageChars (.inr rfl) language⟩
  rw [beyondAlias_aliasChars tableAlias noDot noColon, dropLanguage_languageChars,
    name.trimChars_chars]

namespace Column

variable (column : Column)

/-- Whether the name is taken for a join modifier of the alias. -/
def IsTaken : Prop :=
  ∃ identifier, column.tableAlias = some (identifier, .colon) ∧ column.language = none ∧
    column.join = none ∧ column.name.isModifier

variable {column}

theorem feature_of_not_isTaken (apart : ¬ column.IsTaken) : column.feature = column.name := by
  unfold feature
  split
  · next identifier aliased unqualified alone =>
    exact if_neg fun taken => apart ⟨identifier, aliased, unqualified, alone, taken⟩
  · rfl

variable (column)

theorem peel_inner : peel column.inner = column.feature.chars := by
  by_cases taken : column.IsTaken
  · obtain ⟨identifier, aliased, unqualified, alone, taken⟩ := taken
    simpa [inner, feature, aliased, unqualified, alone, taken, aliasChars, AliasMark.char, languageChars,
      joinChars] using peel_alias_modifier identifier column.name taken
  · rw [feature_of_not_isTaken taken, peel, inner]
    cases alone : column.join with
    | some modifier =>
      rw [joinChars, dropJoin_dropAlias_append _ modifier.isModifier, trimChars_dropLanguage_beyondAlias]
    | none =>
      have without : ¬ EndsInJoin (aliasChars column.tableAlias ++
          (column.name.chars ++ languageChars column.language)) := by
        intro ends
        obtain ⟨identifier, aliased, unqualified, isModifier⟩ := exists_of_endsInJoin ends
        exact taken ⟨identifier, aliased, unqualified, alone, isModifier⟩
      rw [joinChars, List.append_nil, dropJoin_dropAlias without, trimChars_dropLanguage_beyondAlias]

theorem exists_inner_eq_cons :
    ∃ c rest, column.inner = c :: rest ∧ isBlankChar c = false ∧ c ≠ openingBrace := by
  have named : ∃ (identifier : Identifier) (rest : List Char),
      column.inner = identifier.chars ++ rest := by
    cases aliased : column.tableAlias with
    | none => exact ⟨column.name, _, by rw [inner, aliased, aliasChars, List.nil_append, List.append_assoc]⟩
    | some written =>
      exact ⟨written.1, _, by rw [inner, aliased, aliasChars, List.append_assoc, List.append_assoc]⟩
  obtain ⟨identifier, rest, begins⟩ := named
  obtain ⟨c, others, split⟩ := List.exists_cons_of_ne_nil identifier.nonempty
  have plain := identifier.plain c (by simp [split])
  exact ⟨c, others ++ rest, by rw [begins, split, List.cons_append], plain.1,
    fun same => plain.2 (by simp [same, marks])⟩

theorem exists_inner_eq_concat :
    ∃ rest c, column.inner = rest ++ [c] ∧ isBlankChar c = false ∧ c ≠ closingBrace := by
  cases joined : column.join with
  | some modifier =>
    refine ⟨aliasChars column.tableAlias ++ (column.name.chars ++ languageChars column.language) ++ [':'],
      modifier.letter, by simp [inner, joined, joinChars],
      isBlankChar_of_isJoinModifier modifier.isModifier, fun same => ?_⟩
    have join := modifier.isModifier
    rw [same] at join
    cases join
  | none =>
    cases qualified : column.language with
    | some language =>
      exact ⟨aliasChars column.tableAlias ++ (column.name.chars ++ '[' :: language.chars), ']',
        by simp [inner, joined, joinChars, qualified, languageChars], rfl, by decide⟩
    | none =>
      obtain ⟨others, c, split⟩ := (List.eq_nil_or_concat column.name.chars).resolve_left column.name.nonempty
      have plain := column.name.plain c (by simp [split])
      exact ⟨aliasChars column.tableAlias ++ others, c,
        by simp [inner, joined, joinChars, qualified, languageChars, split], plain.1,
        fun same => plain.2 (by simp [same, marks])⟩

theorem featureChars_text : featureChars column.text.toList = column.feature.chars := by
  obtain ⟨first, others, begins, solidFirst, notOpening⟩ := column.exists_inner_eq_cons
  obtain ⟨earlier, last, ends, solidLast, notClosing⟩ := column.exists_inner_eq_concat
  have isFirst : column.inner.head? = some first := by simp [begins]
  have isLast : column.inner.getLast? = some last := by simp [ends]
  have bare : dropBraces (trimChars (inBraces column.opened column.closed column.inner)) =
      column.inner := by
    rw [trimChars_inBraces (fun _ => ⟨first, isFirst, solidFirst⟩) fun _ => ⟨last, isLast, solidLast⟩]
    cases column.opened <;> cases column.closed <;>
      simp [inBraces, dropBraces, isFirst, isLast, notOpening, notClosing]
  rw [text, String.toList_ofList, featureChars,
    Text.trimChars_padded column.before.blank column.after.blank, bare]
  exact column.peel_inner

end Column

end Grammar

/-- A written column names the feature that its parts say, and asks for it on the table. -/
theorem column_names_feature (column : Column) :
    feature? column.text = some column.feature.text ∧
    ∀ (model : Model) (table : String) (occurrence : Occurrence),
      request? model table column.text occurrence =
        (model.ownerKind? (Text.trim table)).map fun ownerKind =>
          { ownerKind, owner := Text.trim table, feature := column.feature.text, inherited := true,
            occurrence := some occurrence } := by
  have named : feature? column.text = some column.feature.text := by
    rw [feature?, column.featureChars_text]
    split
    · next none => exact absurd none column.feature.nonempty
    · rfl
  refine ⟨named, fun model table occurrence => ?_⟩
  rw [request?, named, Option.bind_some, Request.detect?]

/-- That characters may stand in an identifier can be evaluated. -/
theorem Identifier.plain_of_all {chars : List Char}
    (each : chars.all fun c => !isBlankChar c && !marks.contains c) :
    ∀ c ∈ chars, isBlankChar c = false ∧ c ∉ marks := by
  simpa using each

/-- A column with all its parts, and one whose name could be a join modifier. -/
theorem column_names_feature_with_all_parts :
    let product : Identifier := ⟨['p'], by simp, Identifier.plain_of_all rfl⟩
    let column : Column := {
      before := ⟨[' '], rfl⟩
      opened := true
      tableAlias := some (product, .colon)
      name := ⟨"name".toList, by simp, Identifier.plain_of_all rfl⟩
      language := some ⟨"en us".toList, by simp [openingBrace, closingBrace]⟩
      join := some ⟨'o', rfl⟩
      closed := true
      after := ⟨[], rfl⟩ }
    let joined : Column :=
      { column with
        name := ⟨['o'], by simp, Identifier.plain_of_all rfl⟩
        language := none
        join := none }
    (column.text = " \x7bp:name[en us]:o\x7d" ∧ feature? column.text = some "name") ∧
      joined.text = " \x7bp:o\x7d" ∧ feature? joined.text = some "p" := by
  intro product column joined
  have written : column.text = " \x7bp:name[en us]:o\x7d" ∧ joined.text = " \x7bp:o\x7d" := by decide
  exact ⟨⟨written.1, (column_names_feature column).1⟩, written.2, (column_names_feature joined).1⟩

theorem feature?_of_featureChars_eq {first second : List Char}
    (same : featureChars first = featureChars second) :
    feature? (String.ofList first) = feature? (String.ofList second) := by
  simp only [feature?, String.toList_ofList, same]

/-- Blanks before a column in braces do not count. Nor do blanks after it, unless it ends in a join
modifier: they are read as if there was another one. -/
theorem feature?_padded_in_braces (before after : Blanks) (inner : List Char) :
    let padded := inBraces true true (before.chars ++ inner ++ after.chars)
    (after.chars = [] ∨ ¬ EndsInJoin inner →
      feature? (String.ofList padded) = feature? (String.ofList (inBraces true true inner))) ∧
    (after.chars ≠ [] → ∀ modifier : JoinModifier,
      feature? (String.ofList padded) =
        feature? (String.ofList (inBraces true true (inner ++ [':', modifier.letter])))) := by
  intro padded
  have read : featureChars padded = peel (inner ++ after.chars) := by
    rw [featureChars_inBraces, List.append_assoc, peel_blank_append before.blank]
  constructor
  · intro clear
    apply feature?_of_featureChars_eq
    rw [read, featureChars_inBraces]
    by_cases none : after.chars = []
    · rw [none, List.append_nil]
    · have without := clear.resolve_left none
      rw [peel_append_blank inner none after.blank, peel, dropJoin_dropAlias without]
  · intro some modifier
    apply feature?_of_featureChars_eq
    rw [read, featureChars_inBraces, peel_append_blank inner some after.blank, peel,
      dropJoin_dropAlias_append inner modifier.isModifier]

theorem feature?_padded_in_braces_with_language :
    let qualified := "p:name[en]".toList
    (¬ EndsInJoin qualified ∧
      feature? "\x7b\t p:name[en] \x7d" = feature? "\x7bp:name[en]\x7d") ∧
    ([' '] ≠ [] ∧ feature? "\x7b\t code:o \x7d" = feature? "\x7bcode:o:c\x7d") := by
  intro qualified
  have without : ¬ EndsInJoin qualified := by
    rintro ⟨name, modifier, join, same⟩
    have isLast : qualified.getLast? = some modifier := by simp [same]
    obtain rfl : ']' = modifier := Option.some.inj isLast
    cases join
  have padded := feature?_padded_in_braces ⟨['\t', ' '], rfl⟩ ⟨[' '], rfl⟩
  exact ⟨⟨without, (padded qualified).1 (.inr without)⟩, by simp,
    (padded "code:o".toList).2 (by simp) ⟨'c', rfl⟩⟩

/-- A blank turns a column with its join modifier into an alias with its column. -/
theorem blank_after_join_is_read :
    feature? "\x7bcode:o\x7d" = some "code" ∧ feature? "\x7bcode:o \x7d" = some "o" ∧
      feature? "\x7bp.code:o\x7d" = some "code" ∧ feature? "\x7bp.code:o \x7d" = some "code:o" := by
  decide

end ItemSchema.QueryColumn
