import ItemSchema.Proofs.Json.Quoted

/-! A text that can be read is UTF-8.

Outside of strings the reader takes only ASCII. The encoding of a string is looked at
when it ends, with its escapes replaced, and so it is not clear at once what that says
about the bytes that were written. It is told from the end: a state says what the rest
of a text has to be for the text to be UTF-8, where the bytes that a string has
collected stand for those that were written. An escape stands for whole characters, so
that the bytes on both sides of it are UTF-8 on their own.
-/

set_option autoImplicit false

namespace ItemSchema.Json

def IsUtf8 (bytes : List UInt8) : Prop := ∃ text, utf8 text = bytes

theorem isUtf8_iff_isValidUTF8 (bytes : List UInt8) : IsUtf8 bytes ↔ bytes.toByteArray.IsValidUTF8 := by
  constructor
  · rintro ⟨text, rfl⟩
    exact ⟨text.toList, rfl⟩
  · rintro ⟨chars, encoded⟩
    refine ⟨String.ofList chars, ?_⟩
    rw [utf8_ofList]
    exact (List.toByteArray_inj.mp encoded).symm

theorem toByteArray_utf8 (text : String) : (utf8 text).toByteArray = text.toByteArray := by
  have written := @String.toByteArray_ofList text.toList
  rw [String.ofList_toList] at written
  exact written.symm

theorem isUtf8_of_ofUtf8? {bytes : List UInt8} {text : String} (decoded : ofUtf8? bytes = some text) :
    IsUtf8 bytes := by
  rw [ofUtf8?, String.fromUTF8?] at decoded
  split at decoded
  · next valid => exact (isUtf8_iff_isValidUTF8 bytes).mpr valid
  · cases decoded

theorem isUtf8_nil : IsUtf8 [] := ⟨"", rfl⟩

theorem isUtf8_utf8EncodeChar (c : Char) : IsUtf8 (String.utf8EncodeChar c) :=
  ⟨String.ofList [c], by rw [utf8_ofList, List.flatMap_singleton]⟩

theorem IsUtf8.append {first second : List UInt8} (one : IsUtf8 first) (other : IsUtf8 second) :
    IsUtf8 (first ++ second) := by
  obtain ⟨firstText, rfl⟩ := one
  obtain ⟨secondText, rfl⟩ := other
  exact ⟨firstText ++ secondText, utf8_append firstText secondText⟩

/-- A byte below 128 is a character by itself. -/
theorem exists_utf8EncodeChar_eq {byte : UInt8} (ascii : byte < 0x80) :
    ∃ c, String.utf8EncodeChar c = [byte] := by
  have small : byte.toNat < 0x80 := by simpa [UInt8.lt_iff_toNat_lt] using ascii
  have code : (Char.ofUInt8 byte).toNat = byte.toNat := rfl
  refine ⟨Char.ofUInt8 byte, ?_⟩
  rw [utf8EncodeChar_of_ascii (by omega), code, UInt8.ofNat_toNat]

theorem IsUtf8.ascii_cons {byte : UInt8} (ascii : byte < 0x80) {rest : List UInt8} (encoded : IsUtf8 rest) :
    IsUtf8 (byte :: rest) := by
  obtain ⟨c, single⟩ := exists_utf8EncodeChar_eq ascii
  have joined := (isUtf8_utf8EncodeChar c).append encoded
  rwa [single] at joined

theorem isUtf8_of_ascii {bytes : List UInt8} (ascii : ∀ byte ∈ bytes, byte < 0x80) : IsUtf8 bytes := by
  induction bytes with
  | nil => exact isUtf8_nil
  | cons byte rest ih =>
    exact (ih fun other member => ascii other (List.mem_cons_of_mem _ member)).ascii_cons
      (ascii byte List.mem_cons_self)

/-- A whole character cuts UTF-8 into two parts that are UTF-8. -/
theorem IsUtf8.around_char {before after : List UInt8} {c : Char}
    (encoded : IsUtf8 (before ++ (String.utf8EncodeChar c ++ after))) : IsUtf8 before ∧ IsUtf8 after := by
  obtain ⟨text, written⟩ := encoded
  have bytes : text.toByteArray =
      before.toByteArray ++ ((String.utf8EncodeChar c).toByteArray ++ after.toByteArray) := by
    rw [← List.toByteArray_append, ← List.toByteArray_append, ← written]
    exact (toByteArray_utf8 text).symm
  -- the character begins at a position of the text, for its first byte begins a character
  have start : String.Pos.Raw.IsValid text ⟨before.length⟩ := by
    refine String.Pos.Raw.isValid_iff_isUTF8FirstByte.mpr (.inr ⟨?_, ?_⟩)
    · have wide := c.utf8Size_pos
      simp only [String.Pos.Raw.lt_iff, String.byteIdx_rawEndPos, ← String.size_toByteArray, bytes,
        ByteArray.size_append, List.size_toByteArray, String.length_utf8EncodeChar]
      omega
    · simpa [String.getUTF8Byte, bytes, ByteArray.getElem_append_right] using
        ByteArray.isUTF8FirstByte_getElem_zero_utf8EncodeChar_append
  have one : before.toByteArray.IsValidUTF8 := by
    have cutBefore := start.isValidUTF8_extract_zero
    rwa [bytes, ByteArray.extract_append_eq_left List.size_toByteArray.symm] at cutBefore
  have stop : String.Pos.Raw.IsValid text ⟨before.length + c.utf8Size⟩ := by
    refine String.Pos.Raw.isValid_iff_isValidUTF8_extract_zero.mpr ⟨?_, ?_⟩
    · simp [String.Pos.Raw.le_iff, ← String.size_toByteArray, bytes, ByteArray.size_append]
    · rw [bytes, ← ByteArray.append_assoc, ByteArray.extract_append_eq_left (by simp [ByteArray.size_append])]
      exact one.append Char.isValidUTF8_toByteArray_utf8EncodeChar
  have other : after.toByteArray.IsValidUTF8 := by
    have cutAfter := stop.isValidUTF8_extract_utf8ByteSize
    rwa [← String.size_toByteArray, bytes, ← ByteArray.append_assoc,
      ByteArray.extract_append_eq_right (by simp [ByteArray.size_append]) ByteArray.size_append] at cutAfter
  exact ⟨(isUtf8_iff_isValidUTF8 before).mpr one, (isUtf8_iff_isValidUTF8 after).mpr other⟩

/-- What the bytes after a string's state have to be, if the text is to be UTF-8. -/
def Quoted.CompletedBy (quoted : Quoted) (rest : List UInt8) : Prop :=
  match quoted.escape with
  -- the last character may be incomplete
  | .none => IsUtf8 (quoted.bytes.reverse ++ rest)
  -- the digits are not looked at before there are four of them
  | .hex digits _ => IsUtf8 quoted.bytes.reverse ∧ IsUtf8 (digits.reverse ++ rest)
  | .backslash | .paired _ | .pairedBackslash _ => IsUtf8 quoted.bytes.reverse ∧ IsUtf8 rest

/-- The same after one more byte. -/
def Quoted.Step.CompletedBy (step : Quoted.Step) (rest : List UInt8) : Prop :=
  match step with
  | .continues next => next.CompletedBy rest
  | .ends _ => IsUtf8 rest
  | .fails => False

theorem ascii_of_hexDigit? {byte : UInt8} {digit : Nat} (spelled : hexDigit? byte = some digit) :
    byte < 0x80 := by
  have below : ∀ bound : UInt8, bound < 0x80 → byte ≤ bound → byte < 0x80 :=
    fun bound small atMost => UInt8.lt_of_le_of_lt atMost small
  unfold hexDigit? at spelled
  split at spelled
  · next range => exact below 0x39 (by decide) range.2
  split at spelled
  · next range => exact below 0x46 (by decide) range.2
  split at spelled
  · next range => exact below 0x66 (by decide) range.2
  · cases spelled

theorem ascii_of_hexNumber? {digits : List UInt8} {number : Nat} (spelled : hexNumber? digits = some number) :
    ∀ digit ∈ digits, digit < 0x80 := by
  induction digits generalizing number with
  | nil => simp
  | cons digit rest ih =>
    rw [hexNumber?] at spelled
    split at spelled
    · next isDigit later => simpa using ⟨ascii_of_hexDigit? isDigit, ih later⟩
    · cases spelled

theorem ascii_of_simpleEscape? {letter plain : UInt8} (escape : simpleEscape? letter = some plain) :
    letter < 0x80 ∧ plain < 0x80 := by
  unfold simpleEscape? at escape
  split at escape
  · next itself =>
    cases escape
    rcases itself with rfl | rfl | rfl <;> decide
  · grind

namespace Quoted

variable {quoted : Quoted} {rest : List UInt8}

/-- A character that was added as a whole leaves UTF-8 on both sides of it. -/
theorem CompletedBy.of_pushChar {c : Char} (completed : (quoted.pushChar c).CompletedBy rest) :
    IsUtf8 quoted.bytes.reverse ∧ IsUtf8 rest := by
  have encoded : IsUtf8 (quoted.bytes.reverse ++ (String.utf8EncodeChar c ++ rest)) := by
    simpa [CompletedBy, pushChar] using completed
  exact encoded.around_char

theorem CompletedBy.of_push {byte : UInt8} (ascii : byte < 0x80)
    (completed : (quoted.push byte).CompletedBy rest) : IsUtf8 quoted.bytes.reverse ∧ IsUtf8 rest := by
  obtain ⟨c, single⟩ := exists_utf8EncodeChar_eq ascii
  apply CompletedBy.of_pushChar (c := c)
  simpa [push, pushChar, single] using completed

theorem Step.CompletedBy.of_pushUnit {leading : Option Nat} {unit : Nat}
    (completed : (quoted.pushUnit leading unit).CompletedBy rest) :
    IsUtf8 quoted.bytes.reverse ∧ IsUtf8 rest := by
  unfold pushUnit at completed
  split at completed
  · split at completed
    · exact Quoted.CompletedBy.of_pushChar completed
    · exact completed.elim
  · split at completed
    · exact completed.elim
    · split at completed
      · exact completed
      · exact Quoted.CompletedBy.of_pushChar completed

theorem Step.CompletedBy.of_pushHex {digits : List UInt8} {leading : Option Nat}
    (completed : (quoted.pushHex digits leading).CompletedBy rest) :
    IsUtf8 quoted.bytes.reverse ∧ IsUtf8 (digits.reverse ++ rest) := by
  unfold pushHex at completed
  split at completed
  · exact completed
  · split at completed
    · next unit spelled =>
      obtain ⟨before, after⟩ := completed.of_pushUnit
      have ascii : ∀ digit ∈ digits.reverse, digit < 0x80 := by
        simpa using ascii_of_hexNumber? spelled
      exact ⟨before, (isUtf8_of_ascii ascii).append after⟩
    · exact completed.elim

theorem Step.CompletedBy.of_step {byte : UInt8} (completed : (quoted.step byte).CompletedBy rest) :
    quoted.CompletedBy (byte :: rest) := by
  obtain ⟨bytes, escape⟩ := quoted
  cases escape with
  | none =>
    simp only [step] at completed
    split at completed
    · next closing =>
      subst closing
      split at completed
      · next decoded => exact (isUtf8_of_ofUtf8? decoded).append (IsUtf8.ascii_cons (by decide) completed)
      · exact completed.elim
    split at completed
    · next backslash =>
      subst backslash
      exact completed.1.append (completed.2.ascii_cons (by decide))
    split at completed
    · exact completed.elim
    · simpa [Step.CompletedBy, Quoted.CompletedBy, push] using completed
  | backslash =>
    simp only [step] at completed
    split at completed
    · next letter =>
      subst letter
      exact ⟨completed.1, completed.2.ascii_cons (by decide)⟩
    split at completed
    · next escape =>
      obtain ⟨letterAscii, plainAscii⟩ := ascii_of_simpleEscape? escape
      obtain ⟨before, after⟩ := Quoted.CompletedBy.of_push plainAscii completed
      exact ⟨before, after.ascii_cons letterAscii⟩
    · exact completed.elim
  | hex digits leading =>
    have whole := completed.of_pushHex
    simpa [Quoted.CompletedBy] using whole
  | paired leading =>
    simp only [step] at completed
    split at completed
    · next backslash =>
      subst backslash
      exact ⟨completed.1, completed.2.ascii_cons (by decide)⟩
    · exact completed.elim
  | pairedBackslash leading =>
    simp only [step] at completed
    split at completed
    · next letter =>
      subst letter
      exact ⟨completed.1, completed.2.ascii_cons (by decide)⟩
    · exact completed.elim

end Quoted

/-- What the rest of a text has to be, judged from a state of the reader. -/
def Reader.CompletedBy (reader : Reader) (rest : List UInt8) : Prop :=
  match reader with
  | .text _ quoted _ => quoted.CompletedBy rest
  | .word expected letters _ _ => (∀ letter ∈ expected :: letters, letter < 0x80) → IsUtf8 rest
  | _ => IsUtf8 rest

namespace Reader

variable {reader next : Reader} {byte : UInt8} {rest : List UInt8}

theorem completedBy_deliver (value : Json) (around : List Frame) :
    (deliver value around).CompletedBy rest ↔ IsUtf8 rest := by
  cases around with
  | nil => rfl
  | cons frame around => cases frame <;> rfl

theorem ascii_of_digit? {digit : Nat} (spelled : digit? byte = some digit) : byte < 0x80 := by
  unfold digit? at spelled
  split at spelled
  · next range => exact UInt8.lt_of_le_of_lt range.2 (by decide)
  · cases spelled

theorem ascii_of_isSpace (space : isSpace byte) : byte < 0x80 := by
  simp only [isSpace, Bool.or_eq_true, decide_eq_true_eq] at space
  rcases space with ((rfl | rfl) | rfl) | rfl <;> decide

theorem ascii_of_beginValue {around : List Frame} (begun : beginValue around byte = some next) :
    byte < 0x80 := by
  cases spelled : digit? byte with
  | some digit => exact ascii_of_digit? spelled
  | none => grind [beginValue]

/-- No value begins in the middle of a character. -/
theorem CompletedBy.of_beginValue {around : List Frame} (begun : beginValue around byte = some next)
    (completed : next.CompletedBy rest) : IsUtf8 rest := by
  cases spelled : digit? byte <;> grind [beginValue, CompletedBy, Quoted.CompletedBy]

theorem ascii_of_between (stepped : reader.between byte = some next) : byte < 0x80 := by
  unfold between at stepped
  grind [ascii_of_isSpace, ascii_of_beginValue]

theorem CompletedBy.of_between (outside : reader.CompletedBy rest → IsUtf8 rest)
    (stepped : reader.between byte = some next) (completed : next.CompletedBy rest) :
    IsUtf8 (byte :: rest) := by
  refine IsUtf8.ascii_cons (ascii_of_between stepped) ?_
  unfold between at stepped
  grind [CompletedBy, Quoted.CompletedBy, CompletedBy.of_beginValue, completedBy_deliver]

theorem ascii_of_numeral_step {numeral longer : Numeral} (stepped : numeral.step byte = .continues longer) :
    byte < 0x80 := by
  cases spelled : digit? byte with
  | some digit => exact ascii_of_digit? spelled
  | none =>
    simp only [Numeral.step.eq_def, spelled] at stepped
    grind [Numeral.afterWhole, Numeral.finish]

theorem CompletedBy.of_step (stepped : reader.step byte = some next)
    (completed : next.CompletedBy rest) : reader.CompletedBy (byte :: rest) := by
  cases reader with
  | word expected letters value around =>
    intro ascii
    obtain ⟨same, stepped⟩ := Option.ite_none_right_eq_some.mp stepped
    refine IsUtf8.ascii_cons (same ▸ ascii expected List.mem_cons_self) ?_
    cases letters with
    | nil =>
      cases stepped
      exact (completedBy_deliver value around).mp completed
    | cons letter letters =>
      cases stepped
      exact completed fun other member => ascii other (List.mem_cons_of_mem _ member)
  | number numeral around =>
    simp only [step] at stepped
    split at stepped
    · next continued =>
      cases stepped
      exact IsUtf8.ascii_cons (ascii_of_numeral_step continued) completed
    · next value ended =>
      exact completed.of_between (completedBy_deliver value around).mp stepped
    · cases stepped
  | text role quoted around =>
    apply Quoted.Step.CompletedBy.of_step
    simp only [step] at stepped
    split at stepped
    · next continued =>
      cases stepped
      rw [continued]
      exact completed
    · next content ended =>
      rw [ended]
      cases role with
      | value =>
        cases stepped
        exact (completedBy_deliver _ around).mp completed
      | name members =>
        cases stepped
        exact completed
    · cases stepped
  | _ => exact completed.of_between id stepped

theorem CompletedBy.of_feed {bytes : List UInt8} (fed : reader.feed bytes = some next)
    (completed : next.CompletedBy rest) : reader.CompletedBy (bytes ++ rest) := by
  induction bytes generalizing reader with
  | nil =>
    cases fed
    exact completed
  | cons byte bytes ih =>
    obtain ⟨middle, stepped, later⟩ := Option.bind_eq_some_iff.mp fed
    exact (ih later).of_step stepped

/-- A text does not end within a string or a word. -/
theorem completedBy_nil_of_finish? {value : Json} (finished : reader.finish? = some value) :
    reader.CompletedBy [] := by
  cases reader with
  | text | word => cases finished
  | _ => exact isUtf8_nil

theorem isUtf8_of_finish? {bytes : List UInt8} {value : Json} (fed : start.feed bytes = some reader)
    (finished : reader.finish? = some value) : IsUtf8 bytes := by
  have whole := (completedBy_nil_of_finish? finished).of_feed fed
  rwa [List.append_nil] at whole

end Reader

end ItemSchema.Json
