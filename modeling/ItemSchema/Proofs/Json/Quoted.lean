import ItemSchema.Json.Printer
import ItemSchema.Json.Reader

/-! Strings are read back from their quoted text.

Between the quotes every character is fed to the reader as a piece of its own: the
bytes that stand for themselves, or one escape. Either way the bytes of the
character are what the reader has gained.
-/

set_option autoImplicit false

namespace ItemSchema.Json

@[simp] theorem utf8_append (first second : String) :
    utf8 (first ++ second) = utf8 first ++ utf8 second := by
  simp [utf8]

@[simp] theorem utf8_ofList (chars : List Char) :
    utf8 (String.ofList chars) = chars.flatMap String.utf8EncodeChar := by
  simp [utf8]

/-- The bytes of a text encode the text. -/
theorem ofUtf8?_utf8 (text : String) : ofUtf8? (utf8 text) = some text := by
  have encoded : (utf8 text).toByteArray = text.toByteArray := by
    have written := @String.toByteArray_ofList text.toList
    rw [String.ofList_toList] at written
    exact written.symm
  rw [ofUtf8?, encoded, String.fromUTF8?, dif_pos text.isValidUTF8]
  rfl

/-- A byte that stands for itself between quotes. -/
def isPlain (byte : UInt8) : Bool := 0x20 ≤ byte && byte ≠ 0x22 && byte ≠ 0x5C

theorem isPlain_ofNat {n : Nat} (small : n < 256) (printable : 0x20 ≤ n) (notQuote : n ≠ 0x22)
    (notBackslash : n ≠ 0x5C) : isPlain (UInt8.ofNat n) := by
  simp only [isPlain, Bool.and_eq_true, decide_eq_true_eq, UInt8.le_iff_toNat_le, ne_eq,
    ← UInt8.toNat_inj, UInt8.toNat_ofNat', UInt8.toNat_ofNat]
  omega

/-- A character that needs no escape has only plain bytes: its own code, or several above 127. -/
theorem isPlain_of_mem_utf8EncodeChar {c : Char} (printable : 0x20 ≤ c.toNat)
    (notQuote : c.toNat ≠ 0x22) (notBackslash : c.toNat ≠ 0x5C) {byte : UInt8}
    (member : byte ∈ String.utf8EncodeChar c) : isPlain byte := by
  change 0x20 ≤ c.val.toNat at printable
  change c.val.toNat ≠ 0x22 at notQuote
  change c.val.toNat ≠ 0x5C at notBackslash
  unfold String.utf8EncodeChar at member
  dsimp only at member
  generalize c.val.toNat = code at *
  split at member
  · simp only [List.mem_singleton] at member
    subst member
    apply isPlain_ofNat <;> omega
  · split at member
    · simp only [List.mem_cons, List.not_mem_nil, or_false] at member
      rcases member with rfl | rfl <;> apply isPlain_ofNat <;> omega
    · split at member
      · simp only [List.mem_cons, List.not_mem_nil, or_false] at member
        rcases member with rfl | rfl | rfl <;> apply isPlain_ofNat <;> omega
      · simp only [List.mem_cons, List.not_mem_nil, or_false] at member
        rcases member with rfl | rfl | rfl | rfl <;> apply isPlain_ofNat <;> omega

theorem utf8EncodeChar_of_ascii {c : Char} (ascii : c.toNat < 0x80) :
    String.utf8EncodeChar c = [UInt8.ofNat c.toNat] := by
  have single : c.toNat ≤ 127 := by omega
  simp [String.utf8EncodeChar, single]

/-- Every hexadecimal digit is written as one byte, and read back from it. -/
theorem hexDigit?_hexDigit : ∀ n < 16,
    (hexDigit n).toNat < 0x80 ∧ hexDigit? (UInt8.ofNat (hexDigit n).toNat) = some n := by
  decide

namespace Reader

variable (role : Role) (before : List UInt8) (around : List Frame)

theorem feed_plain (bytes : List UInt8) (plain : ∀ byte ∈ bytes, isPlain byte) :
    (Reader.text role { bytes := before } around).feed bytes =
      some (.text role { bytes := bytes.reverse ++ before } around) := by
  induction bytes generalizing before with
  | nil => rfl
  | cons byte rest ih =>
    have own := plain byte List.mem_cons_self
    simp only [isPlain, Bool.and_eq_true, decide_eq_true_eq] at own
    obtain ⟨⟨printable, notQuote⟩, notBackslash⟩ := own
    have step : (Reader.text role { bytes := before } around).step byte =
        some (.text role { bytes := byte :: before } around) := by
      simp [Reader.step, Quoted.step, Quoted.push, notQuote, notBackslash, UInt8.not_lt.mpr printable]
    rw [feed, step, Option.bind_some, ih _ fun other member => plain other (List.mem_cons_of_mem _ member)]
    simp

/-- A backslash and a letter stand for one byte. -/
theorem feed_simpleEscape {letter byte : UInt8} (escape : simpleEscape? letter = some byte) :
    (Reader.text role { bytes := before } around).feed [0x5C, letter] =
      some (.text role { bytes := byte :: before } around) := by
  have notHex : letter ≠ 0x75 := by
    rintro rfl
    have unknown : simpleEscape? 0x75 = none := by decide
    simp [unknown] at escape
  simp [feed, Reader.step, Quoted.step, Quoted.push, notHex, escape]

/-- A backslash, the letter u and four hexadecimal digits stand for one character. -/
theorem feed_hexEscape {first second third fourth : UInt8} {code : Nat}
    (spelled : hexNumber? [fourth, third, second, first] = some code) (control : code < 0x20) :
    (Reader.text role { bytes := before } around).feed [0x5C, 0x75, first, second, third, fourth] =
      some (.text role { bytes := (String.utf8EncodeChar (Char.ofNat code)).reverse ++ before }
        around) := by
  have notTrailing : isTrailingSurrogate code = false := by
    simp only [isTrailingSurrogate, Bool.and_eq_false_iff, decide_eq_false_iff_not]
    omega
  have notLeading : isLeadingSurrogate code = false := by
    simp only [isLeadingSurrogate, Bool.and_eq_false_iff, decide_eq_false_iff_not]
    omega
  simp [feed, Reader.step, Quoted.step, Quoted.pushHex, Quoted.pushUnit, Quoted.pushChar, spelled,
    notTrailing, notLeading]

theorem utf8EncodeChar_backslash : String.utf8EncodeChar '\\' = [0x5C] := by decide

/-- A control character that has a letter is written with it. -/
theorem feed_letterEscape {c letter : Char} {code : Nat} (same : c.toNat = code) (small : code < 0x20)
    (ascii : letter.toNat < 0x80)
    (escape : simpleEscape? (UInt8.ofNat letter.toNat) = some (UInt8.ofNat code)) :
    (Reader.text role { bytes := before } around).feed
        (['\\', letter].flatMap String.utf8EncodeChar) =
      some (.text role { bytes := (String.utf8EncodeChar c).reverse ++ before } around) := by
  have fed := feed_simpleEscape role before around escape
  have written : String.utf8EncodeChar c = [UInt8.ofNat code] := by
    rw [utf8EncodeChar_of_ascii (by omega), same]
  simpa [written, utf8EncodeChar_of_ascii ascii, utf8EncodeChar_backslash] using fed

/-- Whatever stands for a character, the reader gains the bytes of the character. -/
theorem feed_escapeChar (c : Char) :
    (Reader.text role { bytes := before } around).feed ((escapeChar c).flatMap String.utf8EncodeChar) =
      some (.text role { bytes := (String.utf8EncodeChar c).reverse ++ before } around) := by
  unfold escapeChar
  split
  · next quote =>
    subst quote
    exact feed_simpleEscape role before around (by decide)
  split
  · next backslash =>
    subst backslash
    exact feed_simpleEscape role before around (by decide)
  next notQuote notBackslash =>
  have quoteCode : c.toNat ≠ 0x22 := fun same => notQuote (Char.toNat_inj.mp same)
  have backslashCode : c.toNat ≠ 0x5C := fun same => notBackslash (Char.toNat_inj.mp same)
  split
  · next same =>
    exact feed_letterEscape role before around same (by decide) (by decide) (by decide)
  split
  · next same =>
    exact feed_letterEscape role before around same (by decide) (by decide) (by decide)
  split
  · next same =>
    exact feed_letterEscape role before around same (by decide) (by decide) (by decide)
  split
  · next same =>
    exact feed_letterEscape role before around same (by decide) (by decide) (by decide)
  split
  · next same =>
    exact feed_letterEscape role before around same (by decide) (by decide) (by decide)
  split
  · next control =>
    obtain ⟨highAscii, high⟩ := hexDigit?_hexDigit (c.toNat / 16) (by omega)
    obtain ⟨lowAscii, low⟩ := hexDigit?_hexDigit (c.toNat % 16) (by omega)
    have zero : hexDigit? 0x30 = some 0 := by decide
    have sum : c.toNat / 16 * 16 + c.toNat % 16 = c.toNat := by omega
    have spelled : hexNumber? [UInt8.ofNat (hexDigit (c.toNat % 16)).toNat,
        UInt8.ofNat (hexDigit (c.toNat / 16)).toNat, 0x30, 0x30] = some c.toNat := by
      simp [hexNumber?, high, low, zero, sum]
    have fed := feed_hexEscape role before around spelled control
    rw [Char.ofNat_toNat] at fed
    have marks : String.utf8EncodeChar 'u' = [0x75] ∧ String.utf8EncodeChar '0' = [0x30] := by decide
    simpa [utf8EncodeChar_of_ascii highAscii, utf8EncodeChar_of_ascii lowAscii,
      utf8EncodeChar_backslash, marks] using fed
  · next printable =>
    simp only [List.flatMap_singleton]
    apply feed_plain
    intro byte member
    exact isPlain_of_mem_utf8EncodeChar (by omega) quoteCode backslashCode member

theorem feed_escapedChars (chars : List Char) :
    (Reader.text role { bytes := before } around).feed
        ((chars.flatMap escapeChar).flatMap String.utf8EncodeChar) =
      some (.text role { bytes := (chars.flatMap String.utf8EncodeChar).reverse ++ before } around) := by
  induction chars generalizing before with
  | nil => rfl
  | cons c rest ih =>
    rw [List.flatMap_cons, List.flatMap_append, feed_append, feed_escapeChar, Option.bind_some, ih]
    simp

/-- Where a reader goes on after a string. -/
def afterText (content : String) : Reader :=
  match role with
  | .value => deliver (.string content) around
  | .name members => .colon members content around

/-- A quoted text is read up to its closing quote, from after its opening one. -/
theorem feed_closeQuote (text : String) :
    (Reader.text role {} around).feed
        ((text.toList.flatMap escapeChar).flatMap String.utf8EncodeChar ++ [0x22]) =
      some (afterText role around text) := by
  have content : ofUtf8? (text.toList.flatMap String.utf8EncodeChar) = some text := ofUtf8?_utf8 text
  rw [feed_append, feed_escapedChars, Option.bind_some]
  cases role <;> simp [feed, Reader.step, Quoted.step, content, afterText]

theorem utf8_quote (text : String) :
    utf8 (quote text) =
      0x22 :: ((text.toList.flatMap escapeChar).flatMap String.utf8EncodeChar ++ [0x22]) := by
  have mark : String.utf8EncodeChar '"' = [0x22] := by decide
  simp only [quote, utf8_ofList, List.cons_append, List.flatMap_cons, List.flatMap_append, mark,
    List.flatMap_nil, List.append_nil, List.nil_append]

variable {role around}

/-- A quoted text is read from wherever a quote begins a string. -/
theorem feed_quote {reader : Reader} (opens : reader.step 0x22 = some (.text role {} around))
    (text : String) : reader.feed (utf8 (quote text)) = some (afterText role around text) := by
  rw [utf8_quote, feed, opens, Option.bind_some, feed_closeQuote]

end Reader

end ItemSchema.Json
