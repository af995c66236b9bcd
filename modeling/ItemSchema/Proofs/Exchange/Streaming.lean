import ItemSchema.Exchange.Load
import ItemSchema.Proofs.Json.Utf8

/-! Declarations read from a stream, compared with those loaded from a text.

What is read from a stream depends on its bytes and its ending alone, and not on the
pieces it hands out. A text is a stream of its bytes in one piece. A stream that breaks
gives no value, whatever was complete before: either its bytes are refused, and then
they begin no text at all, or the reason of the break is told.
-/

set_option autoImplicit false

namespace ItemSchema

namespace Json

theorem flatten_cut {size : Nat} (positive : 0 < size) (bytes : List UInt8) :
    (cut size bytes).flatten = bytes := by
  fun_induction cut size bytes with
  | case1 bytes stopped =>
    rcases stopped with zero | none
    · omega
    · rw [none, List.flatten_nil]
  | case2 bytes going ih => rw [List.flatten_cons, ih, List.take_append_drop]

theorem read_congr {first second : Stream} (bytes : first.pieces.flatten = second.pieces.flatten)
    (ending : first.ending = second.ending) : read first = read second := by
  simp only [read, Reader.feedAll_eq_feed_flatten, bytes, ending]

theorem pieces_failingAt {size : Nat} (positive : 0 < size) {position : Nat} {bytes : List UInt8}
    (inside : position ≤ bytes.length) (reason : String) :
    (Stream.failingAt size position reason bytes).pieces.flatten = bytes.take position ∧
      (Stream.failingAt size position reason bytes).ending = .broken reason := by
  simp [Stream.failingAt, inside, flatten_cut positive]

/-- A stream that breaks is either refused before, or interrupted. -/
theorem read_of_broken {stream : Stream} {reason : String} (broken : stream.ending = .broken reason) :
    read stream =
      if (Reader.start.feed stream.pieces.flatten).isNone then .error .malformed
      else .error (.interrupted reason) := by
  rw [read, Reader.feedAll_eq_feed_flatten, broken]
  cases Reader.start.feed stream.pieces.flatten <;> rfl

theorem read_of_feed_eq_none {stream : Stream} {first rest : List UInt8}
    (bytes : stream.pieces.flatten = first ++ rest) (refused : Reader.start.feed first = none) :
    read stream = .error .malformed := by
  rw [read, Reader.feedAll_eq_feed_flatten, bytes, Reader.feed_append, refused, Option.bind_none]

theorem isUtf8_of_read {stream : Stream} {value : Json} (got : read stream = .ok value) :
    IsUtf8 stream.pieces.flatten := by
  rw [read, Reader.feedAll_eq_feed_flatten] at got
  split at got
  · cases got
  · next reader fed =>
    split at got
    · cases got
    · split at got
      · next finished => exact Reader.isUtf8_of_finish? fed finished
      · cases got

/-- A stream that does not break is refused unless it gives a value. -/
theorem read_of_clean (stream : Stream) (clean : stream.ending = .clean) :
    read stream = .error .malformed ∨ ∃ value, read stream = .ok value := by
  simp only [read, clean]
  split
  · exact .inl rfl
  · split
    · next value _ => exact .inr ⟨value, rfl⟩
    · exact .inl rfl

end Json

namespace Exchange

theorem read_congr {first second : Json.Stream} (same : Json.read first = Json.read second) :
    read first = read second := by
  rw [read, read, same]

theorem read_ofBytes_utf8 {size : Nat} (positive : 0 < size) (text : String) :
    read (.ofBytes size (Json.utf8 text)) = load text := by
  refine read_congr (Json.read_congr ?_ rfl)
  rw [Json.Stream.ofBytes, Json.flatten_cut positive, Json.Stream.ofString, List.flatten_singleton]

theorem read_ofBytes_of_not_isUtf8 {size : Nat} (positive : 0 < size) {bytes : List UInt8}
    (notUtf8 : ¬ Json.IsUtf8 bytes) : read (.ofBytes size bytes) = .error .malformed := by
  rcases Json.read_of_clean (.ofBytes size bytes) rfl with refused | ⟨value, got⟩
  · rw [read, refused]
  · have encoded := Json.isUtf8_of_read got
    rw [Json.Stream.ofBytes, Json.flatten_cut positive] at encoded
    exact absurd encoded notUtf8

/-- What a broken stream gives is told by the bytes before the break. -/
theorem read_failingAt {size : Nat} (positive : 0 < size) {position : Nat} {bytes : List UInt8}
    (inside : position ≤ bytes.length) (reason : String) :
    read (.failingAt size position reason bytes) =
      if (Json.Reader.start.feed (bytes.take position)).isNone then .error .malformed
      else .error (.interrupted reason) := by
  obtain ⟨before, broken⟩ := Json.pieces_failingAt positive inside reason
  rw [read, Json.read_of_broken broken, before]
  cases Json.Reader.start.feed (bytes.take position) <;> rfl

/-- Bytes that are refused begin no text. -/
theorem read_ofBytes_of_take {size : Nat} (positive : 0 < size) (position : Nat) {bytes : List UInt8}
    (refused : Json.Reader.start.feed (bytes.take position) = none) :
    read (.ofBytes size bytes) = .error .malformed := by
  have whole : (Json.Stream.ofBytes size bytes).pieces.flatten =
      bytes.take position ++ bytes.drop position := by
    rw [Json.Stream.ofBytes, Json.flatten_cut positive, List.take_append_drop]
  rw [read, Json.read_of_feed_eq_none whole refused]

/-- What is read from a stream, in pieces of any size, is what is loaded from the text that its bytes
encode, and bytes that encode no text are malformed. A stream that breaks gives neither declarations nor
a value that is not an array. What it gives is told by the bytes before the break, and these are malformed
only if they begin no text that is not malformed. -/
theorem read_stream_agrees {size : Nat} (positive : 0 < size) (bytes : List UInt8) :
    (∀ text, Json.utf8 text = bytes → read (.ofBytes size bytes) = load text) ∧
    ((∀ text, Json.utf8 text ≠ bytes) → read (.ofBytes size bytes) = .error .malformed) ∧
    ∀ position ≤ bytes.length, ∀ reason,
      let broken := read (.failingAt size position reason bytes)
      (broken = .error .malformed ∨ broken = .error (.interrupted reason)) ∧
      (∀ otherSize other, 0 < otherSize → other.take position = bytes.take position →
        read (.failingAt otherSize position reason other) = broken) ∧
      (broken = .error .malformed → ∀ otherSize other, 0 < otherSize →
        other.take position = bytes.take position → read (.ofBytes otherSize other) = .error .malformed) := by
  refine ⟨?_, ?_, ?_⟩
  · rintro text rfl
    exact read_ofBytes_utf8 positive text
  · intro noText
    exact read_ofBytes_of_not_isUtf8 positive fun ⟨text, encoded⟩ => noText text encoded
  · intro position inside reason broken
    have given : broken = _ := read_failingAt positive inside reason
    refine ⟨?_, ?_, ?_⟩
    · rw [given]
      split
      · exact .inl rfl
      · exact .inr rfl
    · intro otherSize other otherPositive same
      have otherInside : position ≤ other.length := by
        have lengths := congrArg List.length same
        simp only [List.length_take] at lengths
        omega
      rw [given, read_failingAt otherPositive otherInside, same]
    · intro malformed otherSize other otherPositive same
      refine read_ofBytes_of_take otherPositive position ?_
      rw [same]
      rw [given] at malformed
      split at malformed
      · next refused => exact Option.isNone_iff_eq_none.mp refused
      · cases malformed

/-- A text with a character of two bytes, in pieces of one byte. Then the same text broken between the
two, and with the second one missing. -/
theorem read_stream_agrees_within_character :
    let text := "[[\"enum\",\"é\"]]"
    let bytes : List UInt8 :=
      [0x5B, 0x5B, 0x22, 0x65, 0x6E, 0x75, 0x6D, 0x22, 0x2C, 0x22, 0xC3, 0xA9, 0x22, 0x5D, 0x5D]
    let shorter : List UInt8 := bytes.eraseIdx 11
    (Json.utf8 text = bytes ∧ 11 ≤ bytes.length ∧ ∀ text, Json.utf8 text ≠ shorter) ∧
      read (.ofBytes 1 bytes) = .ok [.enumeration { name := "é" }] ∧
      read (.failingAt 1 11 "gone" bytes) = .error (.interrupted "gone") ∧
      read (.ofBytes 4 shorter) = .error .malformed := by
  intro text bytes shorter
  have encoded : Json.utf8 text = bytes := by decide
  have loaded : load text = .ok [.enumeration { name := "é" }] := by
    have result : (load text).toOption = some [.enumeration { name := "é" }] := by decide +kernel
    cases given : load text with
    | error error => simp [given, Except.toOption] at result
    | ok declarations => simpa [given, Except.toOption] using result
  have noText : ∀ text, Json.utf8 text ≠ shorter := by
    intro other same
    have decoded := Json.ofUtf8?_utf8 other
    rw [same] at decoded
    have undecoded : Json.ofUtf8? shorter = none := by decide
    rw [undecoded] at decoded
    cases decoded
  obtain ⟨whole, -, broken⟩ := read_stream_agrees (by decide : 0 < 1) bytes
  obtain ⟨either, -, refused⟩ := broken 11 (by decide) "gone"
  have got := (whole text encoded).trans loaded
  refine ⟨⟨encoded, by decide, noText⟩, got, either.resolve_left ?_, ?_⟩
  · intro malformed
    rw [refused malformed 1 bytes (by decide) rfl] at got
    cases got
  · exact (read_stream_agrees (by decide : 0 < 4) shorter).2.1 noText

end Exchange

end ItemSchema
