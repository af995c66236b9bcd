import ItemSchema.Proofs.Json.Quoted

/-! Natural numbers of 64 bits are read back from their digits.

The reader of a number cannot tell that it is complete before it has seen the byte
after it. So a number that was read stands in a state of its own, and only what
follows turns it into a value.
-/

set_option autoImplicit false

namespace ItemSchema.Json

namespace Numeral

/-- A number of which the digits of a natural number have been read. -/
def ofNat (n : Nat) : Numeral :=
  if n = 0 then .zero false else .whole { negative := false, significand := n }

theorem start_eq_ofNat {digit : Nat} (small : digit < 10) : start false digit = ofNat digit := by
  have fits : digit < Nat.pow 2 64 := Nat.lt_trans small (by decide)
  unfold start ofNat
  split
  · rfl
  · simp [Digits.pushWhole, Digits.fits, fits]

theorem step_ofNat_of_digit {n digit : Nat} {byte : UInt8} (positive : 0 < n)
    (read : digit? byte = some digit) (fits : n * 10 + digit < Nat.pow 2 64) :
    (ofNat n).step byte = .continues (ofNat (n * 10 + digit)) := by
  have longer : n * 10 + digit ≠ 0 := by omega
  rw [ofNat, if_neg (Nat.ne_of_gt positive), ofNat, if_neg longer]
  simp [step, read, Digits.pushWhole, Digits.fits, fits]

theorem value?_ofNat (n : Nat) : (ofNat n).value? = some (.integer n) := by
  by_cases zero : n = 0
  · subst zero; rfl
  · simp [ofNat, zero, value?, Digits.toWhole?]

/-- A comma or a line break ends a number. -/
theorem step_ofNat_of_separator (n : Nat) {byte : UInt8} (separator : byte = 0x2C ∨ byte = 0x0A) :
    (ofNat n).step byte = .ends (.integer n) := by
  have finished : (ofNat n).finish = .ends (.integer n) := by rw [finish, value?_ofNat]
  have noDigit : digit? byte = none := by rcases separator with rfl | rfl <;> decide
  have noPoint : byte ≠ 0x2E := by rcases separator with rfl | rfl <;> decide
  have noExponent : ¬ (byte = 0x65 ∨ byte = 0x45) := by rcases separator with rfl | rfl <;> decide
  rw [← finished]
  unfold ofNat
  split <;> simp [step, noDigit, afterWhole, noPoint, noExponent]

end Numeral

/-- The byte of a digit is read as that digit, and begins no other kind of value. -/
theorem digit?_digitChar : ∀ n < 10,
    let byte := UInt8.ofNat (Nat.digitChar n).toNat
    (Nat.digitChar n).toNat < 0x80 ∧ digit? byte = some n ∧ Reader.isSpace byte = false ∧
      byte ∉ [0x22, 0x5B, 0x7B, 0x2D, 0x6E, 0x74, 0x66] := by
  decide

theorem utf8_digitChar {digit : Nat} (small : digit < 10) :
    String.utf8EncodeChar (Nat.digitChar digit) = [UInt8.ofNat (Nat.digitChar digit).toNat] :=
  utf8EncodeChar_of_ascii (digit?_digitChar digit small).1

theorem Reader.step_digit {digit : Nat} (small : digit < 10) (around : List Frame) :
    (Reader.expectValue around).step (UInt8.ofNat (Nat.digitChar digit).toNat) =
      some (.number (.ofNat digit) around) := by
  obtain ⟨-, read, notSpace, otherwise⟩ := digit?_digitChar digit small
  simp only [List.mem_cons, List.not_mem_nil, or_false, not_or] at otherwise
  simp [Reader.step, between, notSpace, beginValue, otherwise, read, Numeral.start_eq_ofNat small]

theorem Reader.feed_naturalText (n : Nat) (small : n < Nat.pow 2 64) (around : List Frame) :
    (Reader.expectValue around).feed (utf8 (naturalText n)) = some (.number (.ofNat n) around) := by
  rw [naturalText, utf8_ofList]
  induction n using Nat.strongRecOn with
  | ind n ih =>
    by_cases single : n < 10
    · rw [Nat.toDigits_of_lt_base single, List.flatMap_singleton, utf8_digitChar single, feed,
        step_digit single]
      rfl
    · have digit : n % 10 < 10 := Nat.mod_lt n (by decide)
      have rest : n / 10 * 10 + n % 10 = n := by omega
      have earlier := ih (n / 10) (by omega) (by omega)
      have step := Numeral.step_ofNat_of_digit (by omega) (digit?_digitChar _ digit).2.1
        (rest.symm ▸ small)
      rw [Nat.toDigits_of_base_le (by decide) (by omega), List.flatMap_append, feed_append, earlier,
        List.flatMap_singleton, utf8_digitChar digit, Option.bind_some]
      simp [feed, Reader.step, step, rest]

end ItemSchema.Json
