import ItemSchema.Proofs.Json.Numeral

/-! A value laid out as text is read back from it.

The text of a value is always followed by a comma, a line break or the end, and the
reader need not have settled on the value before that. Arrays and objects differ
only in their brackets and in what is read between two commas, so that one argument
covers both.
-/

set_option autoImplicit false

namespace ItemSchema.Json

/-- A value that can be read back from its text: nested at most so deep, and without numbers
other than natural ones of 64 bits. -/
inductive Legible : Nat → Json → Prop where
  | null (room : Nat) : Legible room .null
  | bool (room : Nat) (value : Bool) : Legible room (.bool value)
  | natural (room : Nat) {n : Nat} (small : n < Nat.pow 2 64) : Legible room (.integer n)
  | string (room : Nat) (value : String) : Legible room (.string value)
  | array {room : Nat} {elements : List Json} (each : ∀ element ∈ elements, Legible room element) :
      Legible (room + 1) (.array elements)
  | object {room : Nat} {members : List (String × Json)}
      (each : ∀ member ∈ members, Legible room member.2) : Legible (room + 1) (.object members)

attribute [simp] Legible.null Legible.bool Legible.string

namespace Legible

@[simp] theorem word32 (room : Nat) (word : UInt32) : Legible room (.integer word.toNat) :=
  .natural room (Nat.lt_trans word.toNat_lt (by decide))

@[simp] theorem array_iff {room : Nat} {elements : List Json} :
    Legible (room + 1) (.array elements) ↔ ∀ element ∈ elements, Legible room element := by
  constructor
  · intro legible
    cases legible with
    | array each => exact each
  · exact .array

@[simp] theorem object_iff {room : Nat} {members : List (String × Json)} :
    Legible (room + 1) (.object members) ↔ ∀ member ∈ members, Legible room member.2 := by
  constructor
  · intro legible
    cases legible with
    | object each => exact each
  · exact .object

end Legible

theorem layOutElements_eq_map (level : Nat) (elements : List Json) :
    layOutElements level elements = elements.map (layOut level) := by
  induction elements with
  | nil => rfl
  | cons element rest ih => rw [layOutElements, ih, List.map_cons]

def memberText (level : Nat) (member : String × Json) : String :=
  quote member.1 ++ ": " ++ layOut level member.2

theorem layOutMembers_eq_map (level : Nat) (members : List (String × Json)) :
    layOutMembers level members = members.map (memberText level) := by
  induction members with
  | nil => rfl
  | cons member rest ih => rw [layOutMembers, ih, List.map_cons, memberText]

theorem utf8_newline (level : Nat) :
    utf8 (newline level) = 0x0A :: List.replicate (2 * level) 0x20 := by
  have marks : String.utf8EncodeChar '\n' = [0x0A] ∧ String.utf8EncodeChar ' ' = [0x20] := by decide
  simp only [newline, utf8_ofList, List.flatMap_cons, marks, List.singleton_append, List.cons.injEq,
    true_and]
  induction 2 * level with
  | zero => rfl
  | succ count ih => simp [List.replicate_succ, marks, ih]

namespace Reader

/-- Blanks do not change a reader between the parts of a value. -/
def Idle (reader : Reader) : Prop := ∀ byte, isSpace byte → reader.step byte = some reader

theorem idle_of_step_eq_between {reader : Reader}
    (outside : ∀ byte, reader.step byte = reader.between byte) : reader.Idle := by
  intro byte space
  rw [outside]
  unfold between
  exact if_pos space

theorem Idle.feed_blanks {reader : Reader} (idle : reader.Idle) (bytes : List UInt8)
    (blank : ∀ byte ∈ bytes, isSpace byte) : reader.feed bytes = some reader := by
  induction bytes with
  | nil => rfl
  | cons byte rest ih =>
    rw [feed, idle byte (blank byte List.mem_cons_self), Option.bind_some]
    exact ih fun other member => blank other (List.mem_cons_of_mem _ member)

theorem Idle.feed_indent {reader : Reader} (idle : reader.Idle) (count : Nat) :
    reader.feed (List.replicate count 0x20) = some reader := by
  apply idle.feed_blanks
  intro byte member
  rw [List.eq_of_mem_replicate member]
  rfl

theorem Idle.feed_newline {reader : Reader} (idle : reader.Idle) (level : Nat) :
    reader.feed (utf8 (newline level)) = some reader := by
  rw [utf8_newline, feed, idle 0x0A rfl, Option.bind_some, idle.feed_indent]

/-- A text takes a reader to a state, or to one that a comma, a line break and the end of the text
cannot tell from it. -/
def Reaches (start : Reader) (text : String) (goal : Reader) : Prop :=
  ∃ after, start.feed (utf8 text) = some after ∧ after.finish? = goal.finish? ∧
    ∀ byte, byte = 0x2C ∨ byte = 0x0A → after.step byte = goal.step byte

namespace Reaches

variable {start middle goal next : Reader} {first second text : String}

theorem of_feed (fed : start.feed (utf8 text) = some goal) : start.Reaches text goal :=
  ⟨goal, fed, rfl, fun _ _ => rfl⟩

theorem prepend (fed : start.feed (utf8 first) = some middle) (reaches : middle.Reaches second goal) :
    start.Reaches (first ++ second) goal := by
  obtain ⟨after, later, settles⟩ := reaches
  refine ⟨after, ?_, settles⟩
  rw [utf8_append, feed_append, fed, Option.bind_some, later]

theorem feed_newline (reaches : start.Reaches text goal) (idle : goal.Idle) (level : Nat) :
    start.feed (utf8 (text ++ newline level)) = some goal := by
  obtain ⟨after, fed, -, settles⟩ := reaches
  rw [utf8_append, feed_append, fed, Option.bind_some, utf8_newline, feed, settles _ (.inr rfl),
    idle 0x0A rfl, Option.bind_some, idle.feed_indent]

theorem feed_separator (reaches : start.Reaches text goal) (comma : goal.step 0x2C = some next)
    (idle : next.Idle) (level : Nat) :
    start.feed (utf8 (text ++ ("," ++ newline level))) = some next := by
  obtain ⟨after, fed, -, settles⟩ := reaches
  have mark : utf8 "," = [0x2C] := by decide
  rw [utf8_append, feed_append, fed, Option.bind_some, utf8_append, mark, List.singleton_append, feed,
    settles _ (.inl rfl), comma, Option.bind_some, idle.feed_newline]

/-- A reader that takes the bytes of another one, blanks apart, gets where that one gets. -/
theorem enter {opened : Reader} (idleOpened : opened.Idle) (idleStart : start.Idle)
    (idleGoal : goal.Idle) (away : start ≠ goal)
    (enters : ∀ byte next, isSpace byte = false → start.step byte = some next →
      opened.step byte = some next)
    (reaches : start.Reaches text goal) : opened.Reaches text goal := by
  obtain ⟨after, fed, finishes, settles⟩ := reaches
  -- Only blanks leave the other reader where it is.
  have entered : ∀ bytes, start.feed bytes = some after →
      after = start ∨ opened.feed bytes = some after := by
    intro bytes fed
    induction bytes with
    | nil => exact .inl (Option.some.inj fed).symm
    | cons byte rest ih =>
      cases space : isSpace byte with
      | true =>
        rw [feed, idleStart byte space, Option.bind_some] at fed
        rw [feed, idleOpened byte space, Option.bind_some]
        exact ih fed
      | false =>
        right
        rw [feed] at fed ⊢
        obtain ⟨next, stepped, later⟩ := Option.bind_eq_some_iff.mp fed
        rw [enters byte next space stepped, Option.bind_some, later]
  rcases entered _ fed with stuck | fed
  · have same := settles 0x0A (.inr rfl)
    rw [stuck, idleStart 0x0A rfl, idleGoal 0x0A rfl] at same
    exact absurd (Option.some.inj same) away
  · exact ⟨after, fed, finishes, settles⟩

end Reaches

/-- The states of a reader in an array or an object: just opened, ready for the next part after
others, settled after a part, and closed. Earlier parts are held latest first. -/
structure Container {α : Type} (opened : Reader) (ready settled : List α → Reader)
    (closing : UInt8) (closed : List α → Reader) : Prop where
  idle_opened : opened.Idle
  idle_ready : ∀ before, (ready before).Idle
  idle_settled : ∀ read, (settled read).Idle
  enters : ∀ byte next, isSpace byte = false → (ready []).step byte = some next →
    opened.step byte = some next
  away : ∀ read, ready [] ≠ settled read
  comma : ∀ read, (settled read).step 0x2C = some (ready read)
  closes : ∀ read, (settled read).step closing = some (closed read.reverse)
  closes_empty : opened.step closing = some (closed [])

theorem container_array (around : List Frame) :
    Container (.arrayStart around) (fun before => .expectValue (.array before :: around))
      (fun read => .arrayRest read around) 0x5D fun elements => deliver (.array elements) around where
  idle_opened := idle_of_step_eq_between fun _ => rfl
  idle_ready _ := idle_of_step_eq_between fun _ => rfl
  idle_settled _ := idle_of_step_eq_between fun _ => rfl
  enters byte next notSpace stepped := by
    have notClosing : byte ≠ 0x5D := by
      rintro rfl
      simp [Reader.step, between, notSpace, beginValue, digit?] at stepped
    simpa [Reader.step, between, notSpace, notClosing] using stepped
  away _ := by simp
  comma _ := by simp [Reader.step, between, isSpace]
  closes _ := by simp [Reader.step, between, isSpace]
  closes_empty := by simp [Reader.step, between, isSpace]

theorem container_object (around : List Frame) :
    Container (.objectStart around) (fun before => .memberName before around)
      (fun read => .objectRest read around) 0x7D fun members => deliver (.object members) around where
  idle_opened := idle_of_step_eq_between fun _ => rfl
  idle_ready _ := idle_of_step_eq_between fun _ => rfl
  idle_settled _ := idle_of_step_eq_between fun _ => rfl
  enters byte next notSpace stepped := by
    simp only [Reader.step, between, notSpace, Bool.false_eq_true, if_false,
      Option.ite_none_right_eq_some] at stepped ⊢
    obtain ⟨rfl, opens⟩ := stepped
    simpa using opens
  away _ := by simp
  comma _ := by simp [Reader.step, between, isSpace]
  closes _ := by simp [Reader.step, between, isSpace]
  closes_empty := by simp [Reader.step, between, isSpace]

namespace Container

variable {α : Type} {opened : Reader} {ready settled : List α → Reader} {closing : UInt8}
  {closed : List α → Reader} (container : Container opened ready settled closing closed)
  {text : α → String}
include container

theorem reaches_separated (level : Nat) (first : α) (rest : List α) (before : List α)
    (each : ∀ part ∈ first :: rest, ∀ before,
      (ready before).Reaches (text part) (settled (part :: before))) :
    (ready before).Reaches (separated ("," ++ newline level) ((first :: rest).map text))
      (settled ((first :: rest).reverse ++ before)) := by
  induction rest generalizing first before with
  | nil => exact each first List.mem_cons_self before
  | cons second rest ih =>
    have head := each first List.mem_cons_self before
    have tail := ih second (first :: before) fun part member =>
      each part (List.mem_cons_of_mem _ member)
    simpa [separated] using
      tail.prepend (head.feed_separator (container.comma _) (container.idle_ready _) level)

/-- A container is read from its opening bracket to its closing one. -/
theorem feed_bracket {start : Reader} {opening ending : String}
    (opens : start.feed (utf8 opening) = some opened) (ends : utf8 ending = [closing]) (level : Nat)
    (parts : List α)
    (each : ∀ part ∈ parts, ∀ before, (ready before).Reaches (text part) (settled (part :: before))) :
    start.feed (utf8 (bracket opening ending level (parts.map text))) = some (closed parts) := by
  cases parts with
  | nil =>
    rw [List.map_nil, bracket, utf8_append, feed_append, opens, Option.bind_some, ends, feed,
      container.closes_empty]
    rfl
  | cons first rest =>
    have inside := Reaches.enter container.idle_opened (container.idle_ready [])
      (container.idle_settled _) (container.away _) container.enters
      (container.reaches_separated (level + 1) first rest [] each)
    have content := (inside.prepend (container.idle_opened.feed_newline (level + 1))).feed_newline
      (container.idle_settled _) level
    have closes := container.closes ((first :: rest).reverse ++ [])
    rw [List.append_nil, List.reverse_reverse] at closes
    calc start.feed (utf8 (bracket opening ending level ((first :: rest).map text)))
      _ = ((start.feed (utf8 opening)).bind (·.feed (utf8 (newline (level + 1) ++
            separated ("," ++ newline (level + 1)) ((first :: rest).map text) ++
            newline level)))).bind (·.feed (utf8 ending)) := by
        rw [← feed_append, ← feed_append, ← utf8_append, ← utf8_append]
        simp only [List.map_cons, bracket, String.append_assoc]
      _ = (settled (first :: rest).reverse).feed [closing] := by
        rw [opens, Option.bind_some, content, Option.bind_some, ends, List.append_nil]
      _ = some (closed (first :: rest)) := by
        rw [feed, closes]
        rfl

end Container

theorem feed_word_null (around : List Frame) :
    (Reader.expectValue around).feed (utf8 "null") = some (deliver .null around) := by
  have bytes : utf8 "null" = [0x6E, 0x75, 0x6C, 0x6C] := by decide
  simp [bytes, feed, Reader.step, between, isSpace, beginValue]

theorem feed_word_bool (value : Bool) (around : List Frame) :
    (Reader.expectValue around).feed (utf8 (if value then "true" else "false")) =
      some (deliver (.bool value) around) := by
  have bytes : utf8 "true" = [0x74, 0x72, 0x75, 0x65] ∧
      utf8 "false" = [0x66, 0x61, 0x6C, 0x73, 0x65] := by decide
  cases value <;> simp [bytes, feed, Reader.step, between, isSpace, beginValue]

theorem reaches_naturalText {n : Nat} (small : n < Nat.pow 2 64) (around : List Frame) :
    (Reader.expectValue around).Reaches (naturalText n) (deliver (.integer n) around) := by
  refine ⟨_, feed_naturalText n small around, ?_, ?_⟩
  · rcases around with - | ⟨_ | _, around⟩
    · exact Numeral.value?_ofNat n
    · rfl
    · rfl
  · intro byte separator
    have settled : (deliver (.integer n) around).step byte =
        (deliver (.integer n) around).between byte := by
      rcases around with - | ⟨_ | _, around⟩ <;> rfl
    rw [settled, Reader.step, Numeral.step_ofNat_of_separator n separator]

/-- The name of a member is read up to where its value begins. -/
theorem feed_memberName (before : List (String × Json)) (name : String) (around : List Frame) :
    (Reader.memberName before around).feed (utf8 (quote name ++ ": ")) =
      some (.expectValue (.object before name :: around)) := by
  have opens : (Reader.memberName before around).step 0x22 = some (.text (.name before) {} around) := rfl
  have marks : utf8 ": " = [0x3A, 0x20] := by decide
  rw [utf8_append, feed_append, feed_quote opens, Option.bind_some, marks]
  rfl

end Reader

open Reader

/-- What was laid out at any level takes a reader that expects a value to that value. -/
theorem reaches_layOut {room : Nat} {value : Json} (legible : Legible room value) (level : Nat)
    (around : List Frame) (deep : around.length + room ≤ depthLimit) :
    (expectValue around).Reaches (layOut level value) (deliver value around) := by
  induction legible generalizing level around with
  | null => exact .of_feed (feed_word_null around)
  | bool _ value => exact .of_feed (feed_word_bool value around)
  | natural _ small => exact reaches_naturalText small around
  | string _ value =>
    have opens : (expectValue around).step 0x22 = some (.text .value {} around) := rfl
    exact .of_feed (feed_quote opens value)
  | @array room elements each ih =>
    have opens : (expectValue around).feed (utf8 "[") = some (.arrayStart around) := by
      have shallow : around.length < depthLimit := by omega
      have mark : utf8 "[" = [0x5B] := by decide
      simp [mark, feed, Reader.step, between, isSpace, beginValue, shallow]
    rw [layOut, layOutElements_eq_map]
    apply Reaches.of_feed
    apply (container_array around).feed_bracket opens (by decide) level elements
    intro element member before
    exact ih element member (level + 1) (.array before :: around)
      (by simp only [List.length_cons]; omega)
  | @object room members each ih =>
    have opens : (expectValue around).feed (utf8 "\x7b") = some (.objectStart around) := by
      have shallow : around.length < depthLimit := by omega
      have mark : utf8 "\x7b" = [0x7B] := by decide
      simp [mark, feed, Reader.step, between, isSpace, beginValue, shallow]
    rw [layOut, layOutMembers_eq_map]
    apply Reaches.of_feed
    apply (container_object around).feed_bracket opens (by decide) level members
    intro member inside before
    apply Reaches.prepend (feed_memberName before member.1 around)
    exact ih member inside (level + 1) (.object before member.1 :: around)
      (by simp only [List.length_cons]; omega)

/-- A value that is not nested too deep is read back from its text. -/
theorem read_pretty {value : Json} (legible : Legible depthLimit value) :
    read (.ofString value.pretty) = .ok value := by
  obtain ⟨after, fed, finishes, -⟩ := reaches_layOut legible 0 [] (by simp)
  have complete : after.finish? = some value := finishes
  have start : Reader.start.feedAll [utf8 value.pretty] = some after := by
    simpa [feedAll_eq_feed_flatten, Reader.start, pretty] using fed
  simp [read, Stream.ofString, start, complete]

end ItemSchema.Json
