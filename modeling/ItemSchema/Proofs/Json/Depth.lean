import ItemSchema.Json.Reader

/-! No value that is read nests deeper than the limit of the reader.

The reader counts the frames around a value only when a bracket opens one more. The
depth of what it builds is bounded by the same count: each open array or object, as
far as it has been read, fits below the ones around it, and closing it changes
neither.
-/

set_option autoImplicit false

namespace ItemSchema.Json

mutual

/-- How deep arrays and objects nest in a value. -/
def depth : Json → Nat
  | .array elements => depthOfElements elements + 1
  | .object members => depthOfMembers members + 1
  | .null | .bool _ | .integer _ | .decimal _ _ _ | .string _ => 0

def depthOfElements : List Json → Nat
  | [] => 0
  | element :: rest => max (depth element) (depthOfElements rest)

def depthOfMembers : List (String × Json) → Nat
  | [] => 0
  | (_, value) :: rest => max (depth value) (depthOfMembers rest)

end

@[simp] theorem depth_string (value : String) : (string value).depth = 0 := rfl

/-- An array fits below so many others if there is room for one more with each element in it. -/
@[simp] theorem depth_array_add_le_iff {elements : List Json} {level limit : Nat} :
    (array elements).depth + level ≤ limit ↔
      level < limit ∧ ∀ element ∈ elements, element.depth + level < limit := by
  induction elements with
  | nil =>
    simp only [depth, depthOfElements, List.not_mem_nil, false_implies, implies_true, and_true]
    omega
  | cons element rest ih =>
    rw [List.forall_mem_cons, and_left_comm, ← ih]
    simp only [depth, depthOfElements]
    omega

theorem depthOfMembers_eq (members : List (String × Json)) :
    depthOfMembers members = depthOfElements (members.map Prod.snd) := by
  induction members with
  | nil => rfl
  | cons member rest ih => rw [depthOfMembers, ih, List.map_cons, depthOfElements]

@[simp] theorem depth_object_add_le_iff {members : List (String × Json)} {level limit : Nat} :
    (object members).depth + level ≤ limit ↔
      level < limit ∧ ∀ member ∈ members, member.2.depth + level < limit := by
  have same : (object members).depth = (array (members.map Prod.snd)).depth := by
    rw [depth, depth, depthOfMembers_eq]
  rw [same, depth_array_add_le_iff, List.forall_mem_map]

section Numbers

variable {numeral : Numeral} {digits : Digits} {value : Json}

theorem Digits.depth_of_toDecimal? (decimal : digits.toDecimal? = some value) : value.depth = 0 := by
  unfold toDecimal? at decimal
  split at decimal
  · cases decimal
  · cases decimal
    rfl

theorem Digits.depth_of_toWhole? (whole : digits.toWhole? = some value) : value.depth = 0 := by
  unfold toWhole? at whole
  split at whole
  · exact depth_of_toDecimal? whole
  split at whole
  · cases whole
    rfl
  split at whole
  · cases whole
    rfl
  · exact depth_of_toDecimal? whole

theorem Numeral.depth_of_value? (complete : numeral.value? = some value) : value.depth = 0 := by
  cases numeral with
  | zero | whole => exact Digits.depth_of_toWhole? complete
  | fraction | exponent => exact Digits.depth_of_toDecimal? complete
  | sign | point | exponentMark | exponentSign => cases complete

/-- A number that ends before a byte has the value it would have at the end of the text. -/
theorem Numeral.value?_of_step {byte : UInt8} (ended : numeral.step byte = .ends value) :
    numeral.value? = some value := by
  simp only [Numeral.step.eq_def] at ended
  grind [afterWhole, finish, pushExponent]

end Numbers

/-- How deep an open array or object nests, as far as it has been read. -/
def Frame.depth : Frame → Nat
  | .array elements => (Json.array elements).depth
  | .object members _ => (Json.object members).depth

/-- Each open array or object fits below those around it. -/
def Fits : List Frame → Prop
  | [] => True
  | frame :: around => frame.depth + around.length ≤ Reader.depthLimit ∧ Fits around

theorem Fits.length_le {around : List Frame} (fits : Fits around) : around.length ≤ Reader.depthLimit := by
  cases around with
  | nil => exact Nat.zero_le _
  | cons frame around =>
    cases frame with
    | array elements => exact (depth_array_add_le_iff.mp fits.1).1
    | object members name => exact (depth_object_add_le_iff.mp fits.1).1

namespace Reader

/-- Whatever was read so far fits below what is around it. -/
def Shallow : Reader → Prop
  | .expectValue around | .number _ around | .text .value _ around => Fits around
  | .arrayStart around => (array []).depth + around.length ≤ depthLimit ∧ Fits around
  | .arrayRest elements around => (array elements).depth + around.length ≤ depthLimit ∧ Fits around
  | .objectStart around => (object []).depth + around.length ≤ depthLimit ∧ Fits around
  | .memberName members around | .colon members _ around | .objectRest members around
  | .text (.name members) _ around => (object members).depth + around.length ≤ depthLimit ∧ Fits around
  | .word _ _ value around => value.depth = 0 ∧ Fits around
  | .done value => value.depth ≤ depthLimit

variable {reader next : Reader} {around : List Frame} {value : Json} {byte : UInt8}

theorem shallow_deliver (fits : Fits around) (room : value.depth + around.length ≤ depthLimit) :
    (deliver value around).Shallow := by
  cases around with
  | nil => exact room
  | cons frame around =>
    obtain ⟨opened, fits⟩ := fits
    have gained : value.depth + around.length < depthLimit := room
    cases frame with
    | array elements =>
      obtain ⟨below, others⟩ := depth_array_add_le_iff.mp opened
      refine ⟨depth_array_add_le_iff.mpr ⟨below, ?_⟩, fits⟩
      exact List.forall_mem_cons.mpr ⟨gained, others⟩
    | object members name =>
      obtain ⟨below, others⟩ := depth_object_add_le_iff.mp opened
      refine ⟨depth_object_add_le_iff.mpr ⟨below, ?_⟩, fits⟩
      exact List.forall_mem_cons.mpr ⟨gained, others⟩

/-- A value without arrays and objects has room wherever one may stand. -/
theorem shallow_deliver_of_flat (fits : Fits around) (flat : value.depth = 0) :
    (deliver value around).Shallow := by
  apply shallow_deliver fits
  rw [flat, Nat.zero_add]
  exact fits.length_le

theorem Shallow.of_beginValue (fits : Fits around) (begun : beginValue around byte = some next) :
    next.Shallow := by
  cases spelled : digit? byte <;> grind [beginValue, Shallow, depth, depthOfElements, depthOfMembers]

theorem Shallow.of_between (shallow : reader.Shallow) (stepped : reader.between byte = some next) :
    next.Shallow := by
  unfold between at stepped
  split at stepped
  · cases stepped
    exact shallow
  cases reader with
  | expectValue around => exact .of_beginValue shallow stepped
  | arrayStart around =>
    have opened : Fits (.array [] :: around) := shallow
    have closed : (deliver (array []) around).Shallow := shallow_deliver shallow.2 shallow.1
    grind [Shallow.of_beginValue]
  | arrayRest elements around =>
    -- the depth does not depend on the order, which is turned round at the end
    have opened : (expectValue (.array elements :: around)).Shallow := shallow
    have closed : (deliver (array elements.reverse) around).Shallow :=
      shallow_deliver shallow.2 (by simpa using shallow.1)
    grind
  | objectStart around =>
    have opened : (text (.name []) {} around).Shallow := shallow
    have closed : (deliver (object []) around).Shallow := shallow_deliver shallow.2 shallow.1
    grind
  | memberName members around =>
    have opened : (text (.name members) {} around).Shallow := shallow
    grind
  | colon members name around =>
    have opened : (expectValue (.object members name :: around)).Shallow := shallow
    grind
  | objectRest members around =>
    have opened : (memberName members around).Shallow := shallow
    have closed : (deliver (object members.reverse) around).Shallow :=
      shallow_deliver shallow.2 (by simpa using shallow.1)
    grind
  | _ => cases stepped

theorem Shallow.of_step (shallow : reader.Shallow) (stepped : reader.step byte = some next) :
    next.Shallow := by
  cases reader with
  | word expected letters value around =>
    obtain ⟨flat, fits⟩ := shallow
    obtain ⟨-, stepped⟩ := Option.ite_none_right_eq_some.mp stepped
    cases letters with
    | nil =>
      cases stepped
      exact shallow_deliver_of_flat fits flat
    | cons letter letters =>
      cases stepped
      exact ⟨flat, fits⟩
  | number numeral around =>
    simp only [step] at stepped
    split at stepped
    · cases stepped
      exact shallow
    · next value ended =>
      have flat : value.depth = 0 := Numeral.depth_of_value? (Numeral.value?_of_step ended)
      exact (shallow_deliver_of_flat shallow flat).of_between stepped
    · cases stepped
  | text role quoted around =>
    simp only [step] at stepped
    split at stepped
    · cases stepped
      cases role <;> exact shallow
    · cases role with
      | value =>
        cases stepped
        exact shallow_deliver_of_flat shallow (depth_string _)
      | name members =>
        cases stepped
        exact shallow
    · cases stepped
  | _ => exact shallow.of_between stepped

theorem Shallow.of_feed {bytes : List UInt8} (shallow : reader.Shallow)
    (fed : reader.feed bytes = some next) : next.Shallow := by
  induction bytes generalizing reader with
  | nil =>
    cases fed
    exact shallow
  | cons byte bytes ih =>
    obtain ⟨middle, stepped, later⟩ := Option.bind_eq_some_iff.mp fed
    exact ih (shallow.of_step stepped) later

theorem Shallow.of_finish? (shallow : reader.Shallow) (finished : reader.finish? = some value) :
    value.depth ≤ depthLimit := by
  unfold finish? at finished
  split at finished
  · cases finished
    exact shallow
  · rw [Numeral.depth_of_value? finished]
    exact Nat.zero_le _
  · cases finished

end Reader

/-- Whatever is read from a stream keeps to the limit of the reader. -/
theorem depth_le_of_read {stream : Stream} {value : Json} (read : Json.read stream = .ok value) :
    value.depth ≤ Reader.depthLimit := by
  unfold Json.read at read
  split at read
  · cases read
  · next reader fed =>
    split at read
    · cases read
    · split at read
      · next finished =>
        cases read
        rw [Reader.feedAll_eq_feed_flatten] at fed
        have shallow : Reader.start.Shallow := trivial
        exact (shallow.of_feed fed).of_finish? finished
      · cases read

end ItemSchema.Json
