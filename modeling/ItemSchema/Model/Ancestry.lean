import ItemSchema.Model.Basic

/-! The chain of an item and its ancestors, nearest first.

The chain follows the parent names and ends where an item has no parent, where
the parent is not an item of the model, or where it is already in the chain. So
it is finite whatever the declarations say.
-/

set_option autoImplicit false

namespace ItemSchema.Model

/-- The next item up, unless its name was met before. -/
def nextUp? (model : Model) (visited : List String) (item : Item) : Option Item :=
  (item.parentName? model.rootName).bind fun parent =>
    if parent ∈ visited then none else model.items.find? parent

/-- An item and its ancestors, going up a number of steps at most. -/
def climb (model : Model) : Nat → List String → Item → List Item
  | 0, _, item => [item]
  | steps + 1, visited, item =>
      item ::
        match model.nextUp? visited item with
        | none => []
        | some parent => model.climb steps (parent.name :: visited) parent

/-- An item and its ancestors. Every step up meets another item of the model, so there are
never more steps than items. -/
def ancestry (model : Model) (item : Item) : List Item :=
  model.climb model.items.size [item.name] item

/-- The chain of a name; it is empty when the name is not an item. -/
def ancestryOf (model : Model) (name : String) : List Item :=
  match model.items.find? name with
  | some item => model.ancestry item
  | none => []

def ancestors (model : Model) (item : Item) : List Item := (model.ancestry item).tail

def isSubtypeOf (model : Model) (item : Item) (ancestor : String) : Bool :=
  (model.ancestry item).any (·.name == ancestor)

/-- The items whose features count: the whole chain, or the item alone. -/
def levels (model : Model) (item : Item) (inherited : Bool) : List Item :=
  if inherited then model.ancestry item else [item]

theorem climb_eq_cons (model : Model) (steps : Nat) (visited : List String) (item : Item) :
    ∃ rest, model.climb steps visited item = item :: rest := by
  cases steps with
  | zero => exact ⟨[], rfl⟩
  | succ steps => exact ⟨_, rfl⟩

end ItemSchema.Model
