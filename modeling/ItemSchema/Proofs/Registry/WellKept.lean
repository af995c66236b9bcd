import ItemSchema.Proofs.Registry.Reachable

/-! What every registry keeps to, whatever is registered.

Each record stands under its own name, once, and no name in a record is blank. A
declaration is merged into the record of its name alone, and what it brings is
trimmed or passed over before it is written. So one merge keeps all tables in order,
and with it every way to a registry does.
-/

set_option autoImplicit false

namespace ItemSchema

/-- Whatever is given is not blank. -/
def Text.NotBlankIfGiven (text : Option String) : Prop :=
  ∀ given, text = some given → isBlank given = false

theorem Text.notBlankIfGiven_bind_nonBlank? (text : Option String) :
    NotBlankIfGiven (text.bind nonBlank?) := by
  intro given isGiven
  rw [bind_nonBlank?, Option.filter_eq_some_iff] at isGiven
  simpa using isGiven.2

namespace Table

variable {κ α : Type}

/-- A table with every key once, and with nothing under a key but what is allowed there. -/
structure Keeps (table : Table κ α) (Allows : κ → α → Prop) : Prop where
  distinct : table.keys.Nodup
  allowed : ∀ entry ∈ table.entries, Allows entry.1 entry.2

variable {table : Table κ α} {Allows : κ → α → Prop}

theorem keeps_empty : (empty : Table κ α).Keeps Allows where
  distinct := List.nodup_nil
  allowed _ none := (List.not_mem_nil none).elim

theorem Keeps.mono (keeps : table.Keeps Allows) {Other : κ → α → Prop}
    (weaker : ∀ key value, Allows key value → Other key value) : table.Keeps Other where
  distinct := keeps.distinct
  allowed entry member := weaker _ _ (keeps.allowed entry member)

/-- What every write keeps is kept by all of them. -/
theorem Keeps.foldl {β : Type} {write : Table κ α → β → Table κ α} {parts : List β}
    (keeps : table.Keeps Allows)
    (writes : ∀ part ∈ parts, ∀ table : Table κ α, table.Keeps Allows → (write table part).Keeps Allows) :
    (parts.foldl write table).Keeps Allows :=
  List.foldlRecOn (motive := (·.Keeps Allows)) parts write keeps fun written kept part member =>
    writes part member written kept

variable [DecidableEq κ]

theorem mem_entries_of_find? {key : κ} {value : α} (found : table.find? key = some value) :
    (key, value) ∈ table.entries := by
  rw [find?, lookup_eq_head?_filter, Option.map_eq_some_iff] at found
  obtain ⟨entry, isFirst, rfl⟩ := found
  obtain ⟨member, same⟩ := List.mem_filter.mp (List.mem_of_head? isFirst)
  rw [← of_decide_eq_true same]
  exact member

theorem Keeps.find? (keeps : table.Keeps Allows) {key : κ} {value : α}
    (found : table.find? key = some value) : Allows key value :=
  keeps.allowed _ (mem_entries_of_find? found)

theorem Keeps.getD_find? (keeps : table.Keeps Allows) {key : κ} {otherwise : α}
    (fits : Allows key otherwise) : Allows key ((table.find? key).getD otherwise) := by
  cases found : table.find? key with
  | none => exact fits
  | some value => exact keeps.find? found

theorem Keeps.insert (keeps : table.Keeps Allows) {key : κ} {value : α} (fits : Allows key value) :
    (table.insert key value).Keeps Allows where
  distinct := nodup_keys_insert keeps.distinct key value
  allowed entry member := by
    rcases mem_place member with rfl | held
    · exact fits
    · exact keeps.allowed entry held

theorem Keeps.insertIfNew (keeps : table.Keeps Allows) {key : κ} {value : α} (fits : Allows key value) :
    (table.insertIfNew key value).Keeps Allows := by
  unfold Table.insertIfNew
  split
  · exact keeps
  · exact keeps.insert fits

theorem Keeps.insertAll (keeps : table.Keeps Allows) {written : List (κ × α)}
    (fits : ∀ entry ∈ written, Allows entry.1 entry.2) : (table.insertAll written).Keeps Allows :=
  keeps.foldl fun entry member _ kept => kept.insert (fits entry member)

theorem Keeps.insertAllIfNew (keeps : table.Keeps Allows) {offered : List (κ × α)}
    (fits : ∀ entry ∈ offered, Allows entry.1 entry.2) : (table.insertAllIfNew offered).Keeps Allows :=
  keeps.foldl fun entry member _ kept => kept.insertIfNew (fits entry member)

end Table

/-- A record under its own name, which is not blank. -/
structure HeldUnder {α : Type} (nameOf : α → String) (name : String) (record : α) : Prop where
  named : nameOf record = name
  notBlank : Text.isBlank name = false

/-- A record under its own name, as trimming leaves it. -/
structure HeldTrimmed {α : Type} (nameOf : α → String) (name : String) (record : α) : Prop
    extends HeldUnder nameOf name record where
  trimmed : Text.trim name = name

theorem heldTrimmed_of_trimmed? {α : Type} {nameOf : α → String} {name given : String} {record : α}
    (trimmed : Text.trimmed? given = some name) (named : nameOf record = name) :
    HeldTrimmed nameOf name record := by
  obtain ⟨present, same⟩ := (Text.trimmed?_eq_some_iff _ _).mp (Text.trimmed?_of_trimmed? trimmed)
  exact { named, notBlank := by simpa using present, trimmed := same }

/-- An attribute as an item holds it. -/
structure Attribute.IsKeptUnder (item name : String) (held : Attribute) : Prop
    extends HeldTrimmed Attribute.name name held where
  declaringItem : held.declaringItem = item
  typeRef : Text.NotBlankIfGiven held.typeRef

theorem Attribute.isKeptUnder_of_eq_some {item : String} {declaration : AttributeDeclaration}
    {built : Attribute} (made : ofDeclaration? item declaration = some built) :
    built.IsKeptUnder item built.name := by
  obtain ⟨name, trimmed, rfl⟩ := Option.map_eq_some_iff.mp made
  exact
    { heldTrimmed_of_trimmed? trimmed rfl with
      declaringItem := rfl
      typeRef := Text.notBlankIfGiven_bind_nonBlank? _ }

theorem Index.keeps_mergeInto {indexes : Table String Index} (keeps : indexes.Keeps (HeldTrimmed Index.name))
    {declared index : Index} (made : declared.named? = some index) :
    (mergeInto indexes index).Keeps (HeldTrimmed Index.name) := by
  obtain ⟨name, trimmed, rfl⟩ := Option.map_eq_some_iff.mp made
  have held : HeldTrimmed Index.name name { declared with name } :=
    heldTrimmed_of_trimmed? trimmed rfl
  unfold mergeInto
  split
  · exact keeps.insert held
  · exact keeps.insertIfNew held

/-- An item as its declarations make it. -/
structure Item.IsKeptUnder (name : String) (item : Item) : Prop extends HeldUnder Item.name name item where
  parent : Text.NotBlankIfGiven item.parent
  attributes : item.attributes.Keeps (Attribute.IsKeptUnder item.name)
  indexes : item.indexes.Keeps (HeldTrimmed Index.name)
  declared : item.synthetic = false

/-- An item before its first declaration. -/
theorem Item.isKeptUnder_new {name : String} (notBlank : Text.isBlank name = false) :
    IsKeptUnder name { name } where
  named := rfl
  notBlank := notBlank
  parent _ isGiven := by cases isGiven
  attributes := Table.keeps_empty
  indexes := Table.keeps_empty
  declared := rfl

theorem ParentPolicy.notBlankIfGiven_merge (policy : ParentPolicy) {current incoming : Option String}
    (currentSound : Text.NotBlankIfGiven current) (incomingSound : Text.NotBlankIfGiven incoming) :
    Text.NotBlankIfGiven (policy.merge current incoming).1 := by
  intro given isGiven
  have oneOf : current = some given ∨ incoming = some given := by
    cases current with
    | none => cases incoming <;> simp_all [merge]
    | some current =>
      cases incoming with
      | none => simp_all [merge]
      | some incoming =>
        by_cases same : current = incoming <;> cases policy <;> simp_all [merge, choose]
  exact oneOf.elim (currentSound given) (incomingSound given)

theorem Item.IsKeptUnder.merge {name : String} {item : Item} (kept : item.IsKeptUnder name)
    (policy : ParentPolicy) (declaration : ItemDeclaration) :
    (item.merge policy declaration).1.IsKeptUnder name where
  named := kept.named
  notBlank := kept.notBlank
  parent := policy.notBlankIfGiven_merge kept.parent (Text.notBlankIfGiven_bind_nonBlank? _)
  attributes := by
    refine kept.attributes.insertAll fun entry written => ?_
    obtain ⟨built, isBuilt, rfl⟩ := List.mem_map.mp written
    obtain ⟨declared, -, made⟩ := List.mem_filterMap.mp isBuilt
    exact Attribute.isKeptUnder_of_eq_some made
  indexes := by
    refine kept.indexes.foldl fun index given _ keeps => ?_
    obtain ⟨declared, -, made⟩ := List.mem_filterMap.mp given
    exact Index.keeps_mergeInto keeps made
  declared := rfl

/-- An enumeration as its declarations make it: no code of a value is blank. -/
structure Enumeration.IsKeptUnder (name : String) (enumeration : Enumeration) : Prop
    extends HeldUnder Enumeration.name name enumeration where
  values : enumeration.values.Keeps fun code _ => Text.isBlank code = false

theorem Enumeration.isKeptUnder_new {name : String} (notBlank : Text.isBlank name = false) :
    IsKeptUnder name { name } where
  named := rfl
  notBlank := notBlank
  values := Table.keeps_empty

theorem Enumeration.IsKeptUnder.merge {name : String} {enumeration : Enumeration}
    (kept : enumeration.IsKeptUnder name) (declaration : EnumerationDeclaration) :
    (enumeration.merge declaration).IsKeptUnder name where
  named := kept.named
  notBlank := kept.notBlank
  values := by
    refine kept.values.insertAllIfNew fun entry offered => ?_
    obtain ⟨value, -, given⟩ := List.mem_filterMap.mp offered
    obtain ⟨code, coded, rfl⟩ := Option.map_eq_some_iff.mp given
    exact Text.notBlankIfGiven_bind_nonBlank? (some value.code) code coded

/-- An end of a relation, labelled with the relation and the side it is on. -/
structure RelationEnd.IsKeptAt (relation : String) (side : Side) (relationEnd : RelationEnd) : Prop where
  relation : relationEnd.relation = relation
  side : relationEnd.side = side
  qualifier : Text.NotBlankIfGiven relationEnd.qualifier
  typeName : Text.NotBlankIfGiven relationEnd.typeName

theorem RelationEnd.isKeptAt_ofDeclaration (relation : String) (side : Side) (declaration : EndDeclaration) :
    (ofDeclaration relation side declaration).IsKeptAt relation side where
  relation := rfl
  side := rfl
  qualifier := Text.notBlankIfGiven_bind_nonBlank? _
  typeName := Text.notBlankIfGiven_bind_nonBlank? _

/-- A relation as its declaration makes it. -/
structure Relation.IsKeptUnder (name : String) (relation : Relation) : Prop
    extends HeldUnder Relation.name name relation where
  ends : ∀ side, (relation.atSide side).IsKeptAt relation.name side

theorem Relation.isKeptUnder_ofDeclaration {declaration : RelationDeclaration}
    (notBlank : Text.isBlank declaration.name = false) :
    (ofDeclaration declaration).IsKeptUnder declaration.name where
  named := rfl
  notBlank := notBlank
  ends side := by
    cases side <;> exact RelationEnd.isKeptAt_ofDeclaration _ _ _

theorem Declaration.isAccepted_iff (declaration : Declaration) :
    declaration.isAccepted ↔ Text.isBlank declaration.name = false := by
  cases blank : Text.isBlank declaration.name <;> simp [isAccepted, rejection?, blank]

namespace Registry

/-- Every table has each record under its own name, once, with all names in it in order. -/
structure WellKept (registry : Registry) : Prop where
  items : registry.items.Keeps Item.IsKeptUnder
  enumerations : registry.enumerations.Keeps Enumeration.IsKeptUnder
  relations : registry.relations.Keeps Relation.IsKeptUnder
  collections : registry.collections.Keeps (HeldUnder CollectionType.name)
  atomics : registry.atomics.Keeps (HeldUnder AtomicType.className)
  maps : registry.maps.Keeps (HeldUnder MapType.name)

theorem wellKept_ofSettings (settings : Settings) : (ofSettings settings).WellKept :=
  ⟨Table.keeps_empty, Table.keeps_empty, Table.keeps_empty, Table.keeps_empty, Table.keeps_empty,
    Table.keeps_empty⟩

/-- Merging writes to one table at most, and there under the name of the declaration. -/
theorem WellKept.merge {registry : Registry} (kept : registry.WellKept) {declaration : Declaration}
    (accepted : declaration.isAccepted) : (registry.merge declaration).WellKept := by
  have notBlank := declaration.isAccepted_iff.mp accepted
  cases declaration with
  | item declaration =>
    have known := kept.items.getD_find? (Item.isKeptUnder_new notBlank)
    exact { kept with items := kept.items.insert (known.merge registry.parentPolicy declaration) }
  | enumeration declaration =>
    have known := kept.enumerations.getD_find? (Enumeration.isKeptUnder_new notBlank)
    exact { kept with enumerations := kept.enumerations.insert (known.merge declaration) }
  | relation declaration =>
    -- a relation is written once, and so is an atomic type: only a new name changes the table
    have held := Relation.isKeptUnder_ofDeclaration notBlank
    rw [Registry.merge, mergeRelation_eq]
    exact { kept with relations := kept.relations.insertIfNew held }
  | collection declaration =>
    exact { kept with collections := kept.collections.insert ⟨rfl, notBlank⟩ }
  | atomic declaration =>
    rw [Registry.merge, mergeAtomic_eq]
    exact { kept with atomics := kept.atomics.insertIfNew ⟨rfl, notBlank⟩ }
  | map declaration =>
    have new : HeldUnder MapType.name declaration.name { name := declaration.name } := ⟨rfl, notBlank⟩
    have known := kept.maps.getD_find? new
    exact { kept with maps := kept.maps.insert ⟨known.named, notBlank⟩ }

theorem WellKept.registerAll {registry : Registry} (kept : registry.WellKept)
    (declarations : List Declaration) : (registry.registerAll declarations).1.WellKept := by
  rw [registerAll_eq_foldl]
  exact List.foldlRecOn _ _ kept fun _ before _ member => before.merge (List.mem_filter.mp member).2

theorem Reachable.wellKept {registry : Registry} (reachable : registry.Reachable) :
    registry.WellKept := by
  induction reachable with
  | empty settings => exact wellKept_ofSettings settings
  | register _ registered ih =>
    obtain ⟨accepted, rfl⟩ := (register_eq_ok_iff _ _ _).mp registered
    exact ih.merge accepted
  | registerAll _ declarations ih => exact ih.registerAll declarations
  | @clear registry _ _ => exact wellKept_ofSettings { parentPolicy := registry.parentPolicy }

end Registry

end ItemSchema
