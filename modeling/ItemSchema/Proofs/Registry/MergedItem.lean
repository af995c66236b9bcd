import ItemSchema.Proofs.Registry.Tables

/-! Items as their declarations make them, part by part.

Each part of an item follows a rule of its own: the policy picks one of the parents
named, flags and origins add up, the last attribute and the last property of a name
stand, and the first index of a name stands until another one replaces it. No rule
tells whether two parts come from one declaration or from several.
-/

set_option autoImplicit false

namespace ItemSchema

/-- The properties of a list under their trimmed names, without the blank ones. The last value of a
name stands. -/
def HoldsProperties (table : Table String String) (written : List CustomProperty) : Prop :=
  table.Collects (Text.trimmed? ·.name) (fun own value => own.getLast?.map (·.value) = some value) written

theorem holdsProperties_insertAll (written : List CustomProperty) :
    HoldsProperties (Table.empty.insertAll (written.filterMap CustomProperty.entry?)) written := by
  refine Table.collects_insertAll ?_ ?_ written
  · intro property
    simp [CustomProperty.entry?, Function.comp_def]
  · intro own last entry isLast given
    obtain ⟨name, -, rfl⟩ := Option.map_eq_some_iff.mp given
    simp [isLast]

/-- An attribute as one declaration puts it on an item. -/
structure Attribute.IsBuiltFrom (item : String) (declaration : AttributeDeclaration)
    (built : Attribute) : Prop where
  eq_some : Attribute.ofDeclaration? item declaration = some built
  name : Text.trimmed? declaration.name = some built.name
  declaringItem : built.declaringItem = item
  typeRef : built.typeRef = declaration.typeRef.filter (!Text.isBlank ·)
  customProperties : HoldsProperties built.customProperties declaration.customProperties

theorem Attribute.isBuiltFrom_of_eq_some {item : String} {declaration : AttributeDeclaration}
    {built : Attribute} (made : ofDeclaration? item declaration = some built) :
    built.IsBuiltFrom item declaration := by
  obtain ⟨name, trimmed, rfl⟩ := Option.map_eq_some_iff.mp made
  exact ⟨made, trimmed, rfl, Text.bind_nonBlank? _, holdsProperties_insertAll _⟩

/-- The parent that an item keeps of all that are named for it, in order. -/
def ParentPolicy.prevailing? : ParentPolicy → List String → Option String
  | .firstWins, parents => parents.head?
  | .lastWins, parents => parents.getLast?

namespace ParentPolicy

theorem fst_merge (policy : ParentPolicy) (current incoming : Option String) :
    (policy.merge current incoming).1 = policy.prevailing? (current.toList ++ incoming.toList) := by
  cases current with
  | none => cases policy <;> cases incoming <;> rfl
  | some current =>
    cases incoming with
    | none => cases policy <;> rfl
    | some incoming =>
      by_cases same : current = incoming <;> cases policy <;>
        simp [merge, choose, prevailing?, same]

/-- Of the parents named so far only the one that prevails is remembered. -/
theorem prevailing?_append (policy : ParentPolicy) (earlier later : List String) :
    policy.prevailing? ((policy.prevailing? earlier).toList ++ later) =
      policy.prevailing? (earlier ++ later) := by
  cases policy with
  | firstWins => cases earlier <;> rfl
  | lastWins =>
    simp only [prevailing?, List.getLast?_append]
    cases earlier.getLast? <;> rfl

end ParentPolicy

/-- An item as its declarations make it. Its indexes are left to a rule of their own. -/
structure Item.IsMergeOf (policy : ParentPolicy) (declared : List ItemDeclaration) (item : Item) :
    Prop where
  parent : item.parent = policy.prevailing? (declared.filterMap (·.parent?))
  attributes : item.attributes.Collects (Text.trimmed? ·.name)
    (fun own built => ∃ last, own.getLast? = some last ∧ built.IsBuiltFrom item.name last)
    (declared.flatMap (·.attributes))
  customProperties : HoldsProperties item.customProperties (declared.flatMap (·.customProperties))
  flags : item.flags =
    { isAbstract := declared.any (·.flags.isAbstract)
      autocreate := declared.any (·.flags.autocreate)
      generate := declared.any (·.flags.generate)
      singleton := declared.any (·.flags.singleton)
      jaloOnly := declared.any (·.flags.jaloOnly) }
  declarations : item.declarations = declared.filterMap (·.origin)
  notSynthetic : item.synthetic = false

namespace Item

variable (policy : ParentPolicy) (item : Item) (declared : List ItemDeclaration)

theorem parent_mergeAll :
    (item.mergeAll policy declared).parent =
      policy.prevailing? (item.parent.toList ++ declared.filterMap (·.parent?)) := by
  induction declared generalizing item with
  | nil => cases policy <;> cases own : item.parent <;> simp [mergeAll, ParentPolicy.prevailing?, own]
  | cons declaration rest ih =>
    have merged : (item.merge policy declaration).1.parent =
        policy.prevailing? (item.parent.toList ++ declaration.parent?.toList) :=
      policy.fst_merge item.parent declaration.parent?
    calc (item.mergeAll policy (declaration :: rest)).parent
        = policy.prevailing? ((item.merge policy declaration).1.parent.toList ++
            rest.filterMap (·.parent?)) := ih _
      _ = policy.prevailing? (item.parent.toList ++ declaration.parent?.toList ++
            rest.filterMap (·.parent?)) := by rw [merged, policy.prevailing?_append]
      _ = policy.prevailing? (item.parent.toList ++ (declaration :: rest).filterMap (·.parent?)) := by
        cases named : declaration.parent? <;> simp [named]

theorem customProperties_mergeAll :
    (item.mergeAll policy declared).customProperties =
      item.customProperties.insertAll
        ((declared.flatMap (·.customProperties)).filterMap CustomProperty.entry?) := by
  rw [Table.insertAll, List.filterMap_flatMap, List.foldl_flatMap]
  exact (List.foldl_hom Item.customProperties fun item declaration => rfl).symm

theorem indexes_mergeAll :
    (item.mergeAll policy declared).indexes =
      ((declared.flatMap (·.indexes)).filterMap Index.named?).foldl Index.mergeInto item.indexes := by
  rw [List.filterMap_flatMap, List.foldl_flatMap]
  exact (List.foldl_hom Item.indexes fun item declaration => rfl).symm

theorem flags_mergeAll :
    (item.mergeAll policy declared).flags =
      item.flags.union
        { isAbstract := declared.any (·.flags.isAbstract)
          autocreate := declared.any (·.flags.autocreate)
          generate := declared.any (·.flags.generate)
          singleton := declared.any (·.flags.singleton)
          jaloOnly := declared.any (·.flags.jaloOnly) } := by
  induction declared generalizing item with
  | nil => simp [mergeAll, ItemFlags.union]
  | cons declaration rest ih =>
    have merged : (item.merge policy declaration).1.flags = item.flags.union declaration.flags := rfl
    rw [mergeAll_cons, ih, merged]
    simp [ItemFlags.union, Bool.or_assoc]

theorem declarations_mergeAll :
    (item.mergeAll policy declared).declarations =
      item.declarations ++ declared.filterMap (·.origin) := by
  induction declared generalizing item with
  | nil => simp [mergeAll]
  | cons declaration rest ih =>
    have merged : (item.merge policy declaration).1.declarations =
        item.declarations ++ declaration.origin.toList := rfl
    rw [mergeAll_cons, ih, merged]
    cases located : declaration.origin <;> simp [located]

variable {item}

theorem synthetic_mergeAll (declaredOnly : item.synthetic = false) :
    (item.mergeAll policy declared).synthetic = false := by
  induction declared generalizing item with
  | nil => exact declaredOnly
  | cons declaration rest ih => exact ih rfl

theorem isMergeOf_mergeAll (name : String) :
    (mergeAll policy { name } declared).IsMergeOf policy declared where
  parent := parent_mergeAll policy { name } declared
  attributes := by
    rw [attributes_mergeAll, name_mergeAll, attributeEntries, List.map_filterMap]
    refine Table.collects_insertAll ?_ ?_ _
    · intro written
      simp [Attribute.ofDeclaration?, Function.comp_def]
    · intro own last entry isLast given
      obtain ⟨built, made, rfl⟩ := Option.map_eq_some_iff.mp given
      exact ⟨last, isLast, Attribute.isBuiltFrom_of_eq_some made⟩
  customProperties := by
    rw [customProperties_mergeAll]
    exact holdsProperties_insertAll _
  flags := by
    rw [flags_mergeAll]
    simp [ItemFlags.union]
  declarations := declarations_mergeAll policy { name } declared
  notSynthetic := synthetic_mergeAll policy declared rfl

end Item

/-- Every item of a registry is made of the accepted declarations of its name, each part by its
rule, and the items stand in the order in which they were first declared. -/
theorem Registry.items_ofDeclarations_records (settings : Settings) (declarations : List Declaration) :
    (ofDeclarations settings declarations).items.Records ItemDeclaration.name Item.name
      (Item.IsMergeOf settings.parentPolicy) (acceptedOf Declaration.item? declarations) := by
  obtain ⟨conflicts, filled⟩ := ofDeclarations_eq_revisedBy settings declarations
  rw [filled]
  refine Table.records_foldl_merge (fun name => ({ name } : Item))
    (fun item declared => (item.merge settings.parentPolicy declared).1) (fun name own => ?_) _
  exact ⟨Item.name_mergeAll _ _ own, Item.isMergeOf_mergeAll _ own name⟩

namespace Index

/-- The index that stands of all that are declared under a name: the last one that replaces one before
it, else the first. -/
def standing? : List Index → Option Index
  | [] => none
  | first :: later => some ((later.filter (·.replace)).getLast?.getD first)

theorem mergeInto_eq_revise :
    mergeInto =
      Table.revise Index.name fun known index => if index.replace then index else known.getD index := by
  funext indexes index
  cases replaces : index.replace <;>
    simp [mergeInto, Table.revise, replaces, Table.insertIfNew_eq_insert]

theorem revised_eq_standing? (indexes : List Index) :
    Table.revised (fun known index => if index.replace then index else known.getD index) indexes none =
      standing? indexes := by
  cases indexes with
  | nil => rfl
  | cons first later =>
    -- from the end: whether the last index counts is told by what stands before it
    induction later using List.reverseRecOn with
    | nil => simp [Table.revised, standing?]
    | append_singleton later last ih =>
      simp only [Table.revised, ← List.cons_append, List.foldl_append, List.foldl_cons,
        List.foldl_nil] at ih ⊢
      rw [ih]
      cases replaces : last.replace <;> simp [standing?, replaces]

theorem eq_of_named? {index built : Index} (made : index.named? = some built) :
    built = { index with name := Text.trim index.name } := by
  obtain ⟨name, trimmed, rfl⟩ := Option.map_eq_some_iff.mp made
  rw [((Text.trimmed?_eq_some_iff _ _).mp trimmed).2]

/-- Trimming the names of indexes does not change which of them stands. -/
theorem standing?_filterMap_named? {indexes : List Index}
    (made : ∀ index ∈ indexes, index.named?.isSome) :
    standing? (indexes.filterMap named?) = (standing? indexes).bind named? := by
  cases indexes with
  | nil => rfl
  | cons first later =>
    obtain ⟨built, isBuilt⟩ := Option.isSome_iff_exists.mp (made first List.mem_cons_self)
    have replacing : (later.filterMap named?).filter (·.replace) =
        (later.filter (·.replace)).filterMap named? := by
      rw [List.filter_filterMap, List.filterMap_filter]
      congr 1
      funext index
      cases trimmed : index.named? with
      | none => simp
      | some other => simp [Option.filter, eq_of_named? trimmed]
    have last : ((later.filter (·.replace)).filterMap named?).getLast? =
        (later.filter (·.replace)).getLast?.bind named? := by
      apply getLast?_filterMap_of_isSome
      intro index member
      exact made index (List.mem_cons_of_mem _ (List.mem_of_mem_filter member))
    simp only [List.filterMap_cons, isBuilt, standing?, replacing, last, Option.bind_some]
    cases isLast : (later.filter (·.replace)).getLast? with
    | none => simp [isBuilt]
    | some index =>
      have member := List.mem_of_mem_filter (List.mem_of_getLast? isLast)
      obtain ⟨other, isOther⟩ :=
        Option.isSome_iff_exists.mp (made index (List.mem_cons_of_mem _ member))
      simp [isOther]

end Index

/-- The indexes of an item are those declared for it under trimmed names. Of several under one name
the last one that replaces one before it stands, and else the first. -/
theorem Registry.indexes_ofDeclarations_collects (settings : Settings) (declarations : List Declaration)
    (name : String) (item : Item)
    (found : (ofDeclarations settings declarations).items.find? name = some item) :
    item.indexes.Collects (Text.trimmed? ·.name)
      (fun own record => ∃ standing, Index.standing? own = some standing ∧
        record = { standing with name := Text.trim standing.name })
      ((itemDeclarations declarations name).flatMap (·.indexes)) := by
  rw [find?_items_ofDeclarations] at found
  have merged : item = Item.mergeAll settings.parentPolicy { name } (itemDeclarations declarations name) := by
    split at found
    · cases found
    · exact (Option.some.inj found).symm
  rw [merged, Item.indexes_mergeAll, Index.mergeInto_eq_revise]
  refine Table.collects_foldl_revise ?_ ?_ _
  · intro index
    simp [Index.named?, Function.comp_def]
  · intro own record made settled
    rw [Index.revised_eq_standing?, Index.standing?_filterMap_named? made] at settled
    obtain ⟨standing, stands, built⟩ := Option.bind_eq_some_iff.mp settled
    exact ⟨standing, stands, Index.eq_of_named? built⟩

/-- Four indexes of one name in two declarations. The first one replaces nothing, though it would, and
the last one is passed over with its marks. -/
theorem Registry.indexes_ofDeclarations_collects_replacing :
    let declarations : List Declaration :=
      [.item { name := "Order", indexes :=
          [{ name := " code", keys := ["first"], replace := true }, { name := "code", keys := ["second"] }] },
        .item { name := "Order", indexes :=
          [{ name := "code ", keys := ["third"], replace := true },
            { name := "code", unique := true, remove := true }] }]
    let item : Item :=
      { name := "Order", indexes := ⟨[("code", { name := "code", keys := ["third"], replace := true })]⟩ }
    (ofDeclarations {} declarations).items.find? "Order" = some item ∧
      item.indexes.Collects (Text.trimmed? ·.name)
        (fun own record => ∃ standing, Index.standing? own = some standing ∧
          record = { standing with name := Text.trim standing.name })
        ((itemDeclarations declarations "Order").flatMap (·.indexes)) := by
  intro declarations item
  have found : (ofDeclarations {} declarations).items.find? "Order" = some item := by decide
  exact ⟨found, indexes_ofDeclarations_collects {} declarations "Order" item found⟩

end ItemSchema
