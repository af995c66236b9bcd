import ItemSchema.Proofs.Registry.Tables

/-! Enumerations, relations, collections, atomic types and maps as their declarations
make them.

The values of an enumeration add up. Of a relation and of an atomic type the first
declaration stands, of a collection the last one, in the place of the first. A map
takes each of its parts from the first declaration that gives it.
-/

set_option autoImplicit false

namespace ItemSchema

/-- An enumeration as its declarations make it. A value declared again keeps its place and the origin
of its first declaration. -/
structure Enumeration.IsMergeOf (declared : List EnumerationDeclaration) (enumeration : Enumeration) :
    Prop where
  values : enumeration.values.Collects (Text.nonBlank? ·.code)
    (fun own origin => own.head?.map (·.origin) = some origin) (declared.flatMap (·.values))
  dynamic : enumeration.dynamic = declared.any (·.dynamic)
  declarations : enumeration.declarations = declared.filterMap (·.origin)

namespace Enumeration

variable (enumeration : Enumeration) (declared : List EnumerationDeclaration)

theorem name_foldl_merge : (declared.foldl merge enumeration).name = enumeration.name := by
  induction declared generalizing enumeration with
  | nil => rfl
  | cons declaration rest ih => exact ih _

theorem values_foldl_merge :
    (declared.foldl merge enumeration).values =
      enumeration.values.insertAllIfNew
        ((declared.flatMap (·.values)).filterMap ValueDeclaration.entry?) := by
  rw [Table.insertAllIfNew, List.filterMap_flatMap, List.foldl_flatMap]
  exact (List.foldl_hom Enumeration.values fun enumeration declaration => rfl).symm

theorem dynamic_foldl_merge :
    (declared.foldl merge enumeration).dynamic = (enumeration.dynamic || declared.any (·.dynamic)) := by
  induction declared generalizing enumeration with
  | nil => simp
  | cons declaration rest ih =>
    have merged : (enumeration.merge declaration).dynamic =
        (enumeration.dynamic || declaration.dynamic) := rfl
    rw [List.foldl_cons, ih, merged, List.any_cons, Bool.or_assoc]

theorem declarations_foldl_merge :
    (declared.foldl merge enumeration).declarations =
      enumeration.declarations ++ declared.filterMap (·.origin) := by
  induction declared generalizing enumeration with
  | nil => simp
  | cons declaration rest ih =>
    have merged : (enumeration.merge declaration).declarations =
        enumeration.declarations ++ declaration.origin.toList := rfl
    rw [List.foldl_cons, ih, merged]
    cases located : declaration.origin <;> simp [located]

theorem isMergeOf_foldl_merge (name : String) :
    (declared.foldl merge { name }).IsMergeOf declared where
  values := by
    rw [values_foldl_merge]
    refine Table.collects_insertAllIfNew ?_ ?_ _
    · intro value
      simp [ValueDeclaration.entry?, Function.comp_def]
    · intro own first entry isFirst given
      obtain ⟨code, -, rfl⟩ := Option.map_eq_some_iff.mp given
      simp [isFirst]
  dynamic := by
    rw [dynamic_foldl_merge, Bool.false_or]
  declarations := declarations_foldl_merge { name } declared

end Enumeration

/-- A relation as one declaration makes it, without roles and types that are blank. -/
structure Relation.IsBuiltFrom (declaration : RelationDeclaration) (relation : Relation) : Prop where
  eq_ofDeclaration : relation = .ofDeclaration declaration
  sourceQualifier : relation.source.qualifier = declaration.source.qualifier.filter (!Text.isBlank ·)
  sourceType : relation.source.typeName = declaration.source.typeName.filter (!Text.isBlank ·)
  targetQualifier : relation.target.qualifier = declaration.target.qualifier.filter (!Text.isBlank ·)
  targetType : relation.target.typeName = declaration.target.typeName.filter (!Text.isBlank ·)

theorem Relation.isBuiltFrom_ofDeclaration (declaration : RelationDeclaration) :
    (ofDeclaration declaration).IsBuiltFrom declaration :=
  ⟨rfl, Text.bind_nonBlank? _, Text.bind_nonBlank? _, Text.bind_nonBlank? _, Text.bind_nonBlank? _⟩

/-- A map as its declarations make it: each part is the first one given, whatever the others are. -/
structure MapType.IsMergeOf (declared : List MapType) (map : MapType) : Prop where
  argumentType : map.argumentType = declared.findSome? (·.argumentType)
  returnType : map.returnType = declared.findSome? (·.returnType)
  origin : map.origin = declared.findSome? (·.origin)

namespace MapType

theorem name_foldl_fill (map : MapType) (declared : List MapType) :
    (declared.foldl fill map).name = map.name := by
  induction declared generalizing map with
  | nil => rfl
  | cons declaration rest ih => exact ih _

/-- A part that is filled in when it is missing ends up as the first one given. -/
theorem foldl_fill {α : Type} {part : MapType → Option α}
    (fills : ∀ map declaration, part (map.fill declaration) = (part map).or (part declaration))
    (map : MapType) (declared : List MapType) :
    part (declared.foldl fill map) = (part map).or (declared.findSome? part) := by
  induction declared generalizing map with
  | nil => simp
  | cons declaration rest ih =>
    rw [List.foldl_cons, ih, fills, Option.or_assoc, List.findSome?_cons]
    cases part declaration <;> rfl

theorem isMergeOf_foldl_fill (name : String) (declared : List MapType) :
    (declared.foldl fill { name }).IsMergeOf declared where
  argumentType := foldl_fill (fun map declaration => by simp [fill]) { name } declared
  returnType := foldl_fill (fun map declaration => by simp [fill]) { name } declared
  origin := foldl_fill (fun map declaration => by simp [fill]) { name } declared

end MapType

namespace Registry

variable (settings : Settings) (declarations : List Declaration)

theorem records_enumerations :
    (ofDeclarations settings declarations).enumerations.Records EnumerationDeclaration.name
      Enumeration.name Enumeration.IsMergeOf (acceptedOf Declaration.enumeration? declarations) := by
  obtain ⟨conflicts, filled⟩ := ofDeclarations_eq_revisedBy settings declarations
  rw [filled]
  refine Table.records_foldl_merge (fun name => { name }) Enumeration.merge (fun name own => ?_) _
  exact ⟨Enumeration.name_foldl_merge _ own, Enumeration.isMergeOf_foldl_merge own name⟩

theorem records_relations :
    (ofDeclarations settings declarations).relations.Records RelationDeclaration.name Relation.name
      (fun declared relation => ∃ first, declared.head? = some first ∧ relation.IsBuiltFrom first)
      (acceptedOf Declaration.relation? declarations) := by
  obtain ⟨conflicts, filled⟩ := ofDeclarations_eq_revisedBy settings declarations
  rw [filled]
  refine Table.records_foldl_keep Relation.ofDeclaration ?_ ?_ _
  · exact fun declaration => rfl
  · exact fun own first isFirst => ⟨first, isFirst, Relation.isBuiltFrom_ofDeclaration first⟩

theorem records_collections :
    (ofDeclarations settings declarations).collections.Records CollectionType.name CollectionType.name
      (fun declared collection => declared.getLast? = some collection)
      (acceptedOf Declaration.collection? declarations) := by
  obtain ⟨conflicts, filled⟩ := ofDeclarations_eq_revisedBy settings declarations
  rw [filled]
  refine Table.records_foldl_revise (fun name own collection named settled => ?_) _
  rw [Table.revised_overwrite fun declared => declared, Option.map_id'] at settled
  exact ⟨named collection (List.mem_of_getLast? settled), settled⟩

theorem records_atomics :
    (ofDeclarations settings declarations).atomics.Records AtomicType.className AtomicType.className
      (fun declared atomic => declared.head? = some atomic)
      (acceptedOf Declaration.atomic? declarations) := by
  obtain ⟨conflicts, filled⟩ := ofDeclarations_eq_revisedBy settings declarations
  rw [filled]
  refine Table.records_foldl_keep (fun declared : AtomicType => declared) ?_ ?_ _
  · exact fun declaration => rfl
  · exact fun own first isFirst => isFirst

theorem records_maps :
    (ofDeclarations settings declarations).maps.Records MapType.name MapType.name MapType.IsMergeOf
      (acceptedOf Declaration.map? declarations) := by
  obtain ⟨conflicts, filled⟩ := ofDeclarations_eq_revisedBy settings declarations
  rw [filled]
  refine Table.records_foldl_merge (fun name => { name }) MapType.fill (fun name own => ?_) _
  exact ⟨MapType.name_foldl_fill _ own, MapType.isMergeOf_foldl_fill name own⟩

/-- Every record of a registry that is not an item is made of the accepted declarations of its kind
and name by the rule of its kind, and the records of a kind stand in the order in which they were
first declared. -/
theorem types_ofDeclarations_records :
    let registry := ofDeclarations settings declarations
    registry.enumerations.Records EnumerationDeclaration.name Enumeration.name Enumeration.IsMergeOf
      (acceptedOf Declaration.enumeration? declarations) ∧
    registry.relations.Records RelationDeclaration.name Relation.name
      (fun declared relation => ∃ first, declared.head? = some first ∧ relation.IsBuiltFrom first)
      (acceptedOf Declaration.relation? declarations) ∧
    registry.collections.Records CollectionType.name CollectionType.name
      (fun declared collection => declared.getLast? = some collection)
      (acceptedOf Declaration.collection? declarations) ∧
    registry.atomics.Records AtomicType.className AtomicType.className
      (fun declared atomic => declared.head? = some atomic)
      (acceptedOf Declaration.atomic? declarations) ∧
    registry.maps.Records MapType.name MapType.name MapType.IsMergeOf
      (acceptedOf Declaration.map? declarations) :=
  ⟨records_enumerations settings declarations, records_relations settings declarations,
    records_collections settings declarations, records_atomics settings declarations,
    records_maps settings declarations⟩

-- A collection declared again keeps its place, and a map takes the part it lacks from a declaration
-- that disagrees on the other one.
example :
    let registry := ofDeclarations {}
      [.collection { name := "Codes", elementType := some "String" }, .collection { name := "Sizes" },
        .map { name := "Labels", argumentType := some "String" },
        .collection { name := "Codes", elementType := some "Code" },
        .map { name := "Labels", argumentType := some "Code", returnType := some "Label" }]
    registry.collections.values.map (·.elementType) = [some "Code", none] ∧
      registry.maps.values =
        [{ name := "Labels", argumentType := some "String", returnType := some "Label" }] ∧
      registry.conflicts.map (·.disagreement) = [.map] := by
  decide

end Registry

end ItemSchema
