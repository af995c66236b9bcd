import ItemSchema.Proofs.Registry.MergedItem
import ItemSchema.Proofs.Registry.MergedTypes
import Mathlib.Data.List.Pairwise

/-! The conflicts of a registry, read off the declarations it was made from.

A declaration brings up a conflict exactly when it disagrees with what the accepted
declarations of its kind and name before it have settled, and it never brings up
two. The policy tells which of two parents is ignored, but not whether an item has
a conflict at all. The origin of a conflict is that of the declaration that brings
it up, whichever of the two parents the policy keeps.
-/

set_option autoImplicit false

namespace ItemSchema

/-- The parents that the accepted declarations of an item name, in order. -/
def parentsNamed (declarations : List Declaration) (name : String) : List String :=
  (itemDeclarations declarations name).filterMap (·.parent?)

theorem parentsNamed_append (first second : List Declaration) (name : String) :
    parentsNamed (first ++ second) name = parentsNamed first name ++ parentsNamed second name := by
  simp [parentsNamed, itemDeclarations]

theorem mem_parentsNamed (declarations : List Declaration) (name parent : String) :
    parent ∈ parentsNamed declarations name ↔
      ∃ declared, Declaration.item declared ∈ declarations ∧ (Declaration.item declared).isAccepted ∧
        declared.name = name ∧ declared.parent? = some parent := by
  simp only [parentsNamed, List.mem_filterMap, mem_itemDeclarations, and_assoc]

theorem pairwise_parentsNamed_singleton (declaration : Declaration) (name : String) :
    (parentsNamed [declaration] name).Pairwise (· = ·) := by
  apply List.pairwise_of_forall_mem_list
  intro first isFirst second isSecond
  obtain ⟨declared, only, -, -, names⟩ := (mem_parentsNamed _ _ _).mp isFirst
  obtain ⟨other, onlyOther, -, -, namesOther⟩ := (mem_parentsNamed _ _ _).mp isSecond
  cases List.mem_singleton.mp only
  cases List.mem_singleton.mp onlyOther
  exact Option.some.inj (names.symm.trans namesOther)

/-- What a declaration disagrees on with the accepted ones before it. Enumerations and collections
never disagree on anything. -/
inductive DisagreesWith (earlier : List Declaration) :
    ParentPolicy → Declaration → Disagreement → Prop where
  | firstParentKept {declared : ItemDeclaration} {first named : String}
      (standing : (parentsNamed earlier declared.name).head? = some first)
      (names : declared.parent? = some named) (differ : first ≠ named) :
      DisagreesWith earlier .firstWins (.item declared) (.parent { kept := first, ignored := named })
  | lastParentReplaced {declared : ItemDeclaration} {last named : String}
      (standing : (parentsNamed earlier declared.name).getLast? = some last)
      (names : declared.parent? = some named) (differ : last ≠ named) :
      DisagreesWith earlier .lastWins (.item declared) (.parent { kept := named, ignored := last })
  | relation {policy : ParentPolicy} {declared known : RelationDeclaration}
      (accepted : known ∈ acceptedOf Declaration.relation? earlier) (same : known.name = declared.name) :
      DisagreesWith earlier policy (.relation declared) .relation
  | atomic {policy : ParentPolicy} {declared first : AtomicType}
      (standing : ((acceptedOf Declaration.atomic? earlier).filter
        (·.className = declared.className)).head? = some first)
      (differ : first.parent ≠ declared.parent) :
      DisagreesWith earlier policy (.atomic declared) .atomic
  | argumentType {policy : ParentPolicy} {declared : MapType} {first given : String}
      (standing : ((acceptedOf Declaration.map? earlier).filter (·.name = declared.name)).findSome?
        (·.argumentType) = some first)
      (gives : declared.argumentType = some given) (differ : first ≠ given) :
      DisagreesWith earlier policy (.map declared) .map
  | returnType {policy : ParentPolicy} {declared : MapType} {first given : String}
      (standing : ((acceptedOf Declaration.map? earlier).filter (·.name = declared.name)).findSome?
        (·.returnType) = some first)
      (gives : declared.returnType = some given) (differ : first ≠ given) :
      DisagreesWith earlier policy (.map declared) .map

section Inversion

variable {earlier : List Declaration} {policy : ParentPolicy} {disagreement : Disagreement}

theorem disagreesWith_item_iff {declared : ItemDeclaration} :
    DisagreesWith earlier policy (.item declared) disagreement ↔
      ∃ standing named, policy.prevailing? (parentsNamed earlier declared.name) = some standing ∧
        declared.parent? = some named ∧ standing ≠ named ∧
        .parent (policy.choose standing named) = disagreement := by
  constructor
  · intro disagrees
    cases disagrees with
    | firstParentKept standing names differ | lastParentReplaced standing names differ =>
      exact ⟨_, _, standing, names, differ, rfl⟩
  · rintro ⟨standing, named, prevails, names, differ, rfl⟩
    cases policy with
    | firstWins => exact .firstParentKept prevails names differ
    | lastWins => exact .lastParentReplaced prevails names differ

theorem disagreesWith_relation_iff {declared : RelationDeclaration} :
    DisagreesWith earlier policy (.relation declared) disagreement ↔
      (acceptedOf Declaration.relation? earlier).filter (·.name = declared.name) ≠ [] ∧
        .relation = disagreement := by
  constructor
  · intro disagrees
    cases disagrees with
    | relation accepted same =>
      exact ⟨List.ne_nil_of_mem (List.mem_filter.mpr ⟨accepted, by simpa using same⟩), rfl⟩
  · rintro ⟨known, rfl⟩
    obtain ⟨first, member⟩ := List.exists_mem_of_ne_nil _ known
    obtain ⟨accepted, same⟩ := List.mem_filter.mp member
    exact .relation accepted (by simpa using same)

theorem disagreesWith_atomic_iff {declared : AtomicType} :
    DisagreesWith earlier policy (.atomic declared) disagreement ↔
      (∃ first, ((acceptedOf Declaration.atomic? earlier).filter
          (·.className = declared.className)).head? = some first ∧ first.parent ≠ declared.parent) ∧
        .atomic = disagreement := by
  constructor
  · intro disagrees
    cases disagrees with
    | atomic standing differ => exact ⟨⟨_, standing, differ⟩, rfl⟩
  · rintro ⟨⟨first, standing, differ⟩, rfl⟩
    exact .atomic standing differ

theorem disagree_iff (known incoming : Option String) :
    disagree known incoming ↔
      ∃ first given, known = some first ∧ incoming = some given ∧ first ≠ given := by
  cases known <;> cases incoming <;> simp [disagree]

theorem disagreesWith_map_iff {declared : MapType} :
    let known := (acceptedOf Declaration.map? earlier).filter (·.name = declared.name)
    DisagreesWith earlier policy (.map declared) disagreement ↔
      (disagree (known.findSome? (·.argumentType)) declared.argumentType ∨
        disagree (known.findSome? (·.returnType)) declared.returnType) ∧ .map = disagreement := by
  simp only [disagree_iff]
  constructor
  · intro disagrees
    cases disagrees with
    | argumentType standing gives differ => exact ⟨.inl ⟨_, _, standing, gives, differ⟩, rfl⟩
    | returnType standing gives differ => exact ⟨.inr ⟨_, _, standing, gives, differ⟩, rfl⟩
  · rintro ⟨⟨first, given, standing, gives, differ⟩ | ⟨first, given, standing, gives, differ⟩, rfl⟩
    · exact .argumentType standing gives differ
    · exact .returnType standing gives differ

/-- Only items disagree on a parent. -/
theorem DisagreesWith.exists_item {declaration : Declaration} {clash : ParentClash}
    (disagrees : DisagreesWith earlier policy declaration (.parent clash)) :
    ∃ declared, declaration = .item declared := by
  cases disagrees <;> exact ⟨_, rfl⟩

theorem DisagreesWith.kind_ne {declaration : Declaration}
    (disagrees : DisagreesWith earlier policy declaration disagreement) :
    declaration.kind ≠ .enumeration ∧ declaration.kind ≠ .collection := by
  cases disagrees <;> simp [Declaration.kind]

end Inversion

/-- The conflict that a declaration brings up by disagreeing. -/
def Declaration.conflict (declaration : Declaration) (disagreement : Disagreement) : Conflict where
  kind := declaration.kind
  name := declaration.name
  disagreement := disagreement
  origin := declaration.origin

namespace ParentPolicy

theorem snd_merge_eq_some_iff (policy : ParentPolicy) (current incoming : Option String)
    (clash : ParentClash) :
    (policy.merge current incoming).2 = some clash ↔
      ∃ standing named, current = some standing ∧ incoming = some named ∧ standing ≠ named ∧
        policy.choose standing named = clash := by
  cases current with
  | none => cases incoming <;> simp [merge]
  | some standing =>
    cases incoming with
    | none => simp [merge]
    | some named => by_cases same : standing = named <;> simp [merge, same]

theorem mem_of_prevailing? {policy : ParentPolicy} {parents : List String} {parent : String}
    (prevails : policy.prevailing? parents = some parent) : parent ∈ parents := by
  cases policy with
  | firstWins => exact List.mem_of_head? prevails
  | lastWins => exact List.mem_of_getLast? prevails

theorem exists_prevailing? (policy : ParentPolicy) {parents : List String} (named : parents ≠ []) :
    ∃ parent, policy.prevailing? parents = some parent := by
  cases policy with
  | firstWins => exact ⟨_, List.head?_eq_some_head named⟩
  | lastWins => exact ⟨_, List.getLast?_eq_some_getLast named⟩

end ParentPolicy

namespace Registry

/-- What a declaration disagrees on with the records of a registry. -/
def disagreement? (registry : Registry) : Declaration → Option Disagreement
  | .item declared =>
      (registry.parentPolicy.merge ((registry.items.find? declared.name).bind (·.parent))
        declared.parent?).2.map .parent
  | .relation declared =>
      if registry.relations.contains declared.name then some .relation else none
  | .atomic declared =>
      if (registry.atomics.find? declared.className).any (fun known : AtomicType =>
        known.parent ≠ declared.parent) then some .atomic else none
  | .map declared =>
      if ((registry.maps.find? declared.name).getD { name := declared.name }).clashes declared then
        some .map
      else none
  | .enumeration _ | .collection _ => none

theorem conflicts_merge (registry : Registry) (declaration : Declaration) :
    (registry.merge declaration).conflicts =
      registry.conflicts ++ (registry.disagreement? declaration).toList.map declaration.conflict := by
  cases declaration with
  | item declared =>
    have parent : ((registry.items.find? declared.name).getD { name := declared.name }).parent =
        (registry.items.find? declared.name).bind (·.parent) := by
      cases registry.items.find? declared.name <;> rfl
    simp only [disagreement?, ← parent]
    rfl
  | enumeration | collection => simp [merge, mergeEnumeration, mergeCollection, disagreement?]
  | relation declared => rw [merge, mergeRelation_eq]; rfl
  | atomic declared => rw [merge, mergeAtomic_eq]; rfl
  | map declared => rfl

section Standing

variable (settings : Settings) (earlier : List Declaration)

theorem parent_find?_items (name : String) :
    ((ofDeclarations settings earlier).items.find? name).bind (·.parent) =
      settings.parentPolicy.prevailing? (parentsNamed earlier name) := by
  rw [find?_items_ofDeclarations, parentsNamed]
  cases itemDeclarations earlier name with
  | nil => cases settings.parentPolicy <;> rfl
  | cons first rest => exact Item.parent_mergeAll _ _ _

theorem find?_atomics (name : String) :
    (ofDeclarations settings earlier).atomics.find? name =
      ((acceptedOf Declaration.atomic? earlier).filter (·.className = name)).head? := by
  have records := records_atomics settings earlier
  cases found : (ofDeclarations settings earlier).atomics.find? name with
  | some atomic => exact (records.holds name atomic found).symm
  | none =>
    rw [records.filter_eq_nil found]
    rfl

theorem isMergeOf_find?_maps (name : String) :
    (((ofDeclarations settings earlier).maps.find? name).getD { name }).IsMergeOf
      ((acceptedOf Declaration.map? earlier).filter (·.name = name)) := by
  have records := records_maps settings earlier
  cases found : (ofDeclarations settings earlier).maps.find? name with
  | some map => exact records.holds name map found
  | none =>
    rw [records.filter_eq_nil found]
    exact ⟨rfl, rfl, rfl⟩

/-- The records of a registry tell all that matters about the declarations it was made from. -/
theorem disagreement?_eq_some_iff (declaration : Declaration) (disagreement : Disagreement) :
    (ofDeclarations settings earlier).disagreement? declaration = some disagreement ↔
      DisagreesWith earlier settings.parentPolicy declaration disagreement := by
  have policy : (ofDeclarations settings earlier).parentPolicy = settings.parentPolicy := by
    obtain ⟨conflicts, filled⟩ := ofDeclarations_eq_revisedBy settings earlier
    rw [filled]
    rfl
  cases declaration with
  | item declared =>
    simp only [disagreement?, policy, parent_find?_items, Option.map_eq_some_iff,
      ParentPolicy.snd_merge_eq_some_iff, disagreesWith_item_iff]
    constructor
    · rintro ⟨clash, ⟨standing, named, prevails, names, differ, rfl⟩, rfl⟩
      exact ⟨standing, named, prevails, names, differ, rfl⟩
    · rintro ⟨standing, named, prevails, names, differ, rfl⟩
      exact ⟨_, ⟨standing, named, prevails, names, differ, rfl⟩, rfl⟩
  | enumeration | collection =>
    constructor
    · intro found
      cases found
    · intro disagrees
      simpa [Declaration.kind] using disagrees.kind_ne
  | relation declared =>
    have known := (records_relations settings earlier).contains_iff declared.name
    simp only [disagreement?, Option.ite_none_right_eq_some, known, Option.some.injEq,
      disagreesWith_relation_iff]
  | atomic declared =>
    simp only [disagreement?, Option.ite_none_right_eq_some, find?_atomics, Option.any_eq_true,
      decide_eq_true_eq, Option.some.injEq, disagreesWith_atomic_iff]
  | map declared =>
    have merged := isMergeOf_find?_maps settings earlier declared.name
    simp only [disagreement?, Option.ite_none_right_eq_some, MapType.clashes, Bool.or_eq_true,
      merged.argumentType, merged.returnType, Option.some.injEq, disagreesWith_map_iff]

/-- Registering one more declaration adds the conflict it brings up, if any. A rejected one has no
effect. -/
theorem conflicts_ofDeclarations_concat (declaration : Declaration) :
    (ofDeclarations settings (earlier ++ [declaration])).conflicts =
      (ofDeclarations settings earlier).conflicts ++
        (if declaration.isAccepted then (ofDeclarations settings earlier).disagreement? declaration
        else none).toList.map declaration.conflict := by
  cases accepted : declaration.isAccepted with
  | true => simp [ofDeclarations_eq_foldl, accepted, conflicts_merge]
  | false => simp [ofDeclarations_eq_foldl, accepted]

end Standing

section Run

variable (settings : Settings) (declarations : List Declaration)

/-- Every conflict was brought up by an accepted declaration that disagrees with those before it, and
every such declaration has brought one up. -/
theorem mem_conflicts_iff (conflict : Conflict) :
    conflict ∈ (ofDeclarations settings declarations).conflicts ↔
      ∃ earlier declaration later disagreement, declarations = earlier ++ declaration :: later ∧
        declaration.isAccepted ∧
        DisagreesWith earlier settings.parentPolicy declaration disagreement ∧
        declaration.conflict disagreement = conflict := by
  induction declarations using List.reverseRecOn with
  | nil => simp [ofDeclarations, registerAll, ofSettings]
  | append_singleton declarations last ih =>
    simp only [conflicts_ofDeclarations_concat, List.mem_append, ih, List.mem_map, Option.mem_toList,
      Option.ite_none_right_eq_some, disagreement?_eq_some_iff]
    constructor
    · rintro (⟨earlier, declaration, later, disagreement, rfl, rest⟩ |
        ⟨disagreement, ⟨accepted, disagrees⟩, rfl⟩)
      · exact ⟨earlier, declaration, later ++ [last], disagreement, by simp, rest⟩
      · exact ⟨declarations, last, [], disagreement, rfl, accepted, disagrees, rfl⟩
    · rintro ⟨earlier, declaration, later, disagreement, split, accepted, disagrees, rfl⟩
      cases later using List.reverseRecOn with
      | nil =>
        obtain ⟨rfl, rfl⟩ := List.append_singleton_inj.mp split
        exact .inr ⟨disagreement, ⟨accepted, disagrees⟩, rfl⟩
      | append_singleton later _ =>
        rw [← List.cons_append, ← List.append_assoc] at split
        obtain ⟨rfl, rfl⟩ := List.append_singleton_inj.mp split
        exact .inl ⟨earlier, declaration, later, disagreement, rfl, accepted, disagrees, rfl⟩

/-- Whether an item has got a conflict about its parent. -/
def HasParentConflict (registry : Registry) (name : String) : Prop :=
  ∃ conflict ∈ registry.conflicts, conflict.name = name ∧ ∃ clash, conflict.disagreement = .parent clash

theorem hasParentConflict_concat_iff (last : Declaration) (name : String) :
    (ofDeclarations settings (declarations ++ [last])).HasParentConflict name ↔
      (ofDeclarations settings declarations).HasParentConflict name ∨
        ∃ standing, settings.parentPolicy.prevailing? (parentsNamed declarations name) = some standing ∧
          ∃ named ∈ parentsNamed [last] name, standing ≠ named := by
  simp only [HasParentConflict, conflicts_ofDeclarations_concat, List.mem_append, or_and_right,
    exists_or, List.mem_map, Option.mem_toList, Option.ite_none_right_eq_some,
    disagreement?_eq_some_iff]
  refine or_congr_right ⟨?_, ?_⟩
  · rintro ⟨_, ⟨disagreement, ⟨accepted, disagrees⟩, rfl⟩, rfl, clash, rfl⟩
    obtain ⟨declared, rfl⟩ := disagrees.exists_item
    obtain ⟨standing, named, prevails, names, differ, -⟩ := disagreesWith_item_iff.mp disagrees
    refine ⟨standing, prevails, named, ?_, differ⟩
    exact (mem_parentsNamed _ _ _).mpr ⟨declared, by simp, accepted, rfl, names⟩
  · rintro ⟨standing, prevails, named, member, differ⟩
    obtain ⟨declared, isLast, accepted, rfl, names⟩ := (mem_parentsNamed _ _ _).mp member
    cases List.mem_singleton.mp isLast
    have disagrees := disagreesWith_item_iff.mpr ⟨standing, named, prevails, names, differ, rfl⟩
    exact ⟨_, ⟨_, ⟨accepted, disagrees⟩, rfl⟩, rfl, _, rfl⟩

/-- Under either policy an item has a conflict about its parent when two of its declarations name
different ones. -/
theorem hasParentConflict_iff (name : String) :
    (ofDeclarations settings declarations).HasParentConflict name ↔
      ¬ (parentsNamed declarations name).Pairwise (· = ·) := by
  induction declarations using List.reverseRecOn with
  | nil =>
    simp [HasParentConflict, ofDeclarations, registerAll, ofSettings, parentsNamed, itemDeclarations]
  | append_singleton declarations last ih =>
    rw [hasParentConflict_concat_iff, ih, parentsNamed_append, List.pairwise_append]
    constructor
    · rintro (differ | ⟨standing, prevails, named, names, differ⟩) ⟨agree, -, across⟩
      · exact differ agree
      · exact differ (across standing (ParentPolicy.mem_of_prevailing? prevails) named names)
    · intro differ
      rw [or_iff_not_imp_left, not_not]
      intro agree
      by_contra settled
      refine differ ⟨agree, pairwise_parentsNamed_singleton last name, fun first member named names => ?_⟩
      -- the parents before agree, so the one that prevails speaks for all of them
      obtain ⟨standing, prevails⟩ :=
        settings.parentPolicy.exists_prevailing? (List.ne_nil_of_mem member)
      have same : first = standing :=
        agree.forall_of_forall (fun _ _ => rfl) member
          (ParentPolicy.mem_of_prevailing? prevails)
      by_contra apart
      exact settled ⟨standing, prevails, named, names, same ▸ apart⟩

end Run

/-- A declaration adds one conflict if it is accepted and disagrees with those before it, and else
none. No conflict is about an enumeration or a collection, and the items with a conflict about their
parent are the same under both policies. -/
theorem conflicts_ofDeclarations_exact (settings : Settings) :
    (ofDeclarations settings []).conflicts = [] ∧
    (∀ earlier declaration, ∃ found : Option Disagreement,
      (ofDeclarations settings (earlier ++ [declaration])).conflicts =
        (ofDeclarations settings earlier).conflicts ++ found.toList.map declaration.conflict ∧
      ∀ disagreement, found = some disagreement ↔ declaration.isAccepted ∧
        DisagreesWith earlier settings.parentPolicy declaration disagreement) ∧
    (∀ declarations, ∀ conflict ∈ (ofDeclarations settings declarations).conflicts,
      conflict.kind ≠ .enumeration ∧ conflict.kind ≠ .collection) ∧
    ∀ declarations name,
      (ofDeclarations { settings with parentPolicy := .firstWins } declarations).HasParentConflict name ↔
        (ofDeclarations { settings with parentPolicy := .lastWins } declarations).HasParentConflict
          name := by
  refine ⟨rfl, ?_, ?_, ?_⟩
  · intro earlier declaration
    refine ⟨_, conflicts_ofDeclarations_concat settings earlier declaration, fun disagreement => ?_⟩
    rw [Option.ite_none_right_eq_some, disagreement?_eq_some_iff]
  · intro declarations conflict noted
    obtain ⟨earlier, declaration, later, disagreement, -, -, disagrees, rfl⟩ :=
      (mem_conflicts_iff settings declarations conflict).mp noted
    exact disagrees.kind_ne
  · intro declarations name
    rw [hasParentConflict_iff, hasParentConflict_iff]

-- A parent that is named again after another one adds a conflict only where the last one is kept.
example :
    let declarations : List Declaration :=
      ["Base", " ", "Part", "Base"].map fun parent => .item { name := "Order", parent := some parent }
    let clashes (policy : ParentPolicy) : List Disagreement :=
      (ofDeclarations { parentPolicy := policy } declarations).conflicts.map (·.disagreement)
    clashes .firstWins = [.parent ⟨"Base", "Part"⟩] ∧
      clashes .lastWins = [.parent ⟨"Part", "Base"⟩, .parent ⟨"Base", "Part"⟩] := by
  decide

/-- The origin of a conflict about a parent is that of the later one of two declarations. Where the
first parent is kept this is the declaration whose parent is ignored, and where the last one is kept
it is the other. -/
theorem parent_conflict_origin_is_later (settings : Settings) (declarations : List Declaration)
    (conflict : Conflict) (clash : ParentClash)
    (noted : conflict ∈ (ofDeclarations settings declarations).conflicts)
    (about : conflict.disagreement = .parent clash) :
    ∃ earlier declared later, declarations = earlier ++ .item declared :: later ∧
      (Declaration.item declared).isAccepted ∧ declared.name = conflict.name ∧
      declared.origin = conflict.origin ∧
      match settings.parentPolicy with
      | .firstWins =>
          declared.parent? = some clash.ignored ∧ clash.kept ∈ parentsNamed earlier conflict.name
      | .lastWins =>
          declared.parent? = some clash.kept ∧ clash.ignored ∈ parentsNamed earlier conflict.name := by
  obtain ⟨earlier, declaration, later, disagreement, split, accepted, disagrees, rfl⟩ :=
    (mem_conflicts_iff settings declarations conflict).mp noted
  cases about
  obtain ⟨declared, rfl⟩ := disagrees.exists_item
  obtain ⟨standing, named, prevails, names, -, chosen⟩ := disagreesWith_item_iff.mp disagrees
  have before := ParentPolicy.mem_of_prevailing? prevails
  refine ⟨earlier, declared, later, split, accepted, rfl, rfl, ?_⟩
  cases policy : settings.parentPolicy with
  | firstWins | lastWins =>
    rw [policy] at chosen
    cases chosen
    exact ⟨names, before⟩

/-- Under the policy that keeps the last parent, two declarations of an item and one without a name
between them. -/
theorem parent_conflict_origin_is_later_kept :
    let first : Origin := ⟨⟨1⟩, ⟨0, 5, by decide⟩⟩
    let second : Origin := ⟨⟨2⟩, ⟨0, 10, by decide⟩⟩
    let settings : Settings := { parentPolicy := .lastWins }
    let declarations : List Declaration :=
      [.item { name := "Foo", parent := some "Bar", origin := some first },
        .item { name := " ", parent := some "Bar" },
        .item { name := "Foo", parent := some "Baz", origin := some second }]
    let conflict : Conflict :=
      { kind := .item, name := "Foo", disagreement := .parent { kept := "Baz", ignored := "Bar" },
        origin := some second }
    conflict ∈ (ofDeclarations settings declarations).conflicts ∧
      ∃ earlier declared later, declarations = earlier ++ .item declared :: later ∧
        (Declaration.item declared).isAccepted ∧ declared.name = "Foo" ∧
        declared.origin = some second ∧ declared.parent? = some "Baz" ∧
        "Bar" ∈ parentsNamed earlier "Foo" := by
  intro first second settings declarations conflict
  have noted : conflict ∈ (ofDeclarations settings declarations).conflicts := by decide
  exact ⟨noted, parent_conflict_origin_is_later settings declarations conflict _ noted rfl⟩

/-- Where the last parent is kept, the conflict points at the declaration that won: the declaration
of the ignored parent stands elsewhere. -/
theorem parent_conflict_points_at_winner :
    let lost : Origin := ⟨⟨1⟩, ⟨0, 5, by decide⟩⟩
    let won : Origin := ⟨⟨2⟩, ⟨0, 10, by decide⟩⟩
    let declarations : List Declaration :=
      [.item { name := "Foo", parent := some "Bar", origin := some lost },
        .item { name := "Foo", parent := some "Baz", origin := some won }]
    let conflict : Conflict :=
      { kind := .item, name := "Foo", disagreement := .parent { kept := "Baz", ignored := "Bar" },
        origin := some won }
    conflict ∈ (ofDeclarations { parentPolicy := .lastWins } declarations).conflicts ∧
      ¬ ∃ declared ∈ itemDeclarations declarations conflict.name,
        declared.parent? = some "Bar" ∧ declared.origin = conflict.origin := by
  decide

end Registry

end ItemSchema
