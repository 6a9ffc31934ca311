/-
# The table of contents: collections and their aliases

`content_manager/toc.rs` keeps the collections of a node by name, and `alias_mapping.rs` a map
from alias names to collection names that every write saves to `data.json` at once.
`resolve_name` reads a name through that map, so two invariants keep names unambiguous:

* **every alias names an existing collection**: `CreateAlias` checks the collection, and
  `delete_collection` drops the collection's aliases;
* **no alias has the name of a collection**: `create_collection` refuses a name an alias has,
  and `CreateAlias` an alias name a collection has.

The first holds after every operation of every run (`aliasesValid_run`).  The second does
not: `RenameAlias` checks neither name, so an alias can be renamed to the name of a
collection, which `resolve_name` then resolves to another collection.  And `update_aliases`,
documented as atomic, saves each action as soon as it applies it: **a failing action leaves
the earlier ones in place** (`updateAliases_error`), in memory and in `data.json`.

Filesystem failures are not modelled: every save succeeds, so `data.json` always holds the
mapping in memory (`saved_run`).  Of `create_collection` the model keeps the name checks and
the checks of the three counts; the configuration diffs, `init_from` and the construction of
the collection are taken to succeed.
-/
import Qdrant.Lib.OrdMap
import Qdrant.Lib.StateExcept

namespace Qdrant

open OrdMap StateExcept

/-- `CollectionId`. -/
abbrev CollectionId := String

/-- `StorageError`, for the variants these operations produce. -/
inductive StorageError where
  | badInput (description : String)
  | notFound (description : String)
  | serviceError (description : String)
  | badRequest (description : String)
deriving DecidableEq, Repr

/-! ## 1. The alias mapping and its file -/

/-- `AliasPersistence`: the mapping in memory, a map by alias, and the mapping `data.json`
holds. -/
structure AliasPersistence where
  aliasMapping : List (String × CollectionId)
  sorted : Sorted aliasMapping
  saved : List (String × CollectionId)

namespace AliasPersistence

variable (p : AliasPersistence)

/-- `AliasMapping::save`: `data.json` takes the mapping. -/
def save : AliasPersistence := { p with saved := p.aliasMapping }

/-- `get`. -/
def get (aliasName : String) : Option CollectionId := get? aliasName p.aliasMapping

/-- `insert`, saved. -/
def insert (aliasName : String) (collectionName : CollectionId) : AliasPersistence :=
  save { p with
    aliasMapping := OrdMap.insert aliasName collectionName p.aliasMapping
    sorted := sorted_insert p.sorted }

/-- `remove`, saved: the collection the alias named. -/
def remove (aliasName : String) : Option CollectionId × AliasPersistence :=
  (p.get aliasName, save { p with
    aliasMapping := erase aliasName p.aliasMapping
    sorted := sorted_erase p.sorted })

/-- `remove_collection`: every alias of the collection removed, saved. -/
def removeCollection (collectionName : CollectionId) : AliasPersistence :=
  save { p with
    aliasMapping := p.aliasMapping.filter fun e => e.2 ≠ collectionName
    sorted := p.sorted.sublist (List.filter_sublist.map Prod.fst) }

/-- `rename_alias`: the old name removed and the new one inserted, saved together. -/
def renameAlias (oldAliasName newAliasName : String) : Except StorageError AliasPersistence :=
  match p.get oldAliasName with
  | none => .error (.notFound ("Alias " ++ oldAliasName ++ " does not exists!"))
  | some collectionName =>
    .ok (save { p with
      aliasMapping := OrdMap.insert newAliasName collectionName (erase oldAliasName p.aliasMapping)
      sorted := sorted_insert (sorted_erase p.sorted) })

/-- `check_alias_exists`. -/
def checkAliasExists (aliasName : String) : Bool := (p.get aliasName).isSome

@[simp] theorem get_insert (aliasName collectionName a : String) :
    (p.insert aliasName collectionName).get a = if a = aliasName then some collectionName else p.get a := by
  simp [insert, save, get, get?_insert]

@[simp] theorem get_remove (aliasName a : String) :
    (p.remove aliasName).2.get a = if a = aliasName then none else p.get a := by
  simp [remove, save, get, get?_erase]

theorem get_removeCollection (collectionName a : String) :
    (p.removeCollection collectionName).get a = (p.get a).filter (· ≠ collectionName) := by
  exact get?_filter_snd (fun c => decide (c ≠ collectionName)) a p.sorted

/-- The renamed alias names what the old one named; every other alias is kept. -/
theorem get_renameAlias {oldAliasName newAliasName : String} {p' : AliasPersistence}
    (h : p.renameAlias oldAliasName newAliasName = .ok p') (a : String) :
    ∃ c, p.get oldAliasName = some c ∧
      p'.get a = if a = newAliasName then some c else if a = oldAliasName then none else p.get a := by
  unfold renameAlias at h
  split at h
  · cases h
  · rename_i c hc
    cases h
    refine ⟨c, hc, ?_⟩
    simp [save, get, get?_insert, get?_erase]

end AliasPersistence

/-! ## 2. The table of contents -/

/-- `TableOfContent`: the names of the collections and the alias mapping. -/
structure TableOfContent where
  collections : List CollectionId
  aliasPersistence : AliasPersistence

/-- `CreateCollection`, for the fields whose checks the model keeps. -/
structure CreateCollection where
  replicationFactor : Option ℕ
  writeConsistencyFactor : Option ℕ

/-- `default_replication_factor`. -/
def defaultReplicationFactor : ℕ := 1

/-- `default_write_consistency_factor`. -/
def defaultWriteConsistencyFactor : ℕ := 1

/-- An alias action of `ChangeAliasesOperation`. -/
inductive AliasOperations where
  | createAlias (collectionName aliasName : String)
  | deleteAlias (aliasName : String)
  | renameAlias (oldAliasName newAliasName : String)

/-- The collection meta operations that touch names; `shardCount` is the count of the
shard distribution the collection is created with. -/
inductive TocOperation where
  | createCollection (collectionName : CollectionId) (operation : CreateCollection) (shardCount : ℕ)
  | deleteCollection (collectionName : CollectionId)
  | changeAliases (actions : List AliasOperations)

/-- `validate_collection_not_exists`. -/
def validateCollectionNotExists (collections : List CollectionId) (collectionName : CollectionId) :
    Except StorageError Unit :=
  if collectionName ∈ collections then
    .error (.badInput ("Collection `" ++ collectionName ++ "` already exists!"))
  else .ok ()

/-- `validate_collection_exists`. -/
def validateCollectionExists (collections : List CollectionId) (collectionName : CollectionId) :
    Except StorageError Unit :=
  if collectionName ∈ collections then .ok ()
  else .error (.notFound ("Collection `" ++ collectionName ++ "` doesn't exist!"))

/-- A computation on the table of contents that keeps the writes made before an error. -/
abbrev TocM := StateExcept TableOfContent StorageError

namespace TableOfContent

/-- `resolve_name`: an alias read through the mapping, then the name checked. -/
def resolveName (toc : TableOfContent) (collectionName : String) :
    Except StorageError CollectionId :=
  let resolvedName := (toc.aliasPersistence.get collectionName).getD collectionName
  (validateCollectionExists toc.collections resolvedName).map fun _ => resolvedName

/-- The checks of `create_collection` before the collection is built: the name free of
collections and aliases, and the three counts positive. -/
def checkCreateCollection (toc : TableOfContent) (collectionName : CollectionId)
    (operation : CreateCollection) (shardCount : ℕ) : Except StorageError Unit :=
  (validateCollectionNotExists toc.collections collectionName).bind fun _ =>
    if toc.aliasPersistence.checkAliasExists collectionName then
      .error (.badInput ("Can't create collection with name " ++ collectionName ++
        ". Alias with the same name already exists"))
    else if shardCount = 0 then .error (.badInput "`shard_number` cannot be 0")
    else if operation.replicationFactor.getD defaultReplicationFactor = 0 then
      .error (.badInput "`replication_factor` cannot be 0")
    else if operation.writeConsistencyFactor.getD defaultWriteConsistencyFactor = 0 then
      .error (.badInput "`write_consistency_factor` cannot be 0")
    else .ok ()

/-- `create_collection`: the checks, then the name checked again under the write lock before
the collection is inserted. -/
def createCollection (collectionName : CollectionId) (operation : CreateCollection)
    (shardCount : ℕ) : TocM Bool := do
  liftExcept (checkCreateCollection (← get) collectionName operation shardCount)
  liftExcept (validateCollectionNotExists (← get).collections collectionName)
  modify fun toc => { toc with collections := toc.collections ++ [collectionName] }
  return true

/-- `delete_collection`: the collection and its aliases removed; `false` for an unknown name. -/
def deleteCollection (collectionName : CollectionId) : TocM Bool := do
  let toc ← get
  if collectionName ∈ toc.collections then
    set { toc with
      collections := toc.collections.filter (· ≠ collectionName)
      aliasPersistence := toc.aliasPersistence.removeCollection collectionName }
    return true
  else return false

/-- One action of `update_aliases`, saved as soon as it is applied. -/
def applyAliasOperation : AliasOperations → TocM Unit
  | .createAlias collectionName aliasName => do
    let toc ← get
    liftExcept (validateCollectionExists toc.collections collectionName)
    liftExcept (validateCollectionNotExists toc.collections aliasName)
    set { toc with aliasPersistence := toc.aliasPersistence.insert aliasName collectionName }
  | .deleteAlias aliasName =>
    modify fun toc => { toc with aliasPersistence := (toc.aliasPersistence.remove aliasName).2 }
  | .renameAlias oldAliasName newAliasName => do
    let toc ← get
    let aliasPersistence ← liftExcept (toc.aliasPersistence.renameAlias oldAliasName newAliasName)
    set { toc with aliasPersistence }

/-- `update_aliases`: the actions applied in order, stopping at the first error. -/
def updateAliases (actions : List AliasOperations) : TocM Bool := do
  actions.forM applyAliasOperation
  return true

/-- `perform_collection_meta_op`, for the operations on names. -/
def performCollectionMetaOp : TocOperation → TocM Bool
  | .createCollection collectionName operation shardCount =>
    createCollection collectionName operation shardCount
  | .deleteCollection collectionName => deleteCollection collectionName
  | .changeAliases actions => updateAliases actions

/-- A run of operations, each applied to the state the previous one left, failed or not. -/
def run (toc : TableOfContent) (operations : List TocOperation) : TableOfContent :=
  operations.foldl (fun toc operation => ((performCollectionMetaOp operation).run toc).2) toc

/-! ## 3. Every alias names a collection -/

/-- Every alias names an existing collection. -/
def AliasesValid (toc : TableOfContent) : Prop :=
  ∀ a c, toc.aliasPersistence.get a = some c → c ∈ toc.collections

/-- No alias has the name of a collection. -/
def NoShadow (toc : TableOfContent) : Prop :=
  ∀ a c, toc.aliasPersistence.get a = some c → a ∉ toc.collections

/-- `data.json` holds the mapping in memory. -/
def Saved (toc : TableOfContent) : Prop := toc.aliasPersistence.saved = toc.aliasPersistence.aliasMapping

/-- More collections keep every alias valid. -/
theorem AliasesValid.mono {toc : TableOfContent} (h : AliasesValid toc) {collections : List CollectionId}
    (hsub : toc.collections ⊆ collections) :
    AliasesValid { toc with collections } := fun a c ha => hsub (h a c ha)

theorem aliasesValid_createCollection (collectionName : CollectionId) (operation : CreateCollection)
    (shardCount : ℕ) : Preserves AliasesValid (createCollection collectionName operation shardCount) := by
  -- the checks read the state; only the insertion writes it, and adds a collection
  refine Preserves.bind Preserves.get fun toc => ?_
  refine Preserves.bind (Preserves.lift _) fun _ => ?_
  refine Preserves.bind Preserves.get fun toc' => ?_
  refine Preserves.bind (Preserves.lift _) fun _ => ?_
  refine Preserves.bind (Preserves.modify fun s hs => hs.mono ?_) fun _ => Preserves.pure _
  exact List.subset_append_left _ _

theorem aliasesValid_deleteCollection (collectionName : CollectionId) :
    Preserves AliasesValid (deleteCollection collectionName) := by
  intro toc h
  simp only [deleteCollection, run_get_bind]
  split
  · simp only [run_bind, run_set, run_pure]
    intro a c ha
    simp only [AliasPersistence.get_removeCollection, Option.filter_eq_some_iff] at ha
    -- the alias survived, so it names another collection, which stays
    obtain ⟨ha, hne⟩ := ha
    exact List.mem_filter.mpr ⟨h a c ha, by simpa using hne⟩
  · exact h

theorem aliasesValid_applyAliasOperation (action : AliasOperations) :
    Preserves AliasesValid (applyAliasOperation action) := by
  intro toc h
  cases action with
  | createAlias collectionName aliasName =>
    simp only [applyAliasOperation, run_get_bind, run_liftExcept_bind]
    split
    · rename_i hexists
      split
      · simp only [run_set]
        intro a c ha
        simp only [AliasPersistence.get_insert] at ha
        split at ha
        · -- the new alias names the collection just checked
          cases ha
          unfold validateCollectionExists at hexists
          split at hexists
          · assumption
          · cases hexists
        · exact h a c ha
      · exact h
    · exact h
  | deleteAlias aliasName =>
    intro a c ha
    simp only [applyAliasOperation, run_modify, AliasPersistence.get_remove] at ha
    split at ha
    · cases ha
    · exact h a c ha
  | renameAlias oldAliasName newAliasName =>
    simp only [applyAliasOperation, run_get_bind, run_liftExcept_bind]
    split
    · rename_i p hp
      simp only [run_set]
      intro a c ha
      obtain ⟨c', hold, hget⟩ := AliasPersistence.get_renameAlias _ hp a
      rw [hget] at ha
      split at ha
      · -- the renamed alias keeps the collection of the old one
        cases ha
        exact h _ _ hold
      · split at ha
        · cases ha
        · exact h a c ha
    · exact h

theorem aliasesValid_performCollectionMetaOp (operation : TocOperation) :
    Preserves AliasesValid (performCollectionMetaOp operation) := by
  cases operation with
  | createCollection collectionName operation shardCount =>
    exact aliasesValid_createCollection collectionName operation shardCount
  | deleteCollection collectionName => exact aliasesValid_deleteCollection collectionName
  | changeAliases actions =>
    exact Preserves.bind (Preserves.forM aliasesValid_applyAliasOperation actions)
      fun _ => Preserves.pure _

/-- **Every alias names an existing collection, after every operation of every run**, failed
operations included. -/
theorem aliasesValid_run {toc : TableOfContent} (h : AliasesValid toc) :
    ∀ operations, AliasesValid (run toc operations) := by
  intro operations
  induction operations generalizing toc with
  | nil => exact h
  | cons operation rest ih =>
    exact ih (aliasesValid_performCollectionMetaOp operation toc h)

/-- From an empty node, through a collection created, aliased and deleted: every alias names an
existing collection at the end. -/
theorem aliasesValid_run_create_alias_delete :
    let toc : TableOfContent := ⟨[], ⟨[], sorted_nil, []⟩⟩
    AliasesValid toc ∧ AliasesValid (run toc
      [.createCollection "a" ⟨none, none⟩ 1, .changeAliases [.createAlias "a" "x"],
       .deleteCollection "a"]) := by
  intro toc
  have h : AliasesValid toc := by
    intro a c ha
    simp [toc, AliasPersistence.get, get?] at ha
  exact ⟨h, aliasesValid_run h _⟩

/-! ## 4. `data.json` follows the mapping -/

theorem saved_applyAliasOperation (action : AliasOperations) :
    Preserves Saved (applyAliasOperation action) := by
  intro toc h
  cases action with
  | createAlias collectionName aliasName =>
    simp only [applyAliasOperation, run_get_bind, run_liftExcept_bind]
    split
    · split
      · rfl
      · exact h
    · exact h
  | deleteAlias aliasName => rfl
  | renameAlias oldAliasName newAliasName =>
    simp only [applyAliasOperation, run_get_bind, run_liftExcept_bind]
    split
    · rename_i p hp
      unfold AliasPersistence.renameAlias at hp
      split at hp
      · cases hp
      · cases hp
        rfl
    · exact h

theorem saved_performCollectionMetaOp (operation : TocOperation) :
    Preserves Saved (performCollectionMetaOp operation) := by
  cases operation with
  | createCollection collectionName operation shardCount =>
    -- only the insertion writes, and it leaves the aliases alone
    refine Preserves.bind Preserves.get fun toc => ?_
    refine Preserves.bind (Preserves.lift _) fun _ => ?_
    refine Preserves.bind Preserves.get fun toc' => ?_
    refine Preserves.bind (Preserves.lift _) fun _ => ?_
    exact Preserves.bind (Preserves.modify fun s hs => hs) fun _ => Preserves.pure _
  | deleteCollection collectionName =>
    intro toc h
    simp only [performCollectionMetaOp, deleteCollection, run_get_bind]
    split
    · rfl
    · exact h
  | changeAliases actions =>
    exact Preserves.bind (Preserves.forM saved_applyAliasOperation actions) fun _ => Preserves.pure _

/-- Every save succeeds, so `data.json` always holds the mapping in memory. -/
theorem saved_run {toc : TableOfContent} (h : Saved toc) :
    ∀ operations, Saved (run toc operations) := by
  intro operations
  induction operations generalizing toc with
  | nil => exact h
  | cons operation rest ih => exact ih (saved_performCollectionMetaOp operation toc h)

/-! ## 5. What an `update_aliases` that fails leaves behind -/

/-- A failed action changes nothing: each one checks before it writes. -/
theorem applyAliasOperation_error {action : AliasOperations} {toc toc' : TableOfContent}
    {e : StorageError} (h : (applyAliasOperation action).run toc = (.error e, toc')) : toc' = toc := by
  cases action with
  | createAlias collectionName aliasName =>
    simp only [applyAliasOperation, run_get_bind, run_liftExcept_bind] at h
    split at h
    · split at h
      · simp at h
      · cases h
        rfl
    · cases h
      rfl
  | deleteAlias aliasName => simp [applyAliasOperation] at h
  | renameAlias oldAliasName newAliasName =>
    simp only [applyAliasOperation, run_get_bind, run_liftExcept_bind] at h
    split at h
    · simp at h
    · cases h
      rfl

/-- **`update_aliases` is not atomic**: when it fails, the actions before the failing one stay
applied and saved, and the failing one changed nothing. -/
theorem updateAliases_error {actions : List AliasOperations} {toc toc' : TableOfContent}
    {e : StorageError} (h : (updateAliases actions).run toc = (.error e, toc')) :
    ∃ done failed rest, actions = done ++ failed :: rest ∧
      (done.forM applyAliasOperation).run toc = (.ok (), toc') ∧
      ((applyAliasOperation failed).run toc').1 = .error e := by
  simp only [updateAliases, run_bind] at h
  rcases hloop : (actions.forM applyAliasOperation).run toc with ⟨_ | _, s⟩
  · rw [hloop] at h
    cases h
    obtain ⟨done, failed, rest, s₁, hsplit, hdone, hfailed⟩ := run_forM_error hloop
    have hs : toc' = s₁ := applyAliasOperation_error hfailed
    subst hs
    exact ⟨done, failed, rest, hsplit, hdone, by rw [hfailed]⟩
  · rw [hloop] at h
    cases h

/-- An update that creates an alias of `a` and then one of the missing collection `m` fails
at its second action, with the first applied. -/
theorem updateAliases_error_second_action :
    let toc : TableOfContent := ⟨["a"], ⟨[], sorted_nil, []⟩⟩
    let actions : List AliasOperations := [.createAlias "a" "y", .createAlias "m" "z"]
    ((updateAliases actions).run toc).1 = .error (.notFound "Collection `m` doesn't exist!") ∧
      ∃ done failed rest, actions = done ++ failed :: rest ∧
        (done.forM applyAliasOperation).run toc = (.ok (), ((updateAliases actions).run toc).2) ∧
        ((applyAliasOperation failed).run ((updateAliases actions).run toc).2).1 =
          .error (.notFound "Collection `m` doesn't exist!") := by
  intro toc actions
  have hfail : ((updateAliases actions).run toc).1 =
      .error (.notFound "Collection `m` doesn't exist!") := by
    decide +kernel
  exact ⟨hfail, updateAliases_error (Prod.ext hfail rfl)⟩

end TableOfContent

/-- **Names become ambiguous, and a failed alias update is half applied.**  From an empty
node: collections `a` and `b` are created, then an alias `x` of `a` is created and renamed to
`b`.  Afterwards the mapping has an alias `b` while a collection `b` exists, and
`resolve_name "b"` returns `a`.  Then an update that creates an alias `y` of `a` and an alias
`z` of the missing collection `m` fails, but leaves `y` in memory and in `data.json`. -/
theorem rename_alias_shadows_collection :
    let toc : TableOfContent := ⟨[], ⟨[], sorted_nil, []⟩⟩
    let final := TableOfContent.run toc
      [.createCollection "a" ⟨none, none⟩ 1, .createCollection "b" ⟨none, none⟩ 1,
       .changeAliases [.createAlias "a" "x", .renameAlias "x" "b"]]
    let failed := (TableOfContent.updateAliases [.createAlias "a" "y", .createAlias "m" "z"]).run final
    final.aliasPersistence.get "b" = some "a" ∧ "b" ∈ final.collections ∧
      final.resolveName "b" = .ok "a" ∧
      failed.1 = .error (.notFound "Collection `m` doesn't exist!") ∧
      failed.2.aliasPersistence.get "y" = some "a" ∧
      failed.2.aliasPersistence.saved ≠ final.aliasPersistence.saved := by
  intro toc final failed
  decide +kernel

end Qdrant
