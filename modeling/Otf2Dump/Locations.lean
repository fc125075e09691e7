import Mathlib.Data.List.GetD
import Otf2Dump.Groups
import Otf2Dump.Regions.Definitions

/-!
# Locations in the global definitions

`write_def_files` returns exactly when the world size is not negative and `event_counts` covers
every rank, and its definitions then describe each rank's location and location group.
-/

set_option autoImplicit false

namespace Otf2Dump

/-- The global definitions `write_def_files` writes for the writer `w`: the clock properties,
the string table, the MPI paradigm, the regions, the system tree node, a location group and a
location for each rank, and the group of all locations. -/
def definitionsFile (w : OTF2Writer) (eventCounts : List CInt) : List GlobalDef :=
  let strings := defStrings w
  let ranks := List.range w.world.size.toInt.toNat
  [.clockProperties w.clockResolution w.startTime (w.stopTime - w.startTime)] ++
    strings.pairs.map (fun entry => .string entry.2 entry.1) ++
    [.paradigm (strings.get "MPI")] ++
    w.otf2RegionsTable.pairs.map (fun entry =>
      .region entry.2 (strings.get entry.1) (strings.get entry.1) 0 0) ++
    [.systemTreeNode 0 0] ++
    ranks.map (fun rank => .locationGroup rank (strings.get ("MPI Rank " ++ toString rank))) ++
    ranks.map (fun rank =>
      .location rank (strings.get ("Master Thread " ++ toString rank)) (eventCounts.getD rank 0)) ++
    [.group w.header.commLocationsGroupId (strings.get "LOCATIONS_GROUP") ranks]

/-!
## Reading the locations back
-/

/-- The string ids and event counts the LOCATION definitions of `location` give. -/
def locationEntries (defs : List GlobalDef) (location : Nat) : List (Nat × CInt) :=
  defs.filterMap fun
    | .location id name events => if id = location then some (name, events) else none
    | _ => none

/-- The locations a list of definitions gives the id `location`: the text of each STRING
definition a LOCATION definition of `location` names, with the events it announces. -/
def locationsOf (defs : List GlobalDef) (location : Nat) : List (String × CInt) :=
  (locationEntries defs location).flatMap fun entry =>
    (stringTexts defs entry.1).map fun text => (text, entry.2)

/-- The string ids the LOCATION_GROUP definitions of `group` name. -/
def locationGroupNameIds (defs : List GlobalDef) (group : Nat) : List Nat :=
  defs.filterMap fun
    | .locationGroup id name => if id = group then some name else none
    | _ => none

/-- The names a list of definitions gives the location group `group`. -/
def locationGroupNames (defs : List GlobalDef) (group : Nat) : List String :=
  (locationGroupNameIds defs group).flatMap (stringTexts defs)

/-- The GROUP definitions: the id, the string id of the name and the members of each. -/
def groupEntries (defs : List GlobalDef) : List (Int × Nat × List Nat) :=
  defs.filterMap fun
    | .group id name members => some (id, name, members)
    | _ => none

/-- The groups a list of definitions gives, each named through the STRING definitions. -/
def groupsOf (defs : List GlobalDef) : List (Int × String × List Nat) :=
  (groupEntries defs).flatMap fun entry =>
    (stringTexts defs entry.2.1).map fun text => (entry.1, text, entry.2.2)

/-- What a reader of `defs` finds about a world of `ranks` ranks: rank `r` has exactly one
location, named `Master Thread r` and announcing `events r` events, and exactly one location
group, named `MPI Rank r`; no other id has either; and the one group, `LOCATIONS_GROUP` with
id `group`, lists every rank. -/
structure DescribesRanks (defs : List GlobalDef) (ranks : Nat) (events : Nat → CInt)
    (group : Int) : Prop where
  locations : ∀ rank, locationsOf defs rank =
    if rank < ranks then [("Master Thread " ++ toString rank, events rank)] else []
  locationGroups : ∀ rank, locationGroupNames defs rank =
    if rank < ranks then ["MPI Rank " ++ toString rank] else []
  groups : groupsOf defs = [(group, "LOCATIONS_GROUP", List.range ranks)]

theorem filterMap_range_eq {β : Type} (g : Nat → β) (n index : Nat) :
    (List.range n).filterMap (fun i => if i = index then some (g i) else none) =
      if index < n then [g index] else [] := by
  induction n with
  | zero => simp
  | succ n ih =>
    rw [List.range_succ, List.filterMap_append, ih]
    by_cases here : n = index
    · subst here
      simp
    · by_cases below : index < n
      · simp [below, here, show index < n + 1 by omega]
      · simp [below, here, show ¬index < n + 1 by omega]

@[simp] theorem filterMap_const_none {α β : Type} (l : List α) :
    l.filterMap (fun _ => (none : Option β)) = [] :=
  List.filterMap_eq_nil_iff.mpr fun _ _ => rfl

theorem stringTexts_definitionsFile (w : OTF2Writer) (eventCounts : List CInt) (id : Nat) :
    stringTexts (definitionsFile w eventCounts) id =
      stringTexts ((defStrings w).pairs.map fun entry => .string entry.2 entry.1) id := by
  simp [definitionsFile, stringTexts_append, stringTexts_regions, stringTexts]

theorem stringTexts_definitionsFile_get (w : OTF2Writer) (eventCounts : List CInt)
    {value : String} (mem : value ∈ (defStrings w).entries) :
    stringTexts (definitionsFile w eventCounts) ((defStrings w).get value) = [value] := by
  rw [stringTexts_definitionsFile, stringTexts_strings _ ((defStrings w).get_of_mem mem)]

theorem locationEntries_definitionsFile (w : OTF2Writer) (eventCounts : List CInt)
    (rank : Nat) :
    locationEntries (definitionsFile w eventCounts) rank =
      if rank < w.world.size.toInt.toNat then
        [((defStrings w).get ("Master Thread " ++ toString rank), eventCounts.getD rank 0)]
      else [] := by
  simp only [definitionsFile, locationEntries, List.filterMap_append, List.filterMap_map]
  simpa [Function.comp_def] using
    filterMap_range_eq (fun rank => ((defStrings w).get ("Master Thread " ++ toString rank),
      eventCounts.getD rank 0)) w.world.size.toInt.toNat rank

theorem locationGroupNameIds_definitionsFile (w : OTF2Writer) (eventCounts : List CInt)
    (rank : Nat) :
    locationGroupNameIds (definitionsFile w eventCounts) rank =
      if rank < w.world.size.toInt.toNat then
        [(defStrings w).get ("MPI Rank " ++ toString rank)]
      else [] := by
  simp only [definitionsFile, locationGroupNameIds, List.filterMap_append, List.filterMap_map]
  simpa [Function.comp_def] using
    filterMap_range_eq (fun rank => (defStrings w).get ("MPI Rank " ++ toString rank))
      w.world.size.toInt.toNat rank

theorem groupEntries_definitionsFile (w : OTF2Writer) (eventCounts : List CInt) :
    groupEntries (definitionsFile w eventCounts) =
      [(w.header.commLocationsGroupId, (defStrings w).get "LOCATIONS_GROUP",
        List.range w.world.size.toInt.toNat)] := by
  simp [definitionsFile, groupEntries, List.filterMap_append, List.filterMap_map,
    Function.comp_def]

theorem definitionsFile_describes_ranks (w : OTF2Writer) (eventCounts : List CInt) :
    DescribesRanks (definitionsFile w eventCounts) w.world.size.toInt.toNat
      (eventCounts.getD · 0) w.header.commLocationsGroupId where
  locations rank := by
    rw [locationsOf, locationEntries_definitionsFile]
    split
    · rename_i below
      simp [stringTexts_definitionsFile_get w eventCounts
        (@rankName_mem_defStrings w rank below ("Master Thread " ++ toString rank) (by simp))]
    · rfl
  locationGroups rank := by
    rw [locationGroupNames, locationGroupNameIds_definitionsFile]
    split
    · rename_i below
      simp [stringTexts_definitionsFile_get w eventCounts
        (@rankName_mem_defStrings w rank below ("MPI Rank " ++ toString rank) (by simp))]
    · rfl
  groups := by
    simp [groupsOf, groupEntries_definitionsFile,
      stringTexts_definitionsFile_get w eventCounts
        (@fixed_mem_defStrings w "LOCATIONS_GROUP" (by simp))]

/-!
## Running `write_def_files`
-/

theorem stringsInsert_ok_of_mem {value : String} {u u' : OTF2Writer} {id : Nat}
    (inserted : stringsInsert value u = .ok id u') (held : value ∈ u.otf2StringsTable.entries) :
    id = u.otf2StringsTable.get value ∧ u' = u := by
  rw [run_stringsInsert, Interner.insert_of_mem held] at inserted
  cases inserted
  exact ⟨rfl, rfl⟩

theorem forM_appends {α : Type} {items : List α} {body : α → WriterM Unit} {table : Interner}
    {record : α → GlobalDef} {holds : α → Prop} {w w' : OTF2Writer}
    (ran : items.forM body w = .ok () w') (kept : w.otf2StringsTable = table)
    (each : ∀ item ∈ items, ∀ u u', u.otf2StringsTable = table → body item u = .ok () u' →
      holds item ∧ u' = { u with globalDefs := u.globalDefs ++ [record item] }) :
    (∀ item ∈ items, holds item) ∧ w'.otf2StringsTable = table ∧
      w' = { w with globalDefs := w.globalDefs ++ items.map record } := by
  induction items generalizing w with
  | nil => cases ran; simpa using kept
  | cons item items more =>
    rw [List.forM_cons'] at ran
    obtain ⟨_, u, first, rest⟩ := run_bind_ok ran
    obtain ⟨held, rfl⟩ := each item (List.mem_cons_self _ _) w u kept first
    obtain ⟨heldAll, kept, rfl⟩ :=
      more rest kept fun item mem => each item (List.mem_cons_of_mem _ mem)
    exact ⟨List.forall_mem_cons.mpr ⟨held, heldAll⟩, kept, by simp⟩

theorem internWrite_ok {name : String} {record : Nat → GlobalDef} {table : Interner}
    {u u' : OTF2Writer} (ran : (stringsInsert name >>= fun id => writeDef (record id)) u = .ok () u')
    (kept : u.otf2StringsTable = table) (held : name ∈ table.entries) :
    u' = { u with globalDefs := u.globalDefs ++ [record (table.get name)] } := by
  obtain ⟨_, _, named, ran⟩ := run_bind_ok ran
  obtain ⟨rfl, rfl⟩ := stringsInsert_ok_of_mem named (kept ▸ held)
  cases ran
  simp only [kept]

theorem internReadWrite_ok {α : Type} {name : String} {array : List α} {index : Nat}
    {record : Nat → α → GlobalDef} {table : Interner} {u u' : OTF2Writer}
    (ran : (stringsInsert name >>= fun id => readAt array index >>= fun value =>
      writeDef (record id value)) u = .ok () u')
    (kept : u.otf2StringsTable = table) (held : name ∈ table.entries) :
    ∃ inside : index < array.length,
      u' = { u with globalDefs := u.globalDefs ++ [record (table.get name) array[index]] } := by
  obtain ⟨_, _, named, ran⟩ := run_bind_ok ran
  obtain ⟨rfl, rfl⟩ := stringsInsert_ok_of_mem named (kept ▸ held)
  obtain ⟨_, _, read, ran⟩ := run_bind_ok ran
  obtain ⟨inside, rfl, rfl⟩ := readAt_ok read
  cases ran
  exact ⟨by simpa using inside.2, by simp only [kept, Int.toNat_ofNat]⟩

/-- `write_def_files` returns only where the world size is not negative and `event_counts` has
an entry for every rank, having interned the strings of `defStrings` and appended
`definitionsFile`. -/
theorem writeDefFiles_ok {eventCounts : List CInt} {w w' : OTF2Writer}
    (wrote : writeDefFiles eventCounts w = .ok () w') :
    0 ≤ w.world.size.toInt ∧ w.world.size.toInt.toNat ≤ eventCounts.length ∧
      w' = { w with
        otf2StringsTable := defStrings w
        globalDefs := w.globalDefs ++ definitionsFile w eventCounts } := by
  unfold writeDefFiles at wrote
  obtain ⟨_, _, got, wrote⟩ := run_bind_ok wrote
  cases got
  obtain ⟨_, _, clock, wrote⟩ := run_bind_ok wrote
  cases clock
  iterate 5
    obtain ⟨_, _, inserted, wrote⟩ := run_bind_ok wrote
    obtain ⟨rfl, rfl⟩ := EStateM.Result.ok.inj ((run_stringsInsert _ _).symm.trans inserted)
  obtain ⟨_, _, ranks, wrote⟩ := run_bind_ok wrote
  cases forM_inserts (fun rank => ["MPI Rank " ++ toString rank, "Master Thread " ++ toString rank])
    ranks fun _ _ => rfl
  obtain ⟨_, _, names, wrote⟩ := run_bind_ok wrote
  cases forM_inserts (fun name => [name]) names fun _ _ => rfl
  obtain ⟨_, _, got, wrote⟩ := run_bind_ok wrote
  cases got
  obtain ⟨_, _, strings, wrote⟩ := run_bind_ok wrote
  cases forM_writes (fun (_ : Interner) (entry : String × Nat) => GlobalDef.string entry.2 entry.1)
    strings fun ⟨_, _⟩ _ => rfl
  obtain ⟨_, _, paradigm, wrote⟩ := run_bind_ok wrote
  obtain ⟨rfl, rfl⟩ := EStateM.Result.ok.inj ((run_stringsInsert _ _).symm.trans paradigm)
  obtain ⟨_, _, paradigm, wrote⟩ := run_bind_ok wrote
  cases paradigm
  obtain ⟨_, _, regions, wrote⟩ := run_bind_ok wrote
  cases forM_writes (fun (table : Interner) (entry : String × Nat) =>
    GlobalDef.region entry.2 (table.get entry.1) (table.get entry.1) 0 0) regions fun ⟨_, _⟩ _ => rfl
  clear * - wrote
  have mpi := @fixed_mem_defStrings w "MPI" (by simp)
  simp only [defStrings, Interner.insertAll_cons, Interner.insertAll_nil,
    List.flatMap_singleton'] at mpi
  obtain ⟨_, _, tree, wrote⟩ := run_bind_ok wrote
  cases tree
  obtain ⟨_, _, groups, wrote⟩ := run_bind_ok wrote
  obtain ⟨-, kept, rfl⟩ := @forM_appends _ _ _ (defStrings w)
    (fun rank => .locationGroup rank ((defStrings w).get ("MPI Rank " ++ toString rank)))
    (fun _ => True) _ _ groups (by
      simp only [defStrings, Interner.insertAll_cons, Interner.insertAll_nil,
        List.flatMap_singleton']
      rw [Interner.insert_of_mem mpi]) fun rank mem _ _ kept ran =>
      ⟨trivial, internWrite_ok ran kept (rankName_mem_defStrings (List.mem_range.mp mem) (by simp))⟩
  obtain ⟨_, _, locations, wrote⟩ := run_bind_ok wrote
  obtain ⟨covered, kept, rfl⟩ := @forM_appends _ _ _ (defStrings w)
    (fun rank => .location rank ((defStrings w).get ("Master Thread " ++ toString rank))
      (eventCounts.getD rank 0))
    (fun rank => rank < eventCounts.length) _ _ locations kept fun rank mem _ _ kept ran => by
      obtain ⟨inside, rfl⟩ := internReadWrite_ok ran kept
        (rankName_mem_defStrings (List.mem_range.mp mem) (by simp))
      exact ⟨inside, by simp only [List.getD_eq_getElem _ _ inside]⟩
  obtain ⟨_, _, allocated, wrote⟩ := run_bind_ok wrote
  obtain ⟨nonneg, rfl⟩ := newArray_ok allocated
  obtain ⟨_, _, named, wrote⟩ := run_bind_ok wrote
  obtain ⟨rfl, rfl⟩ :=
    stringsInsert_ok_of_mem named (by rw [kept]; exact fixed_mem_defStrings w (by simp))
  cases wrote
  refine ⟨nonneg, ?_, ?_⟩
  · by_contra short
    exact absurd (covered _ (List.mem_range.mpr (not_le.mp short))) (lt_irrefl _)
  · simp only [definitionsFile, defStrings, Interner.insertAll_cons, Interner.insertAll_nil,
      List.flatMap_singleton', Interner.insert_of_mem mpi, List.append_assoc,
      List.singleton_append, List.cons_append, List.nil_append]

/-- `write_def_files` returns exactly when the world size is not negative and `event_counts` has
an entry for every rank, and the definitions it then appends describe every rank: one location, named `Master Thread r` and
announcing `event_counts[r]` events, one location group, named `MPI Rank r`, and the group of
all locations. -/
theorem definitions_describe_every_rank (eventCounts : List CInt) (w : OTF2Writer) :
    ((∃ w', writeDefFiles eventCounts w = .ok () w') ↔
        0 ≤ w.world.size.toInt ∧ w.world.size.toInt.toNat ≤ eventCounts.length) ∧
      ∀ w', writeDefFiles eventCounts w = .ok () w' →
        DescribesRanks (w'.globalDefs.drop w.globalDefs.length) w.world.size.toInt.toNat
          (eventCounts.getD · 0) w.header.commLocationsGroupId := by
  refine ⟨⟨fun ⟨_, wrote⟩ => ⟨(writeDefFiles_ok wrote).1, (writeDefFiles_ok wrote).2.1⟩,
    fun ⟨nonneg, covered⟩ => writeDefFiles_returns nonneg covered⟩, fun w' wrote => ?_⟩
  obtain ⟨-, -, rfl⟩ := writeDefFiles_ok wrote
  dsimp only
  rw [List.drop_left]
  exact definitionsFile_describes_ranks w eventCounts

end Otf2Dump
