import Otf2Dump.Writer.Basic

/-!
# Global definitions

`write_def_files`: the string table, then the definitions that name its string ids; the
communicator and group definitions after `LOCATIONS_GROUP` are commented out in the source.
-/

set_option autoImplicit false

namespace Otf2Dump

/-- Write a record through the global definition writer. -/
def writeDef (record : GlobalDef) : WriterM Unit :=
  modify fun w => { w with globalDefs := w.globalDefs ++ [record] }

def stringsInsert (value : String) : WriterM Nat :=
  modifyGet fun w =>
    ((w.otf2StringsTable.insert value).2,
      { w with otf2StringsTable := (w.otf2StringsTable.insert value).1 })

theorem run_stringsInsert (value : String) (w : OTF2Writer) :
    stringsInsert value w = .ok (w.otf2StringsTable.insert value).2
      { w with otf2StringsTable := (w.otf2StringsTable.insert value).1 } := rfl

theorem Returns.writeDef (record : GlobalDef) : Returns (writeDef record) := Returns.modify _

theorem Returns.stringsInsert (value : String) : Returns (stringsInsert value) :=
  Returns.modifyGet _

/-- Modelled from the spec: iterating a table yields its values with their ids, in id order. -/
def Interner.pairs (table : Interner) : List (String × Nat) :=
  table.entries.zip (List.range table.entries.length)

/-- `new uint64_t[size]`: throws `std::bad_array_new_length` on a negative size. -/
def newArray (size : CInt) : WriterM Unit :=
  if size.toInt < 0 then throw (.exception "std::bad_array_new_length") else pure ()

theorem Returns.newArray {size : CInt} (nonneg : 0 ≤ size.toInt) : Returns (newArray size) := by
  rw [Otf2Dump.newArray, if_neg (by omega)]
  exact Returns.pure _

theorem newArray_ok {size : CInt} {u u' : OTF2Writer} (ran : newArray size u = .ok () u') :
    0 ≤ size.toInt ∧ u' = u := by
  unfold newArray at ran
  split at ran
  · cases ran
  · cases ran
    exact ⟨by omega, rfl⟩

theorem Guarantees.newArray {relation : OTF2Writer → OTF2Writer → Prop}
    (reflexive : ∀ w, relation w w) (size : CInt) : Guarantees relation (newArray size) :=
  Guarantees.ite (Guarantees.throw reflexive _) (Guarantees.pure reflexive _)

def writeDefFiles (eventCounts : List CInt) : WriterM Unit := do
  let w ← get
  writeDef (.clockProperties w.clockResolution w.startTime (w.stopTime - w.startTime))
  let _ ← stringsInsert ""
  let _ ← stringsInsert "MPI"
  let _ ← stringsInsert "MPI_COMM_WORLD"
  let _ ← stringsInsert "MPI_COMM_SELF"
  let _ ← stringsInsert "LOCATIONS_GROUP"
  forCount w.world.size fun rank => do
    let _ ← stringsInsert ("MPI Rank " ++ toString rank)
    let _ ← stringsInsert ("Master Thread " ++ toString rank)
  w.otf2RegionsTable.entries.forM fun name => do
    let _ ← stringsInsert name
  -- STRINGS
  (← get).otf2StringsTable.pairs.forM fun (name, idx) => writeDef (.string idx name)
  -- PARADIGM
  writeDef (.paradigm (← stringsInsert "MPI"))
  -- REGIONS
  w.otf2RegionsTable.pairs.forM fun (regionName, regionIdx) => do
    let strId := (← get).otf2StringsTable.get regionName
    writeDef (.region regionIdx strId strId 0 0)
  -- SYSTEM_TREE_NODE
  writeDef (.systemTreeNode 0 0)
  -- LOCATION_GROUP
  forCount w.world.size fun i => do
    writeDef (.locationGroup i (← stringsInsert ("MPI Rank " ++ toString i)))
  -- LOCATION
  forCount w.world.size fun i => do
    let name ← stringsInsert ("Master Thread " ++ toString i)
    writeDef (.location i name (← readAt eventCounts i))
  -- GROUP
  newArray w.world.size
  let name ← stringsInsert "LOCATIONS_GROUP"
  writeDef (.group w.header.commLocationsGroupId name (List.range w.world.size.toInt.toNat))

/-- `write_def_files` returns whenever the world size is not negative and `event_counts` has an
entry for every rank: allocating the member list and reading the counts are the only steps that
can fail. -/
theorem writeDefFiles_returns {eventCounts : List CInt} {w : OTF2Writer}
    (nonneg : 0 ≤ w.world.size.toInt) (covered : w.world.size.toInt.toNat ≤ eventCounts.length) :
    ∃ w', writeDefFiles eventCounts w = .ok () w' := by
  unfold writeDefFiles
  rw [run_bind, run_get]
  dsimp only
  refine Returns.run ?_ w
  with_reducible repeat' first
    | apply Returns.bind
    | intro _
    | apply Returns.get
    | apply Returns.pure
    | apply Returns.modify
    | apply Returns.writeDef
    | apply Returns.stringsInsert
    | apply Returns.forCount
    | apply Returns.forM
    | exact Returns.newArray nonneg
  -- What is left is the read of each rank's event count.
  exact Returns.readAt _ (by omega)

/-- `write_def_files` changes nothing but the string table and the global definitions. -/
theorem writeDefFiles_frame (eventCounts : List CInt) :
    Guarantees (fun w w' => ∃ strings defs,
      w' = { w with otf2StringsTable := strings, globalDefs := defs }) (writeDefFiles eventCounts) := by
  have transitive : ∀ u v w : OTF2Writer,
      (∃ strings defs, v = { u with otf2StringsTable := strings, globalDefs := defs }) →
      (∃ strings defs, w = { v with otf2StringsTable := strings, globalDefs := defs }) →
      ∃ strings defs, w = { u with otf2StringsTable := strings, globalDefs := defs } := by
    rintro u _ _ ⟨_, _, rfl⟩ ⟨strings, defs, rfl⟩
    exact ⟨strings, defs, rfl⟩
  unfold writeDefFiles writeDef stringsInsert
  with_reducible repeat' first
    | apply Guarantees.bind transitive
    | intro _
    | exact ⟨_, _, rfl⟩
    | apply Guarantees.get
    | apply Guarantees.pure
    | apply Guarantees.modify
    | apply Guarantees.modifyGet
    | apply Guarantees.forCount _ transitive
    | apply Guarantees.forM _ transitive
    | apply Guarantees.readAt
    | apply Guarantees.newArray

end Otf2Dump
