import Otf2Dump.Regions.Records

/-!
# Region definitions

The STRING and REGION definitions `write_def_files` writes name every region of the writer's
own table, so they name the ids of another rank only where its table is a prefix of this one.
-/

set_option autoImplicit false

namespace Otf2Dump

/-- The string ids the REGION definitions of `region` name. -/
def regionNameIds (defs : List GlobalDef) (region : Nat) : List Nat :=
  defs.filterMap fun
    | .region id name _ _ _ => if id = region then some name else none
    | _ => none

/-- The texts the STRING definitions give the string id `string`. -/
def stringTexts (defs : List GlobalDef) (string : Nat) : List String :=
  defs.filterMap fun
    | .string id text => if id = string then some text else none
    | _ => none

/-- The names a list of definitions gives `region`: the text of each STRING definition
whose id a REGION definition of `region` names. -/
def regionNames (defs : List GlobalDef) (region : Nat) : List String :=
  (regionNameIds defs region).flatMap (stringTexts defs)

/-- A definition that is neither a STRING nor a REGION definition. -/
def GlobalDef.Plain : GlobalDef → Prop
  | .string .. | .region .. => False
  | _ => True

/-!
## Reading back a table
-/

theorem filterMap_zip_range'_past {β : Type} (g : String → β) (index : Nat) :
    ∀ (entries : List String) (start : Nat), index < start →
      (entries.zip (List.range' start entries.length)).filterMap
        (fun entry => if entry.2 = index then some (g entry.1) else none) = []
  | [], _, _ => rfl
  | entry :: entries, start, before => by
    rw [List.length_cons, List.range'_succ, List.zip_cons_cons, List.filterMap_cons,
      if_neg (by omega)]
    exact filterMap_zip_range'_past g index entries _ (by omega)

theorem filterMap_zip_range'_at {β : Type} (g : String → β) (index : Nat) (value : String) :
    ∀ (entries : List String) (start : Nat), start ≤ index →
      entries[index - start]? = some value →
      (entries.zip (List.range' start entries.length)).filterMap
        (fun entry => if entry.2 = index then some (g entry.1) else none) = [g value]
  | [], _, _, found => by simp at found
  | entry :: entries, start, after, found => by
    rw [List.length_cons, List.range'_succ, List.zip_cons_cons, List.filterMap_cons]
    by_cases here : start = index
    · subst here
      simp only [Nat.sub_self, List.getElem?_cons_zero, Option.some.injEq] at found
      rw [if_pos rfl, filterMap_zip_range'_past g start entries _ (by omega), found]
    · have shifted : index - start = index - (start + 1) + 1 := by omega
      rw [shifted, List.getElem?_cons_succ] at found
      rw [if_neg here, filterMap_zip_range'_at g index value entries _ (by omega) found]

theorem Interner.pairs_filterMap {β : Type} (table : Interner) (g : String → β) {index : Nat}
    {value : String} (found : table.entries[index]? = some value) :
    table.pairs.filterMap (fun entry => if entry.2 = index then some (g entry.1) else none) =
      [g value] := by
  rw [Interner.pairs, List.range_eq_range']
  exact filterMap_zip_range'_at g index value table.entries 0 (Nat.zero_le _) found

theorem regionNameIds_regions (table : Interner) (name : String → Nat) {index : Nat}
    {value : String} (found : table.entries[index]? = some value) :
    regionNameIds (table.pairs.map fun entry => .region entry.2 (name entry.1) (name entry.1) 0 0)
      index = [name value] := by
  rw [regionNameIds, List.filterMap_map]
  exact table.pairs_filterMap name found

theorem stringTexts_strings (table : Interner) {index : Nat} {value : String}
    (found : table.entries[index]? = some value) :
    stringTexts (table.pairs.map fun entry => .string entry.2 entry.1) index = [value] := by
  rw [stringTexts, List.filterMap_map]
  exact table.pairs_filterMap id found

theorem regionNameIds_strings (table : Interner) (index : Nat) :
    regionNameIds (table.pairs.map fun entry => .string entry.2 entry.1) index = [] := by
  simp [regionNameIds]

theorem stringTexts_regions (table : Interner) (name : String → Nat) (index : Nat) :
    stringTexts (table.pairs.map fun entry => .region entry.2 (name entry.1) (name entry.1) 0 0)
      index = [] := by
  simp [stringTexts]

theorem regionNameIds_append (defs more : List GlobalDef) (index : Nat) :
    regionNameIds (defs ++ more) index = regionNameIds defs index ++ regionNameIds more index :=
  List.filterMap_append _ _ _

theorem stringTexts_append (defs more : List GlobalDef) (index : Nat) :
    stringTexts (defs ++ more) index = stringTexts defs index ++ stringTexts more index :=
  List.filterMap_append _ _ _

theorem regionNameIds_plain {defs : List GlobalDef} (plain : ∀ d ∈ defs, d.Plain) (index : Nat) :
    regionNameIds defs index = [] := by
  refine List.filterMap_eq_nil_iff.mpr fun d mem => ?_
  have := plain d mem
  cases d <;> first | rfl | exact False.elim this

theorem stringTexts_plain {defs : List GlobalDef} (plain : ∀ d ∈ defs, d.Plain) (index : Nat) :
    stringTexts defs index = [] := by
  refine List.filterMap_eq_nil_iff.mpr fun d mem => ?_
  have := plain d mem
  cases d <;> first | rfl | exact False.elim this

theorem regionNameIds_singleton {d : GlobalDef} (plain : d.Plain) (index : Nat) :
    regionNameIds [d] index = [] :=
  regionNameIds_plain (fun _ mem => List.mem_singleton.mp mem ▸ plain) index

theorem stringTexts_singleton {d : GlobalDef} (plain : d.Plain) (index : Nat) :
    stringTexts [d] index = [] :=
  stringTexts_plain (fun _ mem => List.mem_singleton.mp mem ▸ plain) index

/-!
## The string table
-/

/-- Insert each value in turn, as the loops of `write_def_files` do. -/
def Interner.insertAll (table : Interner) (values : List String) : Interner :=
  values.foldl (fun table value => (table.insert value).1) table

@[simp] theorem Interner.insertAll_nil (table : Interner) : table.insertAll [] = table := rfl

@[simp] theorem Interner.insertAll_cons (table : Interner) (value : String) (values : List String) :
    table.insertAll (value :: values) = (table.insert value).1.insertAll values := rfl

theorem Interner.insertAll_append (table : Interner) (values more : List String) :
    table.insertAll (values ++ more) = (table.insertAll values).insertAll more :=
  List.foldl_append _ _ _ _

theorem Interner.insertAll_grows (table : Interner) (values : List String) :
    table.entries <+: (table.insertAll values).entries := by
  induction values generalizing table with
  | nil => exact List.prefix_refl _
  | cons value values grown => exact (table.insert_grows value).trans (grown _)

theorem Interner.mem_insert (table : Interner) (value : String) :
    value ∈ (table.insert value).1.entries :=
  List.getElem?_mem (table.insert_names value)

theorem Interner.mem_insertAll {table : Interner} {values : List String} {value : String}
    (mem : value ∈ values) : value ∈ (table.insertAll values).entries := by
  induction values generalizing table with
  | nil => cases mem
  | cons head values inserted =>
    rcases List.mem_cons.mp mem with rfl | mem
    · exact ((table.insert value).1.insertAll_grows values).subset (table.mem_insert value)
    · exact inserted mem

theorem Interner.insert_of_mem {table : Interner} {value : String} (mem : value ∈ table.entries) :
    table.insert value = (table, table.get value) := by
  simp [Interner.insert, Interner.get, mem]

theorem Interner.get_of_mem {table : Interner} {value : String} (mem : value ∈ table.entries) :
    table.entries[table.get value]? = some value := by
  have named := table.insert_names value
  rwa [table.insert_of_mem mem] at named

/-- The string table `write_def_files` writes out: the writer's table with the fixed names,
then the names of each rank and its thread, then the name of each region interned. -/
def defStrings (w : OTF2Writer) : Interner :=
  ((w.otf2StringsTable.insertAll ["", "MPI", "MPI_COMM_WORLD", "MPI_COMM_SELF", "LOCATIONS_GROUP"]).insertAll
    ((List.range w.world.size.toInt.toNat).flatMap fun rank =>
      ["MPI Rank " ++ toString rank, "Master Thread " ++ toString rank])).insertAll
    w.otf2RegionsTable.entries

theorem fixed_mem_defStrings (w : OTF2Writer) {value : String}
    (fixed : value ∈ ["", "MPI", "MPI_COMM_WORLD", "MPI_COMM_SELF", "LOCATIONS_GROUP"]) :
    value ∈ (defStrings w).entries :=
  (Interner.insertAll_grows _ _).subset <| (Interner.insertAll_grows _ _).subset <|
    Interner.mem_insertAll fixed

theorem rankName_mem_defStrings {w : OTF2Writer} {rank : Nat}
    (below : rank < w.world.size.toInt.toNat) {value : String}
    (named : value ∈ ["MPI Rank " ++ toString rank, "Master Thread " ++ toString rank]) :
    value ∈ (defStrings w).entries :=
  (Interner.insertAll_grows _ _).subset <|
    Interner.mem_insertAll (List.mem_flatMap.mpr ⟨rank, List.mem_range.mpr below, named⟩)

theorem region_mem_defStrings {w : OTF2Writer} {name : String}
    (mem : name ∈ w.otf2RegionsTable.entries) : name ∈ (defStrings w).entries :=
  Interner.mem_insertAll mem

/-!
## Running `write_def_files`
-/

/-- The string ids a definition names. -/
def GlobalDef.stringRefs : GlobalDef → List Nat
  | .paradigm name | .locationGroup _ name | .location _ name _ | .group _ name _ => [name]
  | .region _ name canonicalName description sourceFile =>
    [name, canonicalName, description, sourceFile]
  | .systemTreeNode name className => [name, className]
  | .clockProperties .. | .string .. => []

/-- From `w` to `w'`, for a writer whose string table is `table`: the table stays `table`,
and the definitions appended are plain and name only ids of `table`. -/
def KeepsStrings (table : Interner) (w w' : OTF2Writer) : Prop :=
  w.otf2StringsTable = table → w'.otf2StringsTable = table ∧
    ∃ more, w'.globalDefs = w.globalDefs ++ more ∧
      ∀ d ∈ more, d.Plain ∧ ∀ id ∈ d.stringRefs, id < table.entries.length

section KeepsStrings

variable {table : Interner}

theorem KeepsStrings.refl (w : OTF2Writer) : KeepsStrings table w w :=
  fun kept => ⟨kept, [], by simp, by simp⟩

theorem KeepsStrings.trans (u v w : OTF2Writer) (first : KeepsStrings table u v)
    (second : KeepsStrings table v w) : KeepsStrings table u w := by
  intro kept
  obtain ⟨kept, more, appended, named⟩ := first kept
  obtain ⟨kept, more', appended', named'⟩ := second kept
  refine ⟨kept, more ++ more', by rw [appended', appended, List.append_assoc], fun d mem => ?_⟩
  rcases List.mem_append.mp mem with mem | mem
  · exact named d mem
  · exact named' d mem

theorem keepsStrings_writeDef (d : GlobalDef) (plain : d.Plain)
    (named : ∀ id ∈ d.stringRefs, id < table.entries.length) :
    Guarantees (KeepsStrings table) (writeDef d) := by
  rintro w w' ⟨⟩ kept
  exact ⟨kept, [d], rfl, by simpa using ⟨plain, named⟩⟩

theorem keepsStrings_intern_bind {β : Type} {value : String} {next : Nat → WriterM β}
    (mem : value ∈ table.entries)
    (rest : ∀ id < table.entries.length, Guarantees (KeepsStrings table) (next id)) :
    Guarantees (KeepsStrings table) (stringsInsert value >>= next) := by
  intro w w' after kept
  simp only [stringsInsert, run_bind, run_modifyGet, kept, Interner.insert_of_mem mem] at after
  exact rest _ (List.indexOf_lt_length.mpr mem) _ _ after rfl

end KeepsStrings

theorem forM_inserts {α : Type} (values : α → List String) {body : α → WriterM Unit}
    {items : List α} {w w' : OTF2Writer} (ran : items.forM body w = .ok () w')
    (each : ∀ item w, body item w =
      .ok () { w with otf2StringsTable := w.otf2StringsTable.insertAll (values item) }) :
    w' = { w with otf2StringsTable := w.otf2StringsTable.insertAll (items.flatMap values) } := by
  induction items generalizing w with
  | nil => cases ran; rfl
  | cons item items more =>
    rw [List.forM_cons', run_bind, each] at ran
    rw [more ran, List.flatMap_cons, Interner.insertAll_append]

theorem forM_writes {α : Type} (record : Interner → α → GlobalDef) {body : α → WriterM Unit}
    {items : List α} {w w' : OTF2Writer} (ran : items.forM body w = .ok () w')
    (each : ∀ item w, body item w =
      .ok () { w with globalDefs := w.globalDefs ++ [record w.otf2StringsTable item] }) :
    w' = { w with globalDefs := w.globalDefs ++ items.map (record w.otf2StringsTable) } := by
  induction items generalizing w with
  | nil => cases ran; simp
  | cons item items more =>
    rw [List.forM_cons', run_bind, each] at ran
    rw [more ran]
    simp

/-- What `write_def_files` appends to the definitions: the clock properties, a STRING
definition for each entry of `defStrings`, the MPI paradigm, a REGION definition for each
entry of the region table, and then plain definitions that name only ids of `defStrings`,
which is the string table it ends with. -/
theorem writeDefFiles_appends {eventCounts : List CInt} {w w' : OTF2Writer}
    (wrote : writeDefFiles eventCounts w = .ok () w') :
    w'.otf2StringsTable = defStrings w ∧
    ∃ more, w'.globalDefs = w.globalDefs ++
        [.clockProperties w.clockResolution w.startTime (w.stopTime - w.startTime)] ++
        (defStrings w).pairs.map (fun entry => .string entry.2 entry.1) ++
        [.paradigm ((defStrings w).insert "MPI").2] ++
        w.otf2RegionsTable.pairs.map (fun entry => .region entry.2
          (((defStrings w).insert "MPI").1.get entry.1) (((defStrings w).insert "MPI").1.get entry.1)
          0 0) ++
        more ∧ ∀ d ∈ more, d.Plain ∧ ∀ id ∈ d.stringRefs, id < (defStrings w).entries.length := by
  unfold writeDefFiles at wrote
  obtain ⟨_, _, got, wrote⟩ := run_bind_ok wrote
  cases got
  obtain ⟨_, _, clock, wrote⟩ := run_bind_ok wrote
  cases clock
  obtain ⟨_, _, inserted, wrote⟩ := run_bind_ok wrote
  obtain ⟨rfl, rfl⟩ := EStateM.Result.ok.inj ((run_stringsInsert _ _).symm.trans inserted)
  obtain ⟨_, _, inserted, wrote⟩ := run_bind_ok wrote
  obtain ⟨rfl, rfl⟩ := EStateM.Result.ok.inj ((run_stringsInsert _ _).symm.trans inserted)
  obtain ⟨_, _, inserted, wrote⟩ := run_bind_ok wrote
  obtain ⟨rfl, rfl⟩ := EStateM.Result.ok.inj ((run_stringsInsert _ _).symm.trans inserted)
  obtain ⟨_, _, inserted, wrote⟩ := run_bind_ok wrote
  obtain ⟨rfl, rfl⟩ := EStateM.Result.ok.inj ((run_stringsInsert _ _).symm.trans inserted)
  obtain ⟨_, _, inserted, wrote⟩ := run_bind_ok wrote
  obtain ⟨rfl, rfl⟩ := EStateM.Result.ok.inj ((run_stringsInsert _ _).symm.trans inserted)
  obtain ⟨_, _, ranks, wrote⟩ := run_bind_ok wrote
  cases forM_inserts (fun rank => ["MPI Rank " ++ toString rank, "Master Thread " ++ toString rank])
    ranks fun _ _ => rfl
  obtain ⟨_, _, names, wrote⟩ := run_bind_ok wrote
  cases forM_inserts (fun name => [name]) names fun _ _ => rfl
  obtain ⟨_, _, got, wrote⟩ := run_bind_ok wrote
  cases got
  obtain ⟨_, _, strings, wrote⟩ := run_bind_ok wrote
  cases forM_writes (fun (_ : Interner) (entry : String × Nat) => GlobalDef.string entry.2 entry.1)
    strings fun ⟨_, _⟩ _ => rfl
  obtain ⟨_, _, paradigm, wrote⟩ := run_bind_ok wrote
  obtain ⟨rfl, rfl⟩ := EStateM.Result.ok.inj ((run_stringsInsert _ _).symm.trans paradigm)
  obtain ⟨_, _, paradigm, wrote⟩ := run_bind_ok wrote
  cases paradigm
  obtain ⟨_, _, regions, wrote⟩ := run_bind_ok wrote
  cases forM_writes (fun (table : Interner) (entry : String × Nat) =>
    GlobalDef.region entry.2 (table.get entry.1) (table.get entry.1) 0 0) regions fun ⟨_, _⟩ _ => rfl
  clear * - wrote
  have mpi := @fixed_mem_defStrings w "MPI" (by simp)
  have nonempty := List.length_pos_of_mem (@fixed_mem_defStrings w "" (by simp))
  -- The system tree, the locations and the group intern only names the table holds.
  have tail := fun (guaranteed : Guarantees (KeepsStrings (defStrings w)) _) => guaranteed.of_ok wrote
  obtain ⟨kept, more, appended, named⟩ := tail (by
    with_reducible repeat' first
      | apply keepsStrings_intern_bind
      | apply Guarantees.bind KeepsStrings.trans
      | intro _
      | apply keepsStrings_writeDef
      | with_unfolding_all exact trivial
      | apply Guarantees.forCount_lt KeepsStrings.refl KeepsStrings.trans
      | apply Guarantees.readAt KeepsStrings.refl
      | apply Guarantees.newArray KeepsStrings.refl
      | (refine fixed_mem_defStrings w ?_; simp; done)
      | (refine rankName_mem_defStrings ‹_› ?_; simp)
      | (rename_i mem; with_unfolding_all simp only [GlobalDef.stringRefs, List.mem_cons,
          List.mem_singleton, List.not_mem_nil, or_false, or_self] at mem; subst mem
         assumption))
    (by
      simp only [defStrings, Interner.insertAll_cons, Interner.insertAll_nil,
        List.flatMap_singleton'] at mpi ⊢
      rw [Interner.insert_of_mem mpi])
  refine ⟨kept, more, ?_, named⟩
  rw [appended]
  simp only [defStrings, Interner.insertAll_cons, Interner.insertAll_nil, List.flatMap_singleton']

theorem Interner.string_of_lt (table : Interner) {id : Nat} (below : id < table.entries.length) :
    ∃ text, GlobalDef.string id text ∈ table.pairs.map fun entry => .string entry.2 entry.1 := by
  refine ⟨table.entries[id], List.mem_map.mpr ⟨(table.entries[id], id), ?_, rfl⟩⟩
  exact List.mem_iff_getElem.mpr ⟨id, by simpa [Interner.pairs] using below, by simp [Interner.pairs]⟩

/-- `write_def_files` interns nothing after its STRING loop: the STRING definitions are written
from the string table it ends with, and every string id a later definition names (the
paradigm, each region, the system tree node, each location group and location, the group)
has a STRING definition in that block. -/
theorem writeDefFiles_names_written_strings {eventCounts : List CInt} {w w' : OTF2Writer}
    (wrote : writeDefFiles eventCounts w = .ok () w') :
    let strings := w'.otf2StringsTable.pairs.map fun entry => GlobalDef.string entry.2 entry.1
    ∃ later, w'.globalDefs = w.globalDefs ++
        [.clockProperties w.clockResolution w.startTime (w.stopTime - w.startTime)] ++ strings ++
        later ∧
      ∀ d ∈ later, ∀ id ∈ d.stringRefs, ∃ text, GlobalDef.string id text ∈ strings := by
  obtain ⟨kept, more, appended, named⟩ := writeDefFiles_appends wrote
  have mpi := @fixed_mem_defStrings w "MPI" (by simp)
  have nonempty := List.length_pos_of_mem (@fixed_mem_defStrings w "" (by simp))
  rw [Interner.insert_of_mem mpi] at appended
  dsimp only at appended ⊢
  rw [kept]
  refine ⟨.paradigm ((defStrings w).get "MPI") :: w.otf2RegionsTable.pairs.map (fun entry =>
      .region entry.2 ((defStrings w).get entry.1) ((defStrings w).get entry.1) 0 0) ++ more,
    by rw [appended]; simp only [List.append_assoc, List.singleton_append, List.cons_append,
      List.nil_append], ?_⟩
  intro d mem id ref
  refine (defStrings w).string_of_lt ?_
  simp only [List.mem_cons, List.mem_append, List.mem_map] at mem
  rcases mem with (rfl | ⟨⟨name, _⟩, pair, rfl⟩) | mem
  · simp only [GlobalDef.stringRefs, List.mem_singleton] at ref
    exact ref ▸ List.indexOf_lt_length.mpr mpi
  · have present := region_mem_defStrings (List.of_mem_zip pair).1
    simp only [GlobalDef.stringRefs, List.mem_cons, List.mem_singleton, List.not_mem_nil,
      or_false] at ref
    rcases ref with rfl | rfl | rfl | rfl
    all_goals first | exact List.indexOf_lt_length.mpr present | exact nonempty
  · exact (named d mem).2 id ref

/-- One rank that made an `MPI_Group_union` call: its REGION definition names the string of
`MPI_Group_union`, written in the STRING block. -/
theorem writeDefFiles_names_written_strings_on_one_rank :
    let start := OTF2Writer.new ⟨0, 1, 1, 2, 0, -1⟩ ⟨1, 0⟩ 0
    let w := (run start [.mpiGroupUnion 1 2 0 0 0]).getD start
    w.otf2RegionsTable.entries = ["MPI_Group_union"] ∧
    ∃ w', writeDefFiles [2] w = .ok () w' ∧
      let strings := w'.otf2StringsTable.pairs.map fun entry => GlobalDef.string entry.2 entry.1
      ∃ later, w'.globalDefs = w.globalDefs ++
          [.clockProperties w.clockResolution w.startTime (w.stopTime - w.startTime)] ++ strings ++
          later ∧
        ∀ d ∈ later, ∀ id ∈ d.stringRefs, ∃ text, GlobalDef.string id text ∈ strings := by
  intro start w
  obtain ⟨w', wrote⟩ := @writeDefFiles_returns [2] w (by decide) (by decide)
  exact ⟨rfl, w', wrote, writeDefFiles_names_written_strings wrote⟩

theorem writeDefFiles_names_regions {eventCounts : List CInt} {w w' : OTF2Writer}
    (wrote : writeDefFiles eventCounts w = .ok () w') {region : Nat} {name : String}
    (found : w.otf2RegionsTable.entries[region]? = some name) :
    regionNames (w'.globalDefs.drop w.globalDefs.length) region = [name] := by
  obtain ⟨-, more, appended, named⟩ := writeDefFiles_appends wrote
  have plain d (mem : d ∈ more) : d.Plain := (named d mem).1
  have found' := (defStrings w).get_of_mem (region_mem_defStrings (List.getElem?_mem found))
  rw [Interner.insert_of_mem (fixed_mem_defStrings w (by simp))] at appended
  simp only [appended, List.append_assoc, List.drop_left, regionNames, regionNameIds_append,
    stringTexts_append, regionNameIds_strings, regionNameIds_regions _ _ found,
    stringTexts_strings _ found', stringTexts_regions, regionNameIds_plain plain,
    stringTexts_plain plain, regionNameIds_singleton, stringTexts_singleton, GlobalDef.Plain,
    List.nil_append, List.append_nil, List.flatMap_singleton]

/-!
## Across ranks
-/

theorem run_regions_grow {w w' : OTF2Writer} {calls : List Call} (ran : run w calls = some w') :
    w.otf2RegionsTable.entries <+: w'.otf2RegionsTable.entries :=
  run_guarantees (fun _ => List.prefix_refl _) (fun _ _ _ first second => first.trans second)
    (fun call w w' after => (callMethod_names_regions call w w' after).grows) ran

/-- The definitions `write_def_files` writes on a writer `W` name every region id that the
records of a call of some rank carry by the name the call passed to `_ENTER`, as soon as the
region table that rank ends its run with is a prefix of `W`'s. -/
theorem region_records_named_by_definitions {call : Call} {u u' v W W' : OTF2Writer}
    {after : List Call} {eventCounts : List CInt}
    (stepped : call.step u = some u') (ran : run u' after = some v)
    (agrees : v.otf2RegionsTable.entries <+: W.otf2RegionsTable.entries)
    (wrote : writeDefFiles eventCounts W = .ok () W') :
    ∀ event ∈ u'.evtWriter.drop u.evtWriter.length, ∀ region, event.region = some region →
      ∃ name ∈ call.enterName,
        regionNames (W'.globalDefs.drop W.globalDefs.length) region = [name] := by
  obtain ⟨-, more, appended, named⟩ := callMethod_names_regions call u u' stepped
  intro event mem region carried
  rw [appended, List.drop_left] at mem
  obtain ⟨name, given, found⟩ := named event mem region carried
  exact ⟨name, given,
    writeDefFiles_names_regions wrote (prefix_getElem?_eq_some ((run_regions_grow ran).trans agrees) found)⟩

/-- Rank 1 makes an `MPI_Group_union` call; rank 0, which finalizes, made it and then an
`MPI_Group_difference` call, so rank 1's table is a proper prefix of rank 0's, and the
definitions rank 0 writes name rank 1's region `MPI_Group_union`. -/
theorem region_records_named_by_definitions_on_group_union :
    let rank₁ := OTF2Writer.new ⟨0, 1, 1, 2, 0, -1⟩ ⟨2, 1⟩ 0
    let rank₀ := OTF2Writer.new ⟨0, 1, 1, 2, 0, -1⟩ ⟨2, 0⟩ 0
    ∃ u' W W', (Call.mpiGroupUnion 1 2 0 0 0).step rank₁ = some u' ∧ run u' [] = some u' ∧
      run rank₀ [.mpiGroupUnion 1 2 0 0 0, .mpiGroupDifference 3 4 0 0 0] = some W ∧
      u'.otf2RegionsTable.entries <+: W.otf2RegionsTable.entries ∧
      u'.otf2RegionsTable.entries.length < W.otf2RegionsTable.entries.length ∧
      writeDefFiles [2, 2] W = .ok () W' ∧
      ∀ event ∈ u'.evtWriter.drop rank₁.evtWriter.length, ∀ region, event.region = some region →
        ∃ name ∈ (Call.mpiGroupUnion 1 2 0 0 0).enterName,
          regionNames (W'.globalDefs.drop W.globalDefs.length) region = [name] := by
  intro rank₁ rank₀
  let u' := ((Call.mpiGroupUnion 1 2 0 0 0).step rank₁).getD rank₁
  let W := (run rank₀ [.mpiGroupUnion 1 2 0 0 0, .mpiGroupDifference 3 4 0 0 0]).getD rank₀
  have stepped : (Call.mpiGroupUnion 1 2 0 0 0).step rank₁ = some u' := rfl
  have agrees : u'.otf2RegionsTable.entries <+: W.otf2RegionsTable.entries :=
    ⟨["MPI_Group_difference"], rfl⟩
  obtain ⟨W', wrote⟩ := @writeDefFiles_returns [2, 2] W (by decide) (by decide)
  exact ⟨u', W, W', stepped, rfl, rfl, agrees, by decide, wrote,
    region_records_named_by_definitions stepped (run_nil u') agrees wrote⟩

/-- Region ids are handed out first-seen per writer: two ranks that meet two calls in the two
orders give them swapped ids, and the definitions written on the first rank name the second
rank's `MPI_Group_difference` region `MPI_Group_union`. -/
theorem region_ids_differ_across_ranks :
    ∃ a b a', run (OTF2Writer.new ⟨0, 1, 1, 2, 0, -1⟩ ⟨2, 0⟩ 0)
        [.mpiGroupUnion 1 2 0 0 0, .mpiGroupDifference 3 4 0 0 0] = some a ∧
      run (OTF2Writer.new ⟨0, 1, 1, 2, 0, -1⟩ ⟨2, 1⟩ 0)
        [.mpiGroupDifference 1 2 0 0 0, .mpiGroupUnion 3 4 0 0 0] = some b ∧
      b.evtWriter = [.enter 1 0, .leave 2 0, .enter 3 1, .leave 4 1] ∧
      (Call.mpiGroupDifference 1 2 0 0 0).enterName = some "MPI_Group_difference" ∧
      writeDefFiles [4, 4] a = .ok () a' ∧
      regionNames (a'.globalDefs.drop a.globalDefs.length) 0 = ["MPI_Group_union"] := by
  let start := OTF2Writer.new ⟨0, 1, 1, 2, 0, -1⟩ ⟨2, 0⟩ 0
  let a := (run start [.mpiGroupUnion 1 2 0 0 0, .mpiGroupDifference 3 4 0 0 0]).getD start
  obtain ⟨a', wrote⟩ := @writeDefFiles_returns [4, 4] a (by decide) (by decide)
  exact ⟨a, _, a', rfl, rfl, rfl, rfl, wrote,
    writeDefFiles_names_regions wrote (rfl : a.otf2RegionsTable.entries[0]? = some "MPI_Group_union")⟩

end Otf2Dump
