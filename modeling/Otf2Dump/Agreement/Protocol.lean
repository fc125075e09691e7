import Otf2Dump.Agreement.Termination

/-!
# Root flags and the agreement protocol

The agree pass asks for an id only at nodes flagged `is_root`, and no rank is root of a
duplicate of `MPI_COMM_WORLD`.
-/

set_option autoImplicit false

namespace Otf2Dump

/-- Modelled from the spec (§4.3): the agree pass of every rank, in the given order, against
one shared assigner. -/
def agreeAcross (ranks : List OTF2Writer) (fuel : Nat) (assigner : GlobalIdAssigner) :
    Option GlobalIdAssigner :=
  ranks.foldlM (fun assigner w => w.agreeGlobalIds fuel assigner) assigner

/-- No record of `comms` is flagged `is_root`. -/
def NoRoot (comms : CommT → OTF2MpiComm) : Prop := ∀ c, (comms c).isRoot = false

/-!
## Root flags in the first pass
-/

theorem isRoot_update (comms : CommT → OTF2MpiComm) (a : CommT) (v : OTF2MpiComm) (c : CommT) :
    (Function.update comms a v c).isRoot = if c = a then v.isRoot else (comms c).isRoot := by
  rw [Function.update_apply]
  split <;> rfl

theorem openArchive_comms {path : String} {size rank : CInt} {w w' : OTF2Writer}
    (stepped : (Call.openArchive path size rank).step w = some w') : w'.comms = w.comms := by
  dsimp only [Call.step, callMethod] at stepped
  simp only [afterCall_discard, openArchive, run_bind, run_get] at stepped
  split at stepped <;> simp only [run_pure, run_modify, run_bind] at stepped <;> cases stepped <;> rfl

theorem registerCommWorld_isRoot {id : CommT} {w w' : OTF2Writer}
    (stepped : (Call.registerCommWorld id).step w = some w') (c : CommT) :
    (w'.comms c).isRoot = (w.comms c).isRoot := by
  dsimp only [Call.step, callMethod] at stepped
  simp only [registerCommWorld, modifyGroup, modifyComm, run_bind,
    run_get, run_modify] at stepped
  cases stepped
  rw [isRoot_update]
  split <;> simp_all

theorem mpiCommDupFirstPass_isRoot {comm newcomm : CommT} {w w' : OTF2Writer}
    (stepped : (Call.mpiCommDupFirstPass comm newcomm).step w = some w') (c : CommT) :
    (w'.comms c).isRoot = if c = newcomm then (w.comms comm).isRoot else (w.comms c).isRoot := by
  dsimp only [Call.step, callMethod] at stepped
  simp only [afterCall_discard, mpiCommDupFirstPass, modifyComm, run_bind,
    run_modify, run_get, run_pure] at stepped
  cases stepped
  simp only [isRoot_update]
  split_ifs <;> simp_all

/-- The calls of a first pass that opens the archive, registers `MPI_COMM_WORLD` and
duplicates communicators. -/
def Call.duplicatesOnly : Call → Bool
  | .openArchive .. | .registerCommWorld _ | .mpiCommDupFirstPass .. => true
  | _ => false

theorem Call.step_noRoot {call : Call} (duplicates : call.duplicatesOnly) {w w' : OTF2Writer}
    (stepped : call.step w = some w') (noRoot : NoRoot w.comms) : NoRoot w'.comms := by
  intro c
  cases call <;> simp only [Call.duplicatesOnly, Bool.false_eq_true] at duplicates
  case openArchive => rw [openArchive_comms stepped, noRoot]
  case registerCommWorld => rw [registerCommWorld_isRoot stepped, noRoot]
  case mpiCommDupFirstPass => rw [mpiCommDupFirstPass_isRoot stepped]; split <;> apply noRoot

theorem run_noRoot {calls : List Call} (duplicates : ∀ call ∈ calls, call.duplicatesOnly) :
    ∀ {w w' : OTF2Writer}, run w calls = some w' → NoRoot w.comms → NoRoot w'.comms := by
  induction calls with
  | nil => rintro w w' ⟨⟩; exact id
  | cons call calls more =>
    intro w w' ran noRoot
    obtain ⟨w1, stepped, rest⟩ := Option.bind_eq_some.mp ran
    exact more (fun other mem => duplicates other (List.mem_cons_of_mem _ mem)) rest
      (Call.step_noRoot (duplicates call (List.mem_cons_self _ _)) stepped noRoot)

/-!
## The agree pass without roots
-/

theorem foldlM_some_preserves {α β : Type} {step : β → α → Option β} (keeps : β → Prop) :
    ∀ {items : List α}, (∀ item ∈ items, ∀ acc next, keeps acc → step acc item = some next →
      keeps next) → ∀ {init result : β}, keeps init → items.foldlM step init = some result →
      keeps result
  | [], _, _, _, kept, folded => by cases folded; exact kept
  | item :: items, each, init, _, kept, folded => by
    rw [List.foldlM_cons] at folded
    obtain ⟨next, stepped, rest⟩ := Option.bind_eq_some.mp folded
    exact foldlM_some_preserves keeps (fun other mem => each other (List.mem_cons_of_mem _ mem))
      (each item (List.mem_cons_self _ _) init next kept stepped) rest

theorem agree_without_root {comms : CommT → OTF2MpiComm} (noRoot : NoRoot comms) : ∀ fuel,
    (∀ comm assigner result, agreeGlobalIdsComm comms fuel comm assigner = some result →
      result.ids = assigner.ids ∧ result.nextId = assigner.nextId) ∧
    (∀ subs assigner result, agreeGlobalIdsList comms fuel subs assigner = some result →
      result.ids = assigner.ids ∧ result.nextId = assigner.nextId)
  | 0 => ⟨fun _ _ _ stuck => Option.noConfusion stuck, fun _ _ _ stuck => Option.noConfusion stuck⟩
  | fuel + 1 => by
    have shorter := agree_without_root noRoot fuel
    refine ⟨fun comm assigner result agreed => ?_, fun subs assigner result agreed => ?_⟩
    · rw [agreeGlobalIdsComm, noRoot comm, if_neg Bool.false_ne_true] at agreed
      split at agreed
      · cases agreed; exact ⟨rfl, rfl⟩
      · exact shorter.2 _ _ _ agreed
    · rw [agreeGlobalIdsList] at agreed
      obtain ⟨folded, walked, done⟩ := Option.bind_eq_some.mp agreed
      cases done
      refine foldlM_some_preserves (fun acc => acc.ids = assigner.ids ∧ acc.nextId = assigner.nextId)
        ?_ ⟨rfl, rfl⟩ walked
      rintro sub - acc next ⟨ids, nextId⟩ stepped
      obtain ⟨ids', nextId'⟩ := shorter.1 _ _ _ stepped
      exact ⟨ids'.trans ids, nextId'.trans nextId⟩

theorem agreeAcross_without_root {ranks : List OTF2Writer} (noRoot : ∀ w ∈ ranks, NoRoot w.comms)
    {fuel : Nat} {assigner result : GlobalIdAssigner}
    (agreed : agreeAcross ranks fuel assigner = some result) :
    result.ids = assigner.ids ∧ result.nextId = assigner.nextId := by
  refine foldlM_some_preserves (fun acc => acc.ids = assigner.ids ∧ acc.nextId = assigner.nextId)
    ?_ ⟨rfl, rfl⟩ agreed
  rintro w member acc next ⟨ids, nextId⟩ stepped
  obtain ⟨ids', nextId'⟩ := (agree_without_root (noRoot w member) fuel).2 _ _ _ stepped
  exact ⟨ids'.trans ids, nextId'.trans nextId⟩

/-!
## The assign pass without ids
-/

/-- An assign-pass step that never returns normally. -/
def AssignM.NeverOk {α : Type} (m : AssignM α) : Prop :=
  ∀ records result, m records ≠ some (.ok result)

theorem AssignM.NeverOk.bind {α β : Type} {x : AssignM α} {f : α → AssignM β}
    (first : x.NeverOk) : (x >>= f).NeverOk := by
  intro records result
  rw [AssignM.run_bind]
  cases ran : x records with
  | none => simp
  | some outcome =>
    cases outcome with
    | error => intro stuck; cases stuck
    | ok pair => exact absurd ran (first records pair)

section NoIds

variable {globalIds : GlobalIdAssigner}

theorem assignComm_fails_without_ids (noIds : ∀ t, globalIds.getId t = none) :
    ∀ fuel comm localIds, (assignGlobalIdsComm globalIds fuel comm localIds).NeverOk
  | 0, _, _ => fun _ _ stuck => nomatch stuck
  | fuel + 1, comm, localIds => by
    intro records result stuck
    rw [assignGlobalIdsComm, noIds] at stuck
    cases stuck

theorem assignList_fails_without_ids (noIds : ∀ t, globalIds.getId t = none) :
    ∀ fuel sub subs localIds, (assignGlobalIdsList globalIds fuel (sub :: subs) localIds).NeverOk
  | 0, _, _, _ => fun _ _ stuck => nomatch stuck
  | fuel + 1, sub, _, _ => by
    rw [assignGlobalIdsList, List.foldlM_cons]
    exact (assignComm_fails_without_ids noIds fuel sub _).bind.bind

theorem OTF2Writer.assignGlobalIds_fails (noIds : ∀ t, globalIds.getId t = none) {w : OTF2Writer}
    (hasChild : (w.comms w.header.mpiCommWorldId).subComms ≠ []) (fuel : Nat) (result : OTF2Writer) :
    w.assignGlobalIds fuel globalIds ≠ some (.ok result) := by
  intro assigned
  obtain ⟨sub, subs, children⟩ := List.exists_cons_of_ne_nil hasChild
  simp only [OTF2Writer.assignGlobalIds, StateT.run, ExceptT.run, children] at assigned
  cases ran : assignGlobalIdsList globalIds fuel (sub :: subs) {} w.comms with
  | none => simp [ran] at assigned
  | some outcome =>
    cases outcome with
    | error => simp [ran, Except.map] at assigned
    | ok pair => exact assignList_fails_without_ids noIds fuel sub subs {} w.comms pair ran

end NoIds

/-!
## Duplicates of `MPI_COMM_WORLD`
-/

/-- For any number of ranks whose first pass only opens the archive, registers
`MPI_COMM_WORLD` and duplicates communicators, the agree pass of all ranks, in any order,
gives out no id, and the assign pass then fails on every rank that duplicated
`MPI_COMM_WORLD`. -/
theorem world_duplicates_get_no_global_id {ranks : List OTF2Writer} {fuel : Nat} {nextId : Int}
    {agreed : GlobalIdAssigner}
    (firstPasses : ∀ w ∈ ranks, ∃ start calls, NoRoot (OTF2Writer.comms start) ∧
      (∀ call ∈ calls, call.duplicatesOnly) ∧ run start calls = some w)
    (ran : agreeAcross ranks fuel { nextId := nextId } = some agreed) :
    agreed.nextId = nextId ∧ (∀ t, agreed.getId t = none) ∧
      ∀ w ∈ ranks, (w.comms w.header.mpiCommWorldId).subComms ≠ [] →
        ∀ fuel' result, w.assignGlobalIds fuel' agreed ≠ some (.ok result) := by
  have noRoot : ∀ w ∈ ranks, NoRoot w.comms := fun w member => by
    obtain ⟨start, calls, bare, duplicates, reached⟩ := firstPasses w member
    exact run_noRoot duplicates reached bare
  obtain ⟨ids, counted⟩ := agreeAcross_without_root noRoot ran
  have noIds : ∀ t, agreed.getId t = none := fun t => congrFun ids t
  exact ⟨counted, noIds, fun w _ hasChild => OTF2Writer.assignGlobalIds_fails noIds hasChild⟩

theorem world_duplicates_get_no_global_id_on_two_ranks :
    let firstPass (rank : CInt) : List Call :=
      [.openArchive "trace" 2 rank, .registerCommWorld 0, .mpiCommDupFirstPass 0 5]
    let start := OTF2Writer.new ⟨0, 1, 1, 2, 0, -1⟩ ⟨0, 0⟩ 0
    ∃ w0 w1 agreed, run start (firstPass 0) = some w0 ∧ run start (firstPass 1) = some w1 ∧
      agreeAcross [w0, w1] 2 { nextId := 0 } = some agreed ∧
      agreed.nextId = 0 ∧ (∀ t, agreed.getId t = none) ∧
      ∀ w ∈ [w0, w1], (w.comms w.header.mpiCommWorldId).subComms ≠ [] →
        ∀ fuel result, w.assignGlobalIds fuel agreed ≠ some (.ok result) := by
  intro firstPass start
  obtain ⟨w0, ran0, w1, ran1, agreed, ran⟩ : ∃ w0, run start (firstPass 0) = some w0 ∧
      ∃ w1, run start (firstPass 1) = some w1 ∧
        ∃ agreed, agreeAcross [w0, w1] 2 { nextId := 0 } = some agreed :=
    ⟨_, rfl, _, rfl, _, rfl⟩
  refine ⟨w0, w1, agreed, ran0, ran1, ran, world_duplicates_get_no_global_id ?_ ran⟩
  intro w member
  simp only [List.mem_cons, List.not_mem_nil, or_false] at member
  rcases member with rfl | rfl
  · exact ⟨start, firstPass 0, fun _ => rfl, by decide, ran0⟩
  · exact ⟨start, firstPass 1, fun _ => rfl, by decide, ran1⟩

/-- Two ranks duplicate `MPI_COMM_WORLD`: neither is flagged root of the duplicate, the agree
pass of both gives out no id, and the assign pass of each finds no id at the duplicate's
coordinate. -/
theorem world_dup_has_no_root :
    let firstPass (rank : CInt) : List Call :=
      [.openArchive "trace" 2 rank, .registerCommWorld 0, .mpiCommDupFirstPass 0 5]
    let start := OTF2Writer.new ⟨0, 1, 1, 2, 0, -1⟩ ⟨0, 0⟩ 0
    ∃ w0 w1 agreed, run start (firstPass 0) = some w0 ∧ run start (firstPass 1) = some w1 ∧
      (w0.comms 0).subComms = [5] ∧ (w1.comms 0).subComms = [5] ∧
      (w0.comms 5).isRoot = false ∧ (w1.comms 5).isRoot = false ∧
      agreeAcross [w0, w1] 2 { nextId := 0 } = some agreed ∧ agreed.nextId = 0 ∧
      w0.assignGlobalIds 2 agreed = some (.error (.undefined "no global id at this tree coordinate")) ∧
      w1.assignGlobalIds 2 agreed = some (.error (.undefined "no global id at this tree coordinate")) :=
  ⟨_, _, _, rfl, rfl, rfl, rfl, rfl, rfl, rfl, rfl, rfl, rfl⟩

end Otf2Dump
