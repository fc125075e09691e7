import Mathlib.Logic.Relation
import Otf2Dump.Agreement.Forest

/-!
# Termination of the agreement passes

On a ranked forest twice the rank bound plus two is enough fuel for both passes; a cycle makes
the agree pass run out of fuel however much it is given.
-/

set_option autoImplicit false

namespace Otf2Dump

theorem foldlM_isSome {α β : Type} (step : β → α → Option β) :
    ∀ {items : List α} {init : β}, (∀ item ∈ items, ∀ acc, (step acc item).isSome) →
      (items.foldlM step init).isSome
  | [], _, _ => rfl
  | item :: items, init, each => by
    obtain ⟨acc, stepped⟩ := Option.isSome_iff_exists.mp (each item (List.mem_cons_self _ _) init)
    rw [List.foldlM_cons, stepped]
    exact foldlM_isSome step fun other mem => each other (List.mem_cons_of_mem _ mem)

theorem foldlM_eq_none {α β : Type} (step : β → α → Option β) {stuck : α}
    (never : ∀ acc, step acc stuck = none) :
    ∀ {items : List α} {init : β}, stuck ∈ items → items.foldlM step init = none
  | item :: items, init, mem => by
    rw [List.foldlM_cons]
    rcases List.mem_cons.mp mem with rfl | later
    · rw [never]; rfl
    · cases step init item with
      | none => rfl
      | some acc => exact foldlM_eq_none step never later

/-!
## The agree pass
-/

section Agree

variable {comms : CommT → OTF2MpiComm} {bound : Nat} (ranking : Ranking comms bound)

/-- The agree pass returns from a communicator with `2 * (bound - rank) + 1` fuel, and from a
list with two more than each member needs. -/
theorem agree_isSome_of_ranking : ∀ fuel,
    (∀ comm assigner, 2 * (bound - ranking.rank comm) + 1 ≤ fuel →
      (agreeGlobalIdsComm comms fuel comm assigner).isSome) ∧
    (∀ subs assigner, 0 < fuel → (∀ sub ∈ subs, 2 * (bound - ranking.rank sub) + 2 ≤ fuel) →
      (agreeGlobalIdsList comms fuel subs assigner).isSome)
  | 0 => ⟨fun _ _ enough => absurd enough (by omega), fun _ _ positive => absurd positive (by omega)⟩
  | fuel + 1 => by
    have shorter := agree_isSome_of_ranking fuel
    refine ⟨fun comm assigner enough => ?_, fun subs assigner _ enough => ?_⟩
    · rw [agreeGlobalIdsComm]
      split
      · rfl
      · rename_i nonempty
        obtain ⟨sub, mem⟩ := List.exists_mem_of_ne_nil _ (by simpa using nonempty)
        have deeper := ranking.increasing comm sub mem
        have := ranking.bounded sub
        refine shorter.2 _ _ (by omega) fun other otherMem => ?_
        have := ranking.increasing comm other otherMem
        have := ranking.bounded other
        omega
    · rw [agreeGlobalIdsList]
      obtain ⟨acc, folded⟩ := Option.isSome_iff_exists.mp <|
        foldlM_isSome (fun assigner sub => agreeGlobalIdsComm comms fuel sub assigner.advanceSubComm)
          fun sub mem _ => shorter.1 sub _ (by have := enough sub mem; omega)
      rw [folded]
      rfl

end Agree

theorem OTF2Writer.agreeGlobalIds_isSome {w : OTF2Writer} {bound : Nat}
    (ranking : Ranking w.comms bound) (assigner : GlobalIdAssigner) :
    (w.agreeGlobalIds (2 * bound + 2) assigner).isSome :=
  (agree_isSome_of_ranking ranking _).2 _ _ (by omega) fun _ _ => by omega

section Cycle

variable {comms : CommT → OTF2MpiComm}

theorem SubCommPath.next_on_cycle {c : CommT} (cycle : SubCommPath comms c c) :
    ∃ d ∈ (comms c).subComms, SubCommPath comms d d := by
  obtain ⟨d, edge, back⟩ := Relation.TransGen.head'_iff.mp cycle
  exact ⟨d, edge, Relation.TransGen.tail' back edge⟩

/-- From a communicator on a cycle the agree pass runs out of fuel, whatever its fuel. -/
theorem agree_none_on_cycle : ∀ fuel,
    (∀ comm assigner, SubCommPath comms comm comm →
      agreeGlobalIdsComm comms fuel comm assigner = none) ∧
    (∀ subs assigner, (∃ comm ∈ subs, SubCommPath comms comm comm) →
      agreeGlobalIdsList comms fuel subs assigner = none)
  | 0 => ⟨fun _ _ _ => rfl, fun _ _ _ => rfl⟩
  | fuel + 1 => by
    have shorter := agree_none_on_cycle fuel
    refine ⟨fun comm assigner cycle => ?_, fun subs assigner ⟨comm, mem, cycle⟩ => ?_⟩
    · obtain ⟨next, edge, onCycle⟩ := cycle.next_on_cycle
      have nonempty : (comms comm).subComms.isEmpty = false :=
        List.isEmpty_eq_false_iff_exists_mem.mpr ⟨next, edge⟩
      rw [agreeGlobalIdsComm, nonempty]
      exact shorter.2 _ _ ⟨next, edge, onCycle⟩
    · rw [agreeGlobalIdsList, foldlM_eq_none
        (fun assigner sub => agreeGlobalIdsComm comms fuel sub assigner.advanceSubComm)
        (fun _ => shorter.1 comm _ cycle) mem]
      rfl

end Cycle

/-!
## The assign pass
-/

namespace AssignM

theorem run_bind {α β : Type} (x : AssignM α) (f : α → AssignM β) (st : CommT → OTF2MpiComm) :
    (x >>= f) st = match x st with
      | some (.ok (a, st')) => f a st'
      | some (.error e) => some (.error e)
      | none => none := by
  show Option.bind _ _ = _
  rcases x st with _ | _ | ⟨a, st'⟩ <;> rfl

/-- The communicator records `records` have the `sub_comms` of `comms`. -/
def SameEdges (comms records : CommT → OTF2MpiComm) : Prop :=
  ∀ c, (records c).subComms = (comms c).subComms

/-- A step of the assign pass that returns, from records with the edges of `comms`, and
leaves records with those edges. -/
def Finishes {α : Type} (comms : CommT → OTF2MpiComm) (m : AssignM α) : Prop :=
  ∀ records, SameEdges comms records → ∃ result, m records = some result ∧
    ∀ value records', result = .ok (value, records') → SameEdges comms records'

section Finishes

variable {comms : CommT → OTF2MpiComm}

theorem Finishes.pure {α : Type} (value : α) : Finishes comms (pure value : AssignM α) :=
  fun records same => ⟨_, rfl, by rintro _ _ ⟨⟩; exact same⟩

theorem Finishes.throw {α : Type} (fault : Fault) : Finishes comms (throw fault : AssignM α) :=
  fun _ _ => ⟨_, rfl, by rintro _ _ ⟨⟩⟩

theorem Finishes.bind {α β : Type} {x : AssignM α} {f : α → AssignM β} (first : Finishes comms x)
    (rest : ∀ value, Finishes comms (f value)) : Finishes comms (x >>= f) := by
  intro records same
  obtain ⟨result, ran, keeps⟩ := first records same
  rw [run_bind, ran]
  rcases result with fault | ⟨value, records'⟩
  · exact ⟨_, rfl, by rintro _ _ ⟨⟩⟩
  · exact rest value records' (keeps value records' rfl)

theorem Finishes.get_bind {β : Type} {f : (CommT → OTF2MpiComm) → AssignM β}
    (rest : ∀ records, SameEdges comms records → Finishes comms (f records)) :
    Finishes comms (get >>= f) :=
  fun records same => rest records same records same

theorem Finishes.setGlobalId (comm : CommT) (id : Int) :
    Finishes comms (modify fun records =>
      Function.update records comm { records comm with globalId := id } : AssignM Unit) := by
  intro records same
  refine ⟨_, rfl, ?_⟩
  rintro _ _ ⟨⟩ c
  rw [subComms_update]
  split
  · subst c; exact same _
  · exact same c

theorem Finishes.foldlM {α β : Type} {step : β → α → AssignM β} :
    ∀ {items : List α} {init : β}, (∀ item ∈ items, ∀ acc, Finishes comms (step acc item)) →
      Finishes comms (items.foldlM step init)
  | [], _, _ => Finishes.pure _
  | item :: items, init, each => by
    rw [List.foldlM_cons]
    exact Finishes.bind (each item (List.mem_cons_self _ _) init) fun acc =>
      Finishes.foldlM fun other mem => each other (List.mem_cons_of_mem _ mem)

end Finishes

end AssignM

section Assign

open AssignM

variable {comms : CommT → OTF2MpiComm} {bound : Nat} (ranking : Ranking comms bound)
  (globalIds : GlobalIdAssigner)

/-- The assign pass returns with the fuel the agree pass needs, while it rewrites
`global_id`s: it reads the edges of the records as it goes, and those stay the edges of
`comms`. -/
theorem assign_finishes_of_ranking : ∀ fuel,
    (∀ comm localIds, 2 * (bound - ranking.rank comm) + 1 ≤ fuel →
      Finishes comms (assignGlobalIdsComm globalIds fuel comm localIds)) ∧
    (∀ subs localIds, 0 < fuel → (∀ sub ∈ subs, 2 * (bound - ranking.rank sub) + 2 ≤ fuel) →
      Finishes comms (assignGlobalIdsList globalIds fuel subs localIds))
  | 0 => ⟨fun _ _ enough => absurd enough (by omega), fun _ _ positive => absurd positive (by omega)⟩
  | fuel + 1 => by
    have shorter := assign_finishes_of_ranking fuel
    refine ⟨fun comm localIds enough => ?_, fun subs localIds _ enough => ?_⟩
    · rw [assignGlobalIdsComm]
      split
      · refine Finishes.bind (Finishes.setGlobalId _ _) fun _ => Finishes.get_bind fun records same => ?_
        dsimp only
        rw [same comm]
        split
        · exact Finishes.pure _
        · rename_i nonempty
          obtain ⟨sub, mem⟩ := List.exists_mem_of_ne_nil _ (by simpa using nonempty)
          have deeper := ranking.increasing comm sub mem
          have := ranking.bounded sub
          refine shorter.2 _ _ (by omega) fun other otherMem => ?_
          have := ranking.increasing comm other otherMem
          have := ranking.bounded other
          omega
      · exact Finishes.throw _
    · rw [assignGlobalIdsList]
      exact Finishes.bind (Finishes.foldlM fun sub mem _ =>
        shorter.1 sub _ (by have := enough sub mem; omega)) fun _ => Finishes.pure _

end Assign

theorem OTF2Writer.assignGlobalIds_isSome {w : OTF2Writer} {bound : Nat}
    (ranking : Ranking w.comms bound) (globalIds : GlobalIdAssigner) :
    (w.assignGlobalIds (2 * bound + 2) globalIds).isSome := by
  obtain ⟨result, ran, -⟩ := (assign_finishes_of_ranking ranking globalIds (2 * bound + 2)).2
    (w.comms w.header.mpiCommWorldId).subComms {} (by omega) (fun _ _ => by omega) w.comms fun _ => rfl
  simp [OTF2Writer.assignGlobalIds, StateT.run, ExceptT.run, ran]

/-!
## Runs of constructions
-/

end Otf2Dump
