import Otf2Dump.Agreement.Protocol
import Otf2Dump.Agreement.Traversal

/-!
# Global ids across ranks

Whatever the order of the ranks' agree passes, an assign pass returns exactly when every
coordinate it visits is rooted on some rank, and two nodes get one id exactly when they sit at
one tree coordinate.
-/

set_option autoImplicit false

namespace Otf2Dump

namespace GlobalIdAssigner

@[simp] theorem ids_assignAt (a : GlobalIdAssigner) (path t : TreeId) :
    (a.assignAt path).ids t = if t = path then some a.nextId else a.ids t :=
  Function.update_apply ..

@[simp] theorem nextId_assignAt (a : GlobalIdAssigner) (path : TreeId) :
    (a.assignAt path).nextId = a.nextId + 1 := rfl

/-- The assigner never stores one id under two tree coordinates, and every id it stored is
below its counter. -/
structure Distinct (a : GlobalIdAssigner) : Prop where
  injective : ∀ t t' id, a.ids t = some id → a.ids t' = some id → t = t'
  below : ∀ t id, a.ids t = some id → id < a.nextId

theorem distinct_fresh (start : Int) : Distinct { nextId := start } :=
  ⟨fun _ _ _ stored => Option.noConfusion stored, fun _ _ stored => Option.noConfusion stored⟩

theorem Distinct.assignAt {a : GlobalIdAssigner} (distinct : a.Distinct) (path : TreeId) :
    (a.assignAt path).Distinct where
  injective t t' id := by
    simp only [ids_assignAt]
    split_ifs with here here'
    · exact fun _ _ => here.trans here'.symm
    · rintro ⟨⟩ old; exact absurd (distinct.below t' _ old) (Int.lt_irrefl _)
    · rintro old ⟨⟩; exact absurd (distinct.below t _ old) (Int.lt_irrefl _)
    · exact distinct.injective t t' id
  below t id := by
    simp only [ids_assignAt, nextId_assignAt]
    split_ifs
    · rintro ⟨⟩; exact Int.lt_succ _
    · exact fun old => Int.lt_trans (distinct.below t id old) (Int.lt_succ _)

end GlobalIdAssigner

open GlobalIdAssigner

/-!
## The agree passes
-/

section Agree

variable (comms : CommT → OTF2MpiComm)

theorem GlobalIdAssigner.Distinct.afterVisit {a : GlobalIdAssigner} (distinct : a.Distinct)
    (visit : CommT × TreeId) : (agreeVisit comms a visit).Distinct := by
  unfold Otf2Dump.agreeVisit
  split
  · exact distinct.assignAt _
  · exact distinct

theorem GlobalIdAssigner.Distinct.afterWalk :
    ∀ (visits : List (CommT × TreeId)) {a : GlobalIdAssigner}, a.Distinct →
      (visits.foldl (agreeVisit comms) a).Distinct
  | [], _, distinct => distinct
  | visit :: visits, _, distinct => Distinct.afterWalk visits (distinct.afterVisit comms visit)

theorem isSome_ids_agreeVisit (a : GlobalIdAssigner) (visit : CommT × TreeId) (t : TreeId) :
    ((agreeVisit comms a visit).ids t).isSome ↔
      (a.ids t).isSome ∨ visit.2 = t ∧ (comms visit.1).isRoot := by
  unfold agreeVisit
  by_cases root : (comms visit.1).isRoot
  · rw [if_pos root, ids_assignAt]
    by_cases here : t = visit.2
    · simp [here, root]
    · simp [here, Ne.symm here]
  · simp [root]

theorem isSome_ids_foldl_agreeVisit (t : TreeId) :
    ∀ (visits : List (CommT × TreeId)) (a : GlobalIdAssigner),
      ((visits.foldl (agreeVisit comms) a).ids t).isSome ↔
        (a.ids t).isSome ∨ ∃ c, (c, t) ∈ visits ∧ (comms c).isRoot
  | [], a => by simp
  | visit :: visits, a => by
    rw [List.foldl_cons, isSome_ids_foldl_agreeVisit t visits, isSome_ids_agreeVisit]
    obtain ⟨c, path⟩ := visit
    simp only [List.mem_cons, Prod.mk.injEq]
    constructor
    · rintro ((before | ⟨rfl, root⟩) | ⟨c', later, root⟩)
      · exact .inl before
      · exact .inr ⟨c, .inl ⟨rfl, rfl⟩, root⟩
      · exact .inr ⟨c', .inr later, root⟩
    · rintro (before | ⟨c', ⟨rfl, rfl⟩ | later, root⟩)
      · exact .inl (.inl before)
      · exact .inl (.inr ⟨rfl, root⟩)
      · exact .inr ⟨c', later, root⟩

end Agree

theorem OTF2Writer.agreeGlobalIds_eq_foldl (w : OTF2Writer) (fuel : Nat) {a : GlobalIdAssigner}
    (atRoot : a.current = {}) :
    w.agreeGlobalIds fuel a = (w.visits fuel).map (·.foldl (agreeVisit w.comms) a) := by
  rw [OTF2Writer.agreeGlobalIds, (agree_follows_visits w.comms fuel).2, atRoot]
  rfl

theorem agreeAcross_cons (w : OTF2Writer) (ranks : List OTF2Writer) (fuel : Nat)
    {a : GlobalIdAssigner} (atRoot : a.current = {}) :
    agreeAcross (w :: ranks) fuel a =
      (w.visits fuel).bind fun visits => agreeAcross ranks fuel (visits.foldl (agreeVisit w.comms) a) := by
  rw [agreeAcross, List.foldlM_cons, w.agreeGlobalIds_eq_foldl fuel atRoot]
  cases w.visits fuel <;> rfl

theorem GlobalIdAssigner.Distinct.afterRanks {ranks : List OTF2Writer} {fuel : Nat} {a agreed : GlobalIdAssigner}
    (distinct : a.Distinct) (ran : agreeAcross ranks fuel a = some agreed) : agreed.Distinct := by
  refine foldlM_some_preserves Distinct ?_ distinct ran
  intro w _ acc next kept stepped
  rw [OTF2Writer.agreeGlobalIds, (agree_follows_visits w.comms fuel).2] at stepped
  obtain ⟨visits, -, rfl⟩ := Option.map_eq_some'.mp stepped
  exact kept.afterWalk w.comms visits

/-- A coordinate `t` at which some rank of `ranks` visits a node it is root of. -/
def RootedAt (ranks : List OTF2Writer) (fuel : Nat) (t : TreeId) : Prop :=
  ∃ w ∈ ranks, ∃ visits, w.visits fuel = some visits ∧ ∃ c, (c, t) ∈ visits ∧ (w.comms c).isRoot

/-- After the agree passes of `ranks` from the root coordinate, an id is stored at `t` exactly
when one was before or `t` is rooted on one of the ranks. -/
theorem isSome_ids_agreeAcross {fuel : Nat} (t : TreeId) :
    ∀ {ranks : List OTF2Writer} {a agreed : GlobalIdAssigner}, a.current = {} →
      agreeAcross ranks fuel a = some agreed →
        ((agreed.ids t).isSome ↔ (a.ids t).isSome ∨ RootedAt ranks fuel t)
  | [], _, _, _, ran => by cases ran; simp [RootedAt]
  | w :: ranks, a, agreed, atRoot, ran => by
    rw [agreeAcross_cons w ranks fuel atRoot] at ran
    obtain ⟨visits, walk, rest⟩ := Option.bind_eq_some.mp ran
    rw [isSome_ids_agreeAcross t ((foldl_agreeVisit_current w.comms visits a).trans atRoot) rest,
      isSome_ids_foldl_agreeVisit]
    constructor
    · rintro ((before | rooted) | ⟨r, member, more⟩)
      · exact .inl before
      · exact .inr ⟨w, List.mem_cons_self _ _, visits, walk, rooted⟩
      · exact .inr ⟨r, List.mem_cons_of_mem _ member, more⟩
    · rintro (before | ⟨r, member, rootVisits, rootWalk, rooted⟩)
      · exact .inl (.inl before)
      rcases List.mem_cons.mp member with rfl | member
      · rw [walk] at rootWalk
        cases rootWalk
        exact .inl (.inr rooted)
      · exact .inr ⟨r, member, rootVisits, rootWalk, rooted⟩

/-!
## The assign pass
-/

/-- The records after the assign pass has set the `global_id` of the node of `visit` to the id
stored at its coordinate. -/
def setGlobalId (globalIds : GlobalIdAssigner) (records : CommT → OTF2MpiComm)
    (visit : CommT × TreeId) : CommT → OTF2MpiComm :=
  match globalIds.getId visit.2 with
  | some id => Function.update records visit.1 { records visit.1 with globalId := id }
  | none => records

section Assign

variable (globalIds : GlobalIdAssigner)

theorem forM_assignVisit :
    ∀ (visits : List (CommT × TreeId)) (records : CommT → OTF2MpiComm),
      visits.forM (assignVisit globalIds) records =
        if visits.all fun visit => (globalIds.getId visit.2).isSome then
          some (.ok ((), visits.foldl (setGlobalId globalIds) records))
        else some (.error (.undefined "no global id at this tree coordinate"))
  | [], _ => rfl
  | visit :: visits, records => by
    rw [List.forM_cons', AssignM.run_bind, List.all_cons, List.foldl_cons]
    unfold assignVisit setGlobalId
    cases globalIds.getId visit.2 with
    | none => rfl
    | some id => exact forM_assignVisit visits _

theorem foldl_setGlobalId_of_not_mem {c : CommT} :
    ∀ {visits : List (CommT × TreeId)}, c ∉ visits.map Prod.fst →
      ∀ records, visits.foldl (setGlobalId globalIds) records c = records c
  | [], _, _ => rfl
  | visit :: visits, absent, records => by
    simp only [List.map_cons, List.mem_cons, not_or] at absent
    rw [List.foldl_cons, foldl_setGlobalId_of_not_mem absent.2]
    unfold setGlobalId
    cases globalIds.getId visit.2 with
    | none => rfl
    | some id => exact Function.update_noteq absent.1 _ _

theorem globalId_foldl_setGlobalId {c : CommT} {t : TreeId} {id : Int}
    (stored : globalIds.getId t = some id) :
    ∀ {visits : List (CommT × TreeId)}, (∀ t', (c, t') ∈ visits → t' = t) → (c, t) ∈ visits →
      ∀ records, (visits.foldl (setGlobalId globalIds) records c).globalId = id
  | visit :: visits, once, mem, records => by
    have rest : ∀ t', (c, t') ∈ visits → t' = t := fun t' later => once t' (.tail _ later)
    rw [List.foldl_cons]
    by_cases revisited : c ∈ visits.map Prod.fst
    · obtain ⟨⟨_, t'⟩, later, rfl⟩ := List.mem_map.mp revisited
      exact globalId_foldl_setGlobalId stored rest (rest t' later ▸ later) _
    · rcases List.mem_cons.mp mem with rfl | later
      · rw [foldl_setGlobalId_of_not_mem globalIds revisited]
        simp only [setGlobalId, stored, Function.update_same]
      · exact absurd (List.mem_map_of_mem Prod.fst later) revisited

end Assign

/-- Where the walk of a rank's forest exists, its assign pass is one flat loop along it: it
fails with the missing-id fault when some visited coordinate holds no id, and otherwise sets
the `global_id` of each visited node in walk order and changes nothing else. -/
theorem OTF2Writer.assignGlobalIds_eq_walk {w : OTF2Writer} {fuel : Nat}
    {visits : List (CommT × TreeId)} (walk : w.visits fuel = some visits)
    (globalIds : GlobalIdAssigner) :
    w.assignGlobalIds fuel globalIds =
      if visits.all fun visit => (globalIds.getId visit.2).isSome then
        some (.ok { w with comms := visits.foldl (setGlobalId globalIds) w.comms })
      else some (.error (.undefined "no global id at this tree coordinate")) := by
  have follows := (assign_follows_visits globalIds fuel).2 _ _ visits walk w.comms fun _ => rfl
  unfold OTF2Writer.assignGlobalIds
  rw [StateT.run, follows, AssignM.run_bind, forM_assignVisit]
  by_cases all : (visits.all fun visit => (globalIds.getId visit.2).isSome) = true
  · rw [if_pos all, if_pos all]; rfl
  · rw [if_neg all, if_neg all]; rfl

/-!
## Agreement and liveness
-/

/-- Whatever the ranks and their order, once the agree pass of every rank has run against one
fresh assigner, the assign pass of a rank returns exactly when every coordinate its walk
visits is one at which some rank visits a node it is root of. -/
theorem assign_returns_iff_rooted {ranks : List OTF2Writer} {fuel : Nat} {start : Int}
    {agreed : GlobalIdAssigner} (ran : agreeAcross ranks fuel { nextId := start } = some agreed)
    {w : OTF2Writer} {visits : List (CommT × TreeId)} (walk : w.visits fuel = some visits) :
    (∃ w', w.assignGlobalIds fuel agreed = some (.ok w')) ↔
      ∀ visit ∈ visits, RootedAt ranks fuel visit.2 := by
  have stored : ∀ t, (agreed.getId t).isSome ↔ RootedAt ranks fuel t := fun t => by
    simpa using isSome_ids_agreeAcross t rfl ran
  rw [w.assignGlobalIds_eq_walk walk]
  split
  · rename_i all
    simp only [List.all_eq_true] at all
    exact ⟨fun _ visit mem => (stored _).mp (all visit mem), fun _ => ⟨_, rfl⟩⟩
  · rename_i notAll
    simp only [List.all_eq_true, not_forall] at notAll
    obtain ⟨visit, mem, missing⟩ := notAll
    refine ⟨fun ⟨_, returned⟩ => Except.noConfusion (Option.some.inj returned),
      fun rooted => absurd ((stored _).mpr (rooted visit mem)) missing⟩

/-- Ranks 0 and 1 create a communicator, handle 5 on both, from the group `{0, 1}`: rank 0 is
its root, and the agree passes of both ranks let the assign pass of rank 1 return. -/
theorem assign_returns_iff_rooted_on_shared_create :
    let firstPass (rank : CInt) : Option OTF2Writer :=
      run { OTF2Writer.new ⟨0, 1, 1, 2, 0, -1⟩ ⟨0, 0⟩ 0 with
          groups := Function.update (fun _ => none) 7 (some { globalRanks := [0, 1] }) }
        [.openArchive "trace" 2 rank, .registerCommWorld 0, .mpiCommCreateFirstPass 0 7 5]
    ∃ w₀ w₁ agreed, firstPass 0 = some w₀ ∧ firstPass 1 = some w₁ ∧
      agreeAcross [w₀, w₁] 2 { nextId := 0 } = some agreed ∧ w₁.visits 2 = some [(5, ⟨[1]⟩)] ∧
      ((∃ w', w₁.assignGlobalIds 2 agreed = some (.ok w')) ↔
        ∀ visit ∈ [((5 : CommT), (⟨[1]⟩ : TreeId))], RootedAt [w₀, w₁] 2 visit.2) := by
  intro firstPass
  obtain ⟨w₀, ran₀, w₁, ran₁, walk₁, agreed, agreedRan⟩ :
      ∃ w₀, firstPass 0 = some w₀ ∧ ∃ w₁, firstPass 1 = some w₁ ∧
        w₁.visits 2 = some [(5, ⟨[1]⟩)] ∧
        ∃ agreed, agreeAcross [w₀, w₁] 2 { nextId := 0 } = some agreed :=
    ⟨_, rfl, _, rfl, rfl, _, rfl⟩
  exact ⟨w₀, w₁, agreed, ran₀, ran₁, agreedRan, walk₁, assign_returns_iff_rooted agreedRan walk₁⟩

/-- Whatever the ranks and their order, once the agree pass of every rank has run against one
fresh assigner, two nodes, each visited at one coordinate only by the walk of its rank (two
ranks or one) whose assign pass returns, get one `global_id` exactly when they sit at one tree
coordinate. -/
theorem global_ids_match_tree_coordinates {ranks : List OTF2Writer} {fuel : Nat} {start : Int}
    {agreed : GlobalIdAssigner} (ran : agreeAcross ranks fuel { nextId := start } = some agreed)
    {w₁ w₂ w₁' w₂' : OTF2Writer} {visits₁ visits₂ : List (CommT × TreeId)}
    (walk₁ : w₁.visits fuel = some visits₁) (walk₂ : w₂.visits fuel = some visits₂)
    (assigned₁ : w₁.assignGlobalIds fuel agreed = some (.ok w₁'))
    (assigned₂ : w₂.assignGlobalIds fuel agreed = some (.ok w₂'))
    {c₁ c₂ : CommT} {t₁ t₂ : TreeId} (at₁ : (c₁, t₁) ∈ visits₁) (at₂ : (c₂, t₂) ∈ visits₂)
    (once₁ : ∀ t, (c₁, t) ∈ visits₁ → t = t₁) (once₂ : ∀ t, (c₂, t) ∈ visits₂ → t = t₂) :
    (w₁'.comms c₁).globalId = (w₂'.comms c₂).globalId ↔ t₁ = t₂ := by
  have distinct := (distinct_fresh start).afterRanks ran
  have read : ∀ {w w' : OTF2Writer} {visits : List (CommT × TreeId)} {c : CommT} {t : TreeId},
      w.visits fuel = some visits → (∀ t', (c, t') ∈ visits → t' = t) →
      w.assignGlobalIds fuel agreed = some (.ok w') → (c, t) ∈ visits →
      ∃ id, agreed.ids t = some id ∧ (w'.comms c).globalId = id := by
    intro w w' visits c t walk once assigned mem
    rw [w.assignGlobalIds_eq_walk walk] at assigned
    split at assigned
    · rename_i all
      obtain ⟨id, stored⟩ := Option.isSome_iff_exists.mp (List.all_eq_true.mp all _ mem)
      cases assigned
      exact ⟨id, stored, globalId_foldl_setGlobalId agreed stored once mem _⟩
    · cases assigned
  obtain ⟨id₁, stored₁, read₁⟩ := read walk₁ once₁ assigned₁ at₁
  obtain ⟨id₂, stored₂, read₂⟩ := read walk₂ once₂ assigned₂ at₂
  rw [read₁, read₂]
  constructor
  · rintro rfl
    exact distinct.injective t₁ t₂ id₁ stored₁ stored₂
  · rintro rfl
    exact Option.some.inj (stored₁.symm.trans stored₂)

/-- Ranks 0 and 2 each create a communicator, handle 5 on both, from their own group, `{0, 1}`
and `{2, 3}`: each rank is root of its communicator, both sit at the coordinate `[1]`, and the
two communicators get one `global_id`. -/
theorem global_ids_match_on_disjoint_creates :
    let firstPass (rank : CInt) (members : List CInt) : Option OTF2Writer :=
      run { OTF2Writer.new ⟨0, 1, 1, 2, 0, -1⟩ ⟨0, 0⟩ 0 with
          groups := Function.update (fun _ => none) 7 (some { globalRanks := members }) }
        [.openArchive "trace" 4 rank, .registerCommWorld 0, .mpiCommCreateFirstPass 0 7 5]
    ∃ w₀ w₂ agreed w₀' w₂', firstPass 0 [0, 1] = some w₀ ∧ firstPass 2 [2, 3] = some w₂ ∧
      agreeAcross [w₀, w₂] 2 { nextId := 0 } = some agreed ∧
      w₀.visits 2 = some [(5, ⟨[1]⟩)] ∧ w₂.visits 2 = some [(5, ⟨[1]⟩)] ∧
      w₀.assignGlobalIds 2 agreed = some (.ok w₀') ∧ w₂.assignGlobalIds 2 agreed = some (.ok w₂') ∧
      (w₀'.comms 5).globalId = (w₂'.comms 5).globalId := by
  intro firstPass
  obtain ⟨w₀, ran₀, walk₀, w₂, ran₂, walk₂, agreed, agreedRan, w₀', assigned₀, w₂', assigned₂⟩ :
      ∃ w₀, firstPass 0 [0, 1] = some w₀ ∧ w₀.visits 2 = some [(5, ⟨[1]⟩)] ∧
        ∃ w₂, firstPass 2 [2, 3] = some w₂ ∧ w₂.visits 2 = some [(5, ⟨[1]⟩)] ∧
        ∃ agreed, agreeAcross [w₀, w₂] 2 { nextId := 0 } = some agreed ∧
        ∃ w₀', w₀.assignGlobalIds 2 agreed = some (.ok w₀') ∧
        ∃ w₂', w₂.assignGlobalIds 2 agreed = some (.ok w₂') :=
    ⟨_, rfl, rfl, _, rfl, rfl, _, rfl, _, rfl, _, rfl⟩
  exact ⟨w₀, w₂, agreed, w₀', w₂', ran₀, ran₂, agreedRan, walk₀, walk₂, assigned₀, assigned₂,
    (global_ids_match_tree_coordinates agreedRan walk₀ walk₂ assigned₀ assigned₂
      (List.mem_singleton_self _) (List.mem_singleton_self _) (by simp) (by simp)).mpr rfl⟩

end Otf2Dump
