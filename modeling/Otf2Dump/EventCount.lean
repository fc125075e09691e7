import Otf2Dump.Handlers

/-!
# The event counter

Every method adds to `event_count_` the number of records it appends, so the counter is the
length of the record sequence in every reachable writer.
-/

set_option autoImplicit false

namespace Otf2Dump

/-- `w'` extends the records of `w` and counts exactly the new ones. -/
def CountsRecords (w w' : OTF2Writer) : Prop :=
  ∃ records : List Event, w'.evtWriter = w.evtWriter ++ records ∧
    w'.eventCount = w.eventCount + records.length

theorem CountsRecords.refl (w : OTF2Writer) : CountsRecords w w := ⟨[], by simp, by simp⟩

theorem CountsRecords.trans (u v w : OTF2Writer) :
    CountsRecords u v → CountsRecords v w → CountsRecords u w := by
  rintro ⟨first, hv, cv⟩ ⟨second, hw, cw⟩
  exact ⟨first ++ second, by simp [hw, hv], by simp [cw, cv]; omega⟩

theorem CountsRecords.of_frame {w w' : OTF2Writer} (records : w'.evtWriter = w.evtWriter)
    (count : w'.eventCount = w.eventCount) : CountsRecords w w' :=
  ⟨[], by simp [records], by simp [count]⟩

/-!
## Primitive steps
-/

section Primitives

variable {α : Type}

theorem counts_of_modify {change : OTF2Writer → OTF2Writer}
    (records : ∀ w, (change w).evtWriter = w.evtWriter)
    (count : ∀ w, (change w).eventCount = w.eventCount) :
    Guarantees CountsRecords (modify change) :=
  Guarantees.modify fun w => CountsRecords.of_frame (records w) (count w)

theorem counts_pure (value : α) : Guarantees CountsRecords (pure value : WriterM α) :=
  Guarantees.pure CountsRecords.refl value

theorem counts_throw (fault : Fault) : Guarantees CountsRecords (throw fault : WriterM α) :=
  Guarantees.throw CountsRecords.refl fault

theorem counts_get : Guarantees CountsRecords (get : WriterM OTF2Writer) :=
  Guarantees.get CountsRecords.refl

theorem counts_bind {β : Type} {method : WriterM α} {next : α → WriterM β}
    (first : Guarantees CountsRecords method) (rest : ∀ value, Guarantees CountsRecords (next value)) :
    Guarantees CountsRecords (method >>= next) :=
  Guarantees.bind CountsRecords.trans first rest

theorem counts_emit_count (event : Event) {next : WriterM α}
    (rest : Guarantees CountsRecords next) :
    Guarantees CountsRecords (emit event >>= fun _ => countEvents 1 >>= fun _ => next) := by
  intro w w' after
  rw [run_bind] at after
  exact CountsRecords.trans _ _ _ ⟨[event], rfl, rfl⟩ (rest _ w' after)

end Primitives

theorem CountsRecords.of_quiet {w w' : OTF2Writer} (quiet : w.Quiet w') : CountsRecords w w' :=
  CountsRecords.of_frame quiet.records quiet.eventCount

theorem counts_modifyGet {α : Type} {change : OTF2Writer → α × OTF2Writer}
    (records : ∀ w, (change w).2.evtWriter = w.evtWriter)
    (count : ∀ w, (change w).2.eventCount = w.eventCount) :
    Guarantees CountsRecords (modifyGet change : WriterM α) :=
  Guarantees.modifyGet fun w => CountsRecords.of_frame (records w) (count w)

/-!
## The steps of the handlers
-/

theorem counts_enter (start stop : Otf2TimeT) (name : String) :
    Guarantees CountsRecords (enter start stop name) :=
  counts_bind (counts_of_modify (fun _ => rfl) fun _ => rfl) fun _ =>
  counts_bind (counts_of_modify (fun _ => rfl) fun _ => rfl) fun _ =>
  counts_bind (counts_modifyGet (fun _ => rfl) fun _ => rfl) fun _ =>
  counts_emit_count _ (counts_pure _)

theorem counts_leave (stop : Otf2TimeT) (thisRegion : Nat) :
    Guarantees CountsRecords (leave stop thisRegion) :=
  counts_emit_count _ (counts_pure _)

theorem counts_collectiveWrapper (start stop : Otf2TimeT) (collective : CollectiveOp)
    (comm : CommT) (root : CInt) {sent received : WriterM U64} (sentReads : ReadsOnly sent)
    (receivedReads : ReadsOnly received) :
    Guarantees CountsRecords (collectiveWrapper start stop collective comm root sent received) := by
  intro w w' after
  simp only [collectiveWrapper, emit, countEvents, run_bind, run_modify] at after
  rcases sentReads { w with evtWriter := w.evtWriter ++ [.mpiCollectiveBegin start] } with
    ⟨sizeSent, sentResult⟩ | ⟨reason, sentResult⟩ <;> simp only [sentResult] at after
  · rcases receivedReads { w with evtWriter := w.evtWriter ++ [.mpiCollectiveBegin start] } with
      ⟨sizeReceived, receivedResult⟩ | ⟨reason, receivedResult⟩ <;>
      simp only [receivedResult] at after
    · cases after
      exact ⟨[.mpiCollectiveBegin start,
        .mpiCollectiveEnd stop collective comm root sizeSent sizeReceived], by simp, rfl⟩
    · cases after
  · cases after

theorem counts_completeCall (requestId : RequestT) (timestamp : Otf2TimeT) :
    Guarantees CountsRecords (completeCall requestId timestamp) := by
  refine counts_bind counts_get fun w => ?_
  split
  · exact Guarantees.ite (counts_throw _) (counts_pure _)
  · exact counts_emit_count _ (counts_of_modify (fun _ => rfl) fun _ => rfl)
  · split
    · exact counts_throw _
    · intro w w' after
      simp only [emit, eraseIrecvRequest, countEvents, eraseRequestType, run_bind,
        run_modify] at after
      cases after
      exact ⟨[_], rfl, rfl⟩

theorem counts_incompleteCall (requestId : RequestT) (type : RequestType) :
    Guarantees CountsRecords (incompleteCall requestId type) :=
  counts_bind counts_get fun _ =>
    Guarantees.ite (counts_of_modify (fun _ => rfl) fun _ => rfl) (counts_pure _)

theorem handlerRules_counts (call : Call) (start stop : Otf2TimeT) :
    HandlerRules call start stop (fun _ => CountsRecords) (fun _ => CountsRecords)
      CountsRecords where
  refl _ := CountsRecords.refl
  trans _ := CountsRecords.trans
  quiet _ _ _ := CountsRecords.of_quiet
  closes _ := CountsRecords.trans
  afterEnter _ _ _ _ rest := counts_bind (counts_enter _ _ _) rest
  leaves _ := counts_leave _ _
  early _ _ _ _ := counts_pure _
  sendInner _ _ _ _ _ _ _ := counts_bind ((quiet_typeSizeAt _).imp fun _ _ => CountsRecords.of_quiet)
    fun _ => counts_emit_count _ (counts_pure _)
  isendInner _ _ _ _ _ _ _ _ := counts_bind (counts_incompleteCall _ _) fun _ =>
    counts_bind counts_get fun _ => counts_emit_count _ (counts_pure _)
  completes _ _ := counts_completeCall _ _
  recv _ _ _ _ _ _ := counts_emit_count _ (counts_leave _ _)
  irecv _ _ _ _ _ _ _ _ := counts_bind (counts_of_modify (fun _ => rfl) fun _ => rfl) fun _ =>
    counts_bind (counts_incompleteCall _ _) fun _ => counts_emit_count _ (counts_leave _ _)
  collective _ _ _ _ _ _ sentReads receivedReads _ :=
    counts_bind (counts_collectiveWrapper _ _ _ _ _ sentReads receivedReads) fun _ =>
      counts_leave _ _

/-- Every public method counts exactly the records it appends, on every exit a run goes on
from. -/
theorem callMethod_counts (call : Call) : Guarantees CountsRecords (callMethod call) := by
  cases timed : call.times with
  | none => exact callMethod_untraced timed (fun _ _ => CountsRecords.of_quiet) fun _ _ =>
      counts_of_modify (fun _ => rfl) fun _ => rfl
  | some times => exact callMethod_traced timed (handlerRules_counts call times.1 times.2)

/-- `event_count_` is the number of records appended to `evt_writer` since construction, in
every writer a run reaches. -/
theorem eventCount_eq_records_length {w : OTF2Writer} (reachable : Reachable w) :
    w.eventCount = w.evtWriter.length := by
  obtain ⟨header, world, nullRequest, calls, ran⟩ := reachable
  suffices counted : ∀ (start : OTF2Writer) (calls : List Call) (final : OTF2Writer),
      start.eventCount = start.evtWriter.length → run start calls = some final →
      final.eventCount = final.evtWriter.length from
    counted _ calls w rfl ran
  intro start calls
  induction calls generalizing start with
  | nil => rintro final counted ⟨⟩; exact counted
  | cons call calls ih =>
    intro final counted ran
    simp only [run, List.foldlM_cons, Option.bind_eq_bind, Option.bind_eq_some] at ran
    obtain ⟨next, stepped, ran⟩ := ran
    obtain ⟨records, appended, added⟩ := callMethod_counts call start next stepped
    exact ih next final (by simp [appended, added, counted]) ran

theorem eventCount_after_send :
    let start := OTF2Writer.new
      { mpiCommWorldId := 0, mpiCommSelfId := 1, commWorldGroupId := 1, commSelfGroupId := 2,
        commLocationsGroupId := 0, undefinedRoot := -1 } ⟨2, 0⟩ 0
    let w := (run start [.openArchive "trace" 2 0, .mpiSend 1 2 7 3 1 0 5]).getD start
    w.eventCount = w.evtWriter.length :=
  eventCount_eq_records_length ⟨_, _, _, [.openArchive "trace" 2 0, .mpiSend 1 2 7 3 1 0 5], rfl⟩

end Otf2Dump
