import Mathlib.Data.List.Chain
import Otf2Dump.Regions.Definitions

/-!
# Timestamps and the clock bounds

Every record a call writes is stamped with its `start` or `stop`, so over a run whose calls keep
`start_k ≤ stop_k ≤ start_(k+1)` the records are in time order and the clock bounds of the
writer cover them.
-/

set_option autoImplicit false

namespace Otf2Dump

/-- The timestamp of a record. -/
def Event.time : Event → Otf2TimeT
  | .enter time _ | .leave time _ | .mpiSend time .. | .mpiRecv time .. | .mpiIsend time ..
  | .mpiIsendComplete time _ | .mpiIrecvRequest time _ | .mpiIrecv time ..
  | .mpiCollectiveBegin time | .mpiCollectiveEnd time .. => time

/-- Where a handler stands: before `_ENTER`, after it, or after its first record stamped
`stop`. -/
inductive Phase where
  | before
  | started
  | stopped
  deriving DecidableEq

/-- The order of the phases. -/
def Phase.rank : Phase → Nat
  | .before => 0
  | .started => 1
  | .stopped => 2

/-- The clock bounds of `w` cover `[start, stop]`. -/
def OTF2Writer.Covers (w : OTF2Writer) (start stop : Otf2TimeT) : Prop :=
  w.startTime ≤ start ∧ stop ≤ w.stopTime

/-- What a part of a handler with times `start` and `stop` does when it runs from phase `p`
to phase `q`, from a writer that covers `[start, stop]` once `_ENTER` has run: the clock
bounds only widen, and cover `[start, stop]` from `_ENTER` on; the records it appends are
some stamped `start`, then some stamped `stop`; none before `_ENTER`, none stamped `start`
once stopped, and none stamped `stop` unless it stops. -/
def Stamps (start stop : Otf2TimeT) (p q : Phase) (w w' : OTF2Writer) : Prop :=
  p.rank ≤ q.rank ∧ ((p ≠ .before → w.Covers start stop) →
    w'.startTime ≤ w.startTime ∧ w.stopTime ≤ w'.stopTime ∧
    (q ≠ .before → w'.Covers start stop) ∧
    ∃ early late, w'.evtWriter = w.evtWriter ++ early ++ late ∧
      (∀ event ∈ early, event.time = start) ∧ (∀ event ∈ late, event.time = stop) ∧
      (q = .before → early = [] ∧ late = []) ∧ (p = .stopped → early = []) ∧
      (q ≠ .stopped → late = []))

/-!
## Moves between phases
-/

section Stamps

variable {start stop : Otf2TimeT}

theorem Phase.eq_before_of_rank {p q : Phase} (below : p.rank ≤ q.rank) (at_before : q = .before) :
    p = .before := by
  subst at_before; cases p <;> simp_all [Phase.rank]

theorem Phase.eq_stopped_of_rank {p q : Phase} (below : p.rank ≤ q.rank) (at_stopped : p = .stopped) :
    q = .stopped := by
  subst at_stopped; cases q <;> simp_all [Phase.rank]

theorem Stamps.comp {p q r : Phase} {u v w : OTF2Writer} (first : Stamps start stop p q u v)
    (second : Stamps start stop q r v w) : Stamps start stop p r u w := by
  obtain ⟨pq, first⟩ := first
  obtain ⟨qr, second⟩ := second
  refine ⟨pq.trans qr, fun entered => ?_⟩
  obtain ⟨startTime, stopTime, covers, early, late, appended, atStart, atStop, none, noStart,
    noStop⟩ := first entered
  obtain ⟨startTime', stopTime', covers', early', late', appended', atStart', atStop', none',
    noStart', noStop'⟩ := second covers
  refine ⟨BitVec.le_trans startTime' startTime, BitVec.le_trans stopTime stopTime', covers', ?_⟩
  by_cases stopped : q = .stopped
  · -- Once stopped, the second move writes no record stamped `start`.
    have noEarly := noStart' stopped
    subst noEarly
    have stays := Phase.eq_stopped_of_rank qr stopped
    refine ⟨early, late ++ late', by simp [appended', appended], atStart, ?_, ?_, noStart,
      fun moving => absurd stays moving⟩
    · intro event mem
      rcases List.mem_append.mp mem with mem | mem
      · exact atStop event mem
      · exact atStop' event mem
    · intro at_before
      exact absurd (stays.symm.trans at_before) (by decide)
  · -- Before it stops, the first move writes no record stamped `stop`.
    have noLate := noStop stopped
    subst noLate
    refine ⟨early ++ early', late', by simp [appended', appended], ?_, atStop', ?_, ?_, noStop'⟩
    · intro event mem
      rcases List.mem_append.mp mem with mem | mem
      · exact atStart event mem
      · exact atStart' event mem
    · intro at_before
      have first_before := Phase.eq_before_of_rank qr at_before
      obtain ⟨rfl, -⟩ := none first_before
      exact ⟨(none' at_before).1, (none' at_before).2⟩
    · intro at_stopped
      exact absurd (Phase.eq_stopped_of_rank pq at_stopped) stopped

theorem Stamps.refl {p q : Phase} (below : p.rank ≤ q.rank) (entered : q ≠ .before → p ≠ .before)
    (w : OTF2Writer) : Stamps start stop p q w w :=
  ⟨below, fun covers => ⟨BitVec.le_refl _, BitVec.le_refl _, fun moved => covers (entered moved),
    [], [], by simp, by simp, by simp, by simp, by simp, by simp⟩⟩

theorem Stamps.of_frame {p : Phase} {w w' : OTF2Writer} (records : w'.evtWriter = w.evtWriter)
    (startTime : w'.startTime = w.startTime) (stopTime : w'.stopTime = w.stopTime) :
    Stamps start stop p p w w' := by
  refine ⟨le_rfl, fun covers => ⟨startTime ▸ BitVec.le_refl _, stopTime ▸ BitVec.le_refl _,
    fun moved => ?_, [], [], by simp [records], by simp, by simp, by simp, by simp, by simp⟩⟩
  rw [OTF2Writer.Covers, startTime, stopTime]
  exact covers moved

end Stamps

theorem stdMin_le_left (a b : U64) : stdMin a b ≤ a := by
  unfold stdMin; split <;> bv_omega

theorem stdMin_le_right (a b : U64) : stdMin a b ≤ b := by
  unfold stdMin; split <;> bv_omega

theorem le_stdMax_left (a b : U64) : a ≤ stdMax a b := by
  unfold stdMax; split <;> bv_omega

theorem le_stdMax_right (a b : U64) : b ≤ stdMax a b := by
  unfold stdMax; split <;> bv_omega

/-!
## The rules
-/

section Rules

variable {start stop : Otf2TimeT} {p : Phase}

theorem stamps_bind {α β : Type} {q r : Phase} {method : WriterM α} {next : α → WriterM β}
    (first : Guarantees (Stamps start stop p q) method)
    (rest : ∀ value, Guarantees (Stamps start stop q r) (next value))
    (settles : q.rank ≤ r.rank ∧ (r ≠ .before → q ≠ .before)) :
    Guarantees (Stamps start stop p r) (method >>= next) := by
  intro w w' after
  rw [run_bind] at after
  cases outcome : method w with
  | ok value middle =>
    rw [outcome] at after
    exact (first w middle (by rw [outcome]; rfl)).comp (rest value middle w' after)
  | error fault middle =>
    rw [outcome] at after
    exact (first w w' (by rw [outcome, afterCall_error]; exact after)).comp
      (Stamps.refl settles.1 settles.2 w')

theorem stamps_pure_same {α : Type} (value : α) :
    Guarantees (Stamps start stop p p) (pure value : WriterM α) :=
  Guarantees.pure (Stamps.refl le_rfl id) value

theorem stamps_pure {α : Type} {q : Phase} (settles : p.rank ≤ q.rank ∧ (q ≠ .before → p ≠ .before))
    (value : α) : Guarantees (Stamps start stop p q) (pure value : WriterM α) :=
  Guarantees.pure (Stamps.refl settles.1 settles.2) value

theorem stamps_throw_same {α : Type} (fault : Fault) :
    Guarantees (Stamps start stop p p) (throw fault : WriterM α) :=
  Guarantees.throw (Stamps.refl le_rfl id) fault

theorem stamps_get : Guarantees (Stamps start stop p p) (get : WriterM OTF2Writer) :=
  Guarantees.get (Stamps.refl le_rfl id)

theorem stamps_readsOnly {α : Type} {method : WriterM α} (reads : ReadsOnly method) :
    Guarantees (Stamps start stop p p) method :=
  Guarantees.of_readsOnly (Stamps.refl le_rfl id) reads

theorem stamps_of_modify {change : OTF2Writer → OTF2Writer}
    (records : ∀ w, (change w).evtWriter = w.evtWriter)
    (startTime : ∀ w, (change w).startTime = w.startTime)
    (stopTime : ∀ w, (change w).stopTime = w.stopTime) :
    Guarantees (Stamps start stop p p) (modify change) :=
  Guarantees.modify fun w => Stamps.of_frame (records w) (startTime w) (stopTime w)

theorem stamps_emit (event : Event) (stamped : event.time = start) :
    Guarantees (Stamps start stop .started .started) (emit event) :=
  Guarantees.modify fun _ => ⟨le_rfl, fun covers => ⟨BitVec.le_refl _, BitVec.le_refl _, covers,
    [event], [], by simp [emit], fun _ mem => (List.mem_singleton.mp mem) ▸ stamped, by simp,
    nofun, nofun, fun _ => rfl⟩⟩

theorem stamps_emit_stop (entered : p ≠ .before) (event : Event) (stamped : event.time = stop) :
    Guarantees (Stamps start stop p .stopped) (emit event) :=
  Guarantees.modify fun _ => ⟨by cases p <;> decide, fun covers => ⟨BitVec.le_refl _,
    BitVec.le_refl _, fun _ => covers entered, [], [event], by simp [emit], by simp,
    fun _ mem => (List.mem_singleton.mp mem) ▸ stamped, nofun, fun _ => rfl,
    fun moving => absurd rfl moving⟩⟩

theorem stamps_countEvents (n : Nat) : Guarantees (Stamps start stop p p) (countEvents n) :=
  stamps_of_modify (fun _ => rfl) (fun _ => rfl) fun _ => rfl

theorem stamps_enter (name : String) :
    Guarantees (Stamps start stop .before .started) (enter start stop name) := by
  intro w w' after
  simp only [enter, emit, countEvents, run_bind, run_modify, run_modifyGet, run_pure] at after
  cases after
  exact ⟨by decide, fun _ => ⟨stdMin_le_left _ _, le_stdMax_left _ _,
    fun _ => ⟨stdMin_le_right _ _, le_stdMax_right _ _⟩,
    [.enter start (w.otf2RegionsTable.insert name).2], [], by simp,
    fun _ mem => (List.mem_singleton.mp mem) ▸ rfl, by simp, nofun, nofun, fun _ => rfl⟩⟩

theorem stamps_leave (entered : p ≠ .before) (region : Nat) :
    Guarantees (Stamps start stop p .stopped) (leave stop region) :=
  stamps_bind (stamps_emit_stop entered _ rfl) (fun _ =>
    stamps_bind (stamps_countEvents 1) (fun _ => stamps_pure_same _) ⟨le_rfl, id⟩)
    ⟨le_rfl, id⟩

theorem stamps_collectiveWrapper (collective : CollectiveOp) (comm : CommT) (root : CInt)
    {sent received : WriterM U64} (sentReads : ReadsOnly sent) (receivedReads : ReadsOnly received) :
    Guarantees (Stamps start stop .started .stopped)
      (collectiveWrapper start stop collective comm root sent received) :=
  stamps_bind (stamps_emit _ rfl) (fun _ =>
    stamps_bind (stamps_readsOnly sentReads) (fun _ =>
      stamps_bind (stamps_readsOnly receivedReads) (fun _ =>
        stamps_bind (stamps_emit_stop (by decide) _ rfl) (fun _ => stamps_countEvents 2)
          ⟨le_rfl, id⟩) (by decide)) (by decide)) (by decide)

end Rules

/-!
## The steps of the handlers
-/

section Steps

variable {start stop : Otf2TimeT}

theorem Stamps.of_quiet {p : Phase} {w w' : OTF2Writer} (quiet : w.Quiet w') :
    Stamps start stop p p w w' :=
  Stamps.of_frame quiet.records quiet.startTime quiet.stopTime

theorem stamps_emit_count {α : Type} {q : Phase} (event : Event) (stamped : event.time = start)
    {next : WriterM α} (rest : Guarantees (Stamps start stop .started q) next)
    (later : Phase.started.rank ≤ q.rank) :
    Guarantees (Stamps start stop .started q)
      (emit event >>= fun _ => countEvents 1 >>= fun _ => next) :=
  stamps_bind (stamps_emit event stamped)
    (fun _ => stamps_bind (stamps_countEvents 1) (fun _ => rest) ⟨later, fun _ => nofun⟩)
    ⟨later, fun _ => nofun⟩

theorem stamps_incompleteCall {p : Phase} (request : RequestT) (type : RequestType) :
    Guarantees (Stamps start stop p p) (incompleteCall request type) :=
  stamps_bind stamps_get (fun _ => Guarantees.ite
    (stamps_of_modify (fun _ => rfl) (fun _ => rfl) fun _ => rfl) (stamps_pure_same _)) ⟨le_rfl, id⟩

theorem stamps_completeCall (request : RequestT) :
    Guarantees (Stamps start stop .started .started) (completeCall request start) := by
  have erased : Guarantees (Stamps start stop .started .started) (do
      countEvents 1
      eraseRequestType request) :=
    stamps_bind (stamps_countEvents 1) (fun _ => stamps_of_modify (fun _ => rfl) (fun _ => rfl)
      fun _ => rfl) ⟨le_rfl, id⟩
  refine stamps_bind stamps_get (fun w => ?_) ⟨le_rfl, id⟩
  split
  · exact Guarantees.ite (stamps_throw_same _) (stamps_pure_same _)
  · exact stamps_bind (stamps_emit _ rfl) (fun _ => erased) ⟨le_rfl, id⟩
  · split
    · exact stamps_throw_same _
    · exact stamps_bind (stamps_emit _ rfl) (fun _ => stamps_bind
        (stamps_of_modify (fun _ => rfl) (fun _ => rfl) fun _ => rfl) (fun _ => erased)
        ⟨le_rfl, id⟩) ⟨le_rfl, id⟩

end Steps

theorem handlerRules_stamps (call : Call) (start stop : Otf2TimeT) :
    HandlerRules call start stop (fun _ => Stamps start stop .started .started)
      (fun _ => Stamps start stop .started .stopped) (Stamps start stop .before .stopped) where
  refl _ := Stamps.refl le_rfl id
  trans _ _ _ _ := Stamps.comp
  quiet _ _ _ := Stamps.of_quiet
  closes _ _ _ _ := Stamps.comp
  afterEnter _ _ _ _ rest := stamps_bind (stamps_enter _) rest ⟨by decide, by decide⟩
  leaves _ := stamps_leave (by decide) _
  early _ _ _ _ := stamps_pure ⟨by decide, by decide⟩ _
  sendInner _ _ _ _ _ _ _ := stamps_bind ((quiet_typeSizeAt _).imp fun _ _ => Stamps.of_quiet)
    (fun _ => stamps_emit_count _ (by rfl) (stamps_pure_same _) le_rfl) ⟨le_rfl, id⟩
  isendInner _ _ _ _ _ _ _ _ := stamps_bind (stamps_incompleteCall _ _) (fun _ =>
    stamps_bind stamps_get (fun _ => stamps_emit_count _ (by rfl) (stamps_pure_same _) le_rfl)
      ⟨le_rfl, id⟩) ⟨le_rfl, id⟩
  completes _ _ := stamps_completeCall _
  recv _ _ _ _ _ _ := stamps_emit_count _ (by rfl) (stamps_leave (by decide) _) (by decide)
  irecv _ _ _ _ _ _ _ _ := stamps_bind (stamps_of_modify (fun _ => rfl) (fun _ => rfl) fun _ => rfl)
    (fun _ => stamps_bind (stamps_incompleteCall _ _)
      (fun _ => stamps_emit_count _ (by rfl) (stamps_leave (by decide) _) (by decide))
      ⟨by decide, by decide⟩) ⟨by decide, by decide⟩
  collective _ _ _ _ _ _ sentReads receivedReads _ :=
    stamps_bind (stamps_collectiveWrapper _ _ _ sentReads receivedReads)
      (fun _ => stamps_leave (by decide) _) ⟨le_rfl, id⟩

/-!
## Every method
-/

/-- Every public method with times `start` and `stop` moves from before `_ENTER` to stopped;
the others write no record and leave the clock bounds alone. -/
theorem callMethod_stamps (call : Call) :
    Guarantees (match call.times with
      | some (start, stop) => Stamps start stop .before .stopped
      | none => Stamps 0 0 .before .before) (callMethod call) := by
  cases timed : call.times with
  | none => exact callMethod_untraced timed (fun _ _ => Stamps.of_quiet) fun _ _ =>
      stamps_of_modify (fun _ => rfl) (fun _ => rfl) fun _ => rfl
  | some times => exact callMethod_traced timed (handlerRules_stamps call times.1 times.2)

/-!
## The records of one call
-/

section Order

variable {early late more : List Event} {start stop : Otf2TimeT} (within : start ≤ stop)
  (atStart : ∀ event ∈ early, event.time = start) (atStop : ∀ event ∈ late, event.time = stop)
  (above : ∀ event ∈ more, stop ≤ event.time)

include within atStart atStop in
theorem stamped_within : ∀ event ∈ early ++ late, start ≤ event.time ∧ event.time ≤ stop := by
  intro event mem
  rcases List.mem_append.mp mem with mem | mem
  · rw [atStart event mem]; exact ⟨BitVec.le_refl _, within⟩
  · rw [atStop event mem]; exact ⟨within, BitVec.le_refl _⟩

include within atStart atStop above in
theorem stamped_above : ∀ event ∈ early ++ late ++ more, start ≤ event.time := by
  intro event mem
  rcases List.mem_append.mp mem with mem | mem
  · exact (stamped_within within atStart atStop event mem).1
  · exact BitVec.le_trans within (above event mem)

include within atStart atStop above in
theorem stamped_sorted (sorted : (more.map Event.time).Pairwise (· ≤ ·)) :
    ((early ++ late ++ more).map Event.time).Pairwise (· ≤ ·) := by
  simp only [List.pairwise_map] at sorted ⊢
  refine List.pairwise_append.mpr ⟨List.pairwise_append.mpr ⟨?_, ?_, ?_⟩, sorted, ?_⟩
  · exact List.pairwise_of_forall_mem_list fun a ha b hb =>
      atStart a ha ▸ atStart b hb ▸ BitVec.le_refl start
  · exact List.pairwise_of_forall_mem_list fun a ha b hb =>
      atStop a ha ▸ atStop b hb ▸ BitVec.le_refl stop
  · exact fun a ha b hb => atStart a ha ▸ atStop b hb ▸ within
  · intro a ha b hb
    exact BitVec.le_trans (stamped_within within atStart atStop a ha).2 (above b hb)

end Order

/-!
## One call
-/

section Step

variable {w w' : OTF2Writer} {call : Call}

/-- A call with times `start` and `stop` widens the clock bounds to cover `[start, stop]` and
appends records stamped `start`, then records stamped `stop`. -/
theorem Call.step_timed {start stop : Otf2TimeT} (timed : call.times = some (start, stop))
    (stepped : call.step w = some w') :
    w'.startTime ≤ w.startTime ∧ w.stopTime ≤ w'.stopTime ∧ w'.Covers start stop ∧
      ∃ early late, w'.evtWriter = w.evtWriter ++ early ++ late ∧
        (∀ event ∈ early, event.time = start) ∧ ∀ event ∈ late, event.time = stop := by
  have moved := callMethod_stamps call w w' stepped
  rw [timed] at moved
  obtain ⟨startTime, stopTime, covers, early, late, appended, atStart, atStop, -⟩ :=
    moved.2 fun entered => absurd rfl entered
  exact ⟨startTime, stopTime, covers nofun, early, late, appended, atStart, atStop⟩

theorem Call.step_untimed (untimed : call.times = none) (stepped : call.step w = some w') :
    w'.startTime ≤ w.startTime ∧ w.stopTime ≤ w'.stopTime ∧ w'.evtWriter = w.evtWriter := by
  have moved := callMethod_stamps call w w' stepped
  rw [untimed] at moved
  obtain ⟨startTime, stopTime, -, early, late, appended, -, -, none, -⟩ :=
    moved.2 fun entered => absurd rfl entered
  obtain ⟨rfl, rfl⟩ := none rfl
  exact ⟨startTime, stopTime, by simpa using appended⟩

theorem Call.step_records_within
    (timed : ∀ start stop, call.times = some (start, stop) → start ≤ stop)
    (stepped : call.step w = some w') :
    ∀ event ∈ w'.evtWriter.drop w.evtWriter.length,
      ∃ start stop, call.times = some (start, stop) ∧ start ≤ event.time ∧ event.time ≤ stop := by
  intro event mem
  cases times : call.times with
  | none =>
    rw [(Call.step_untimed times stepped).2.2, List.drop_length] at mem
    cases mem
  | some bounds =>
    obtain ⟨start, stop⟩ := bounds
    have within := timed start stop times
    obtain ⟨-, -, -, early, late, appended, atStart, atStop⟩ := Call.step_timed times stepped
    rw [appended, List.append_assoc, List.drop_left] at mem
    exact ⟨start, stop, rfl, stamped_within within atStart atStop event mem⟩

end Step

/-!
## Records in time order
-/

/-- The calls with times keep `start_k ≤ stop_k ≤ start_(k+1)`. -/
def TimesOrdered (calls : List Call) : Prop :=
  (∀ times ∈ calls.filterMap Call.times, times.1 ≤ times.2) ∧
    (calls.filterMap Call.times).Chain' fun earlier later => earlier.2 ≤ later.1

/-- Over a run whose calls with times are ordered after `previous`, the records appended are
sorted and stamped no earlier than the `stop` of `previous`. -/
theorem run_records_sorted {calls : List Call} :
    ∀ {w w' : OTF2Writer} {previous : Otf2TimeT × Otf2TimeT}, run w calls = some w' →
      (∀ times ∈ calls.filterMap Call.times, times.1 ≤ times.2) →
      (calls.filterMap Call.times).Chain (fun earlier later => earlier.2 ≤ later.1) previous →
      ∃ more, w'.evtWriter = w.evtWriter ++ more ∧ (∀ event ∈ more, previous.2 ≤ event.time) ∧
        (more.map Event.time).Pairwise (· ≤ ·) := by
  induction calls with
  | nil =>
    intro w w' previous ran _ _
    cases ran
    exact ⟨[], by simp, fun _ mem => (List.not_mem_nil _ mem).elim, .nil⟩
  | cons call calls ih =>
    intro w w' previous ran timed ordered
    obtain ⟨v, stepped, ran⟩ := Option.bind_eq_some.mp ran
    cases times : call.times with
    | none =>
      rw [List.filterMap_cons_none times] at timed ordered
      obtain ⟨more, appended, above, sorted⟩ := ih ran timed ordered
      exact ⟨more, by rw [appended, (Call.step_untimed times stepped).2.2], above, sorted⟩
    | some bounds =>
      obtain ⟨start, stop⟩ := bounds
      rw [List.filterMap_cons_some times] at timed ordered
      obtain ⟨after, ordered⟩ := List.chain_cons.mp ordered
      have within := timed _ (List.mem_cons_self _ _)
      obtain ⟨-, -, -, early, late, appended, atStart, atStop⟩ := Call.step_timed times stepped
      obtain ⟨more, appended', above, sorted⟩ :=
        ih ran (fun times mem => timed times (List.mem_cons_of_mem _ mem)) ordered
      refine ⟨early ++ late ++ more, by simp [appended', appended], fun event mem =>
        BitVec.le_trans after (stamped_above within atStart atStop above event mem),
        stamped_sorted within atStart atStop above sorted⟩

/-- Over a run whose calls with times keep `start_k ≤ stop_k ≤ start_(k+1)`, the records
appended are in time order, and each call appends only records stamped within its own
`[start, stop]`. -/
theorem records_follow_call_times {w w' : OTF2Writer} {calls : List Call}
    (ran : run w calls = some w') (ordered : TimesOrdered calls) :
    ((w'.evtWriter.drop w.evtWriter.length).map Event.time).Pairwise (· ≤ ·) ∧
      ∀ before call after v v', calls = before ++ call :: after → run w before = some v →
        call.step v = some v' → ∀ event ∈ v'.evtWriter.drop v.evtWriter.length,
          ∃ start stop, call.times = some (start, stop) ∧ start ≤ event.time ∧ event.time ≤ stop := by
  refine ⟨?_, fun before call after v v' split _ stepped => Call.step_records_within
    (fun start stop times => ordered.1 _ (List.mem_filterMap.mpr ⟨call, by simp [split], times⟩))
    stepped⟩
  have chained : (calls.filterMap Call.times).Chain (fun earlier later => earlier.2 ≤ later.1)
      (0, 0) :=
    ordered.2.cons' fun times _ => by bv_omega
  obtain ⟨more, appended, -, sorted⟩ := run_records_sorted ran ordered.1 chained
  rwa [appended, List.drop_left]

theorem records_follow_call_times_on_send_and_wait :
    let start := OTF2Writer.new ⟨0, 1, 1, 2, 0, -1⟩ ⟨1, 0⟩ 0
    let calls : List Call := [.registerNullRequest 0, .registerType 7 4,
      .mpiIsend 1 2 7 1 0 5 0 9, .genericCall 2 4 "MPI_Barrier", .mpiWait 5 6 9]
    let w := (run start calls).getD start
    run start calls = some w ∧ TimesOrdered calls ∧
      ((w.evtWriter.drop start.evtWriter.length).map Event.time).Pairwise (· ≤ ·) ∧
      ∀ before call after v v', calls = before ++ call :: after → run start before = some v →
        call.step v = some v' → ∀ event ∈ v'.evtWriter.drop v.evtWriter.length,
          ∃ start stop, call.times = some (start, stop) ∧ start ≤ event.time ∧
            event.time ≤ stop := by
  intro start calls w
  have ordered : TimesOrdered calls :=
    ⟨by decide, .cons (by decide) (.cons (by decide) .nil)⟩
  exact ⟨rfl, ordered, records_follow_call_times rfl ordered⟩

/-!
## The clock bounds
-/

/-- The clock bounds of `w` cover each of its records. -/
def OTF2Writer.ClockCoversRecords (w : OTF2Writer) : Prop :=
  ∀ event ∈ w.evtWriter, w.startTime ≤ event.time ∧ event.time ≤ w.stopTime

theorem OTF2Writer.ClockCoversRecords.widen {w v : OTF2Writer} (covers : w.ClockCoversRecords)
    (startTime : v.startTime ≤ w.startTime) (stopTime : w.stopTime ≤ v.stopTime) :
    ∀ event ∈ w.evtWriter, v.startTime ≤ event.time ∧ event.time ≤ v.stopTime := fun event mem =>
  ⟨BitVec.le_trans startTime (covers event mem).1, BitVec.le_trans (covers event mem).2 stopTime⟩

/-- Over a run whose calls keep `start ≤ stop`, the clock bounds keep covering every record,
and are ordered from the first call with times on. -/
theorem run_clock_covers_records {calls : List Call} :
    ∀ {w w' : OTF2Writer}, run w calls = some w' →
      (∀ times ∈ calls.filterMap Call.times, times.1 ≤ times.2) → w.ClockCoversRecords →
      w'.ClockCoversRecords ∧
        (w.startTime ≤ w.stopTime ∨ calls.filterMap Call.times ≠ [] →
          w'.startTime ≤ w'.stopTime) := by
  induction calls with
  | nil =>
    intro w w' ran _ covers
    cases ran
    exact ⟨covers, fun ordered => ordered.resolve_right (by simp)⟩
  | cons call calls ih =>
    intro w w' ran timed covers
    obtain ⟨v, stepped, ran⟩ := Option.bind_eq_some.mp ran
    cases times : call.times with
    | none =>
      rw [List.filterMap_cons_none times] at timed ⊢
      obtain ⟨startTime, stopTime, kept⟩ := Call.step_untimed times stepped
      obtain ⟨covers', ordered⟩ :=
        ih ran timed fun event mem => covers.widen startTime stopTime event (kept ▸ mem)
      exact ⟨covers', fun before => ordered (before.imp_left fun bounds =>
        BitVec.le_trans startTime (BitVec.le_trans bounds stopTime))⟩
    | some bounds =>
      obtain ⟨start, stop⟩ := bounds
      rw [List.filterMap_cons_some times] at timed
      have within := timed _ (List.mem_cons_self _ _)
      obtain ⟨startTime, stopTime, ⟨coversStart, coversStop⟩, early, late, appended, atStart,
        atStop⟩ := Call.step_timed times stepped
      have widened : v.ClockCoversRecords := by
        intro event mem
        rw [appended, List.append_assoc, List.mem_append] at mem
        rcases mem with mem | mem
        · exact covers.widen startTime stopTime event mem
        · obtain ⟨lower, upper⟩ := stamped_within within atStart atStop event mem
          exact ⟨BitVec.le_trans coversStart lower, BitVec.le_trans upper coversStop⟩
      obtain ⟨covers', ordered⟩ :=
        ih ran (fun times mem => timed times (List.mem_cons_of_mem _ mem)) widened
      exact ⟨covers', fun _ =>
        ordered (.inl (BitVec.le_trans coversStart (BitVec.le_trans within coversStop)))⟩

/-- A writer that ran from its constructor through calls with `start ≤ stop`, at least one of
them with times, writes clock properties whose offset and length cover each of its own records;
`stop_time_ - start_time_` does not wrap. -/
theorem clock_properties_cover_own_records {header : Header} {world : WorldConfig}
    {nullRequest : RequestT} {calls : List Call} {eventCounts : List CInt} {w w' : OTF2Writer}
    (ran : run (OTF2Writer.new header world nullRequest) calls = some w)
    (timed : ∀ times ∈ calls.filterMap Call.times, times.1 ≤ times.2)
    (traced : calls.filterMap Call.times ≠ [])
    (wrote : writeDefFiles eventCounts w = .ok () w') :
    GlobalDef.clockProperties w.clockResolution w.startTime (w.stopTime - w.startTime) ∈
        w'.globalDefs ∧
      w.startTime ≤ w.stopTime ∧
      (w.stopTime - w.startTime).toNat = w.stopTime.toNat - w.startTime.toNat ∧
      ∀ event ∈ w.evtWriter,
        w.startTime ≤ event.time ∧ event.time ≤ w.startTime + (w.stopTime - w.startTime) := by
  obtain ⟨covers, ordered⟩ := run_clock_covers_records ran timed fun _ mem => (List.not_mem_nil _ mem).elim
  have ordered := ordered (.inr traced)
  obtain ⟨-, more, defs, -⟩ := writeDefFiles_appends wrote
  refine ⟨by simp [defs], ordered, BitVec.toNat_sub_of_le ordered, fun event mem => ?_⟩
  rw [show w.startTime + (w.stopTime - w.startTime) = w.stopTime by bv_omega]
  exact covers event mem

theorem clock_properties_cover_own_records_on_two_calls :
    let start := OTF2Writer.new ⟨0, 1, 1, 2, 0, -1⟩ ⟨1, 0⟩ 0
    let calls : List Call := [.genericCall 5 6 "MPI_Barrier", .genericCall 7 9 "MPI_Barrier"]
    let w : OTF2Writer := (run start calls).getD start
    ∃ w', run start calls = some w ∧
      (∀ times ∈ calls.filterMap Call.times, times.1 ≤ times.2) ∧
      calls.filterMap Call.times ≠ [] ∧ writeDefFiles [2] w = .ok () w' ∧
      GlobalDef.clockProperties w.clockResolution w.startTime (w.stopTime - w.startTime) ∈
          w'.globalDefs ∧
        w.startTime ≤ w.stopTime ∧
        (w.stopTime - w.startTime).toNat = w.stopTime.toNat - w.startTime.toNat ∧
        ∀ event ∈ w.evtWriter,
          w.startTime ≤ event.time ∧ event.time ≤ w.startTime + (w.stopTime - w.startTime) := by
  intro start calls w
  have ran : run start calls = some w := rfl
  have timed : ∀ times ∈ calls.filterMap Call.times, times.1 ≤ times.2 := by decide
  have traced : calls.filterMap Call.times ≠ [] := by decide
  obtain ⟨w', wrote⟩ := @writeDefFiles_returns [2] w (by decide) (by decide)
  exact ⟨w', ran, timed, traced, wrote, clock_properties_cover_own_records ran timed traced wrote⟩

/-- Each rank widens only its own clock bounds: the clock properties one rank writes need not
cover the records of another. -/
theorem clock_properties_miss_other_ranks :
    ∃ a b a', run (OTF2Writer.new ⟨0, 1, 1, 2, 0, -1⟩ ⟨2, 0⟩ 0)
        [.genericCall 5 6 "MPI_Barrier"] = some a ∧
      run (OTF2Writer.new ⟨0, 1, 1, 2, 0, -1⟩ ⟨2, 1⟩ 0) [.genericCall 1 2 "MPI_Barrier"] = some b ∧
      writeDefFiles [2, 2] a = .ok () a' ∧ GlobalDef.clockProperties 1 5 1 ∈ a'.globalDefs ∧
      b.evtWriter = [.enter 1 0, .leave 2 0] ∧ ¬ (5 : Otf2TimeT) ≤ (Event.enter 1 0).time := by
  let start := OTF2Writer.new ⟨0, 1, 1, 2, 0, -1⟩ ⟨2, 0⟩ 0
  let a := (run start [.genericCall 5 6 "MPI_Barrier"]).getD start
  obtain ⟨a', wrote⟩ := @writeDefFiles_returns [2, 2] a (by decide) (by decide)
  obtain ⟨-, more, defs, -⟩ := writeDefFiles_appends wrote
  have clock : a.clockResolution = 1 ∧ a.startTime = 5 ∧ a.stopTime = 6 := ⟨rfl, rfl, rfl⟩
  exact ⟨a, _, a', rfl, rfl, wrote, by simp [defs, clock], rfl, by decide⟩

end Otf2Dump
