import Otf2Dump.Timestamps

/-!
# Enter and Leave blocks in the record stream

Over a run the records of a rank are one block `Enter(start, x) … Leave(stop, x)` per traced
call, with no region record inside; only `mpi_type_contiguous` and `mpi_type_create_subarray`
on an unknown old type leave their block open.
-/

set_option autoImplicit false

namespace Otf2Dump

/-!
## One call
-/

/-- What the rest of a handler does once `_ENTER` has returned `region`: it appends records that
carry no region, then `Leave(stop, region)`; or, where the handler may return `early`, only the
records without a region. -/
def Closes (stop : Otf2TimeT) (region : Nat) (early : Bool) (w w' : OTF2Writer) : Prop :=
  ∃ body, (∀ event ∈ body, event.region = none) ∧
    (w'.evtWriter = w.evtWriter ++ body ++ [.leave stop region] ∨
      early = true ∧ w'.evtWriter = w.evtWriter ++ body)

/-- What a traced call with times `start` and `stop` appends: `Enter(start, x)`, records that
carry no region, and `Leave(stop, x)`, which a call that may return `early` can leave out. -/
def Brackets (start stop : Otf2TimeT) (early : Bool) (w w' : OTF2Writer) : Prop :=
  ∃ region body, (∀ event ∈ body, event.region = none) ∧
    (w'.evtWriter = w.evtWriter ++ .enter start region :: body ++ [.leave stop region] ∨
      early = true ∧ w'.evtWriter = w.evtWriter ++ .enter start region :: body)

section Closes

variable {stop : Otf2TimeT} {region : Nat} {early : Bool}

theorem RegionFrame.closes {u v w : OTF2Writer} (first : RegionFrame none u v)
    (rest : Closes stop region early v w) : Closes stop region early u w := by
  obtain ⟨-, more, appended, carries⟩ := first
  obtain ⟨body, plain, closed⟩ := rest
  refine ⟨more ++ body, fun event mem => ?_, ?_⟩
  · rcases List.mem_append.mp mem with mem | mem
    · exact (carries event mem).elim id id
    · exact plain event mem
  · rw [appended] at closed
    simpa only [List.append_assoc] using closed

theorem closes_bind {α β : Type} {method : WriterM α} {next : α → WriterM β}
    (first : Guarantees (RegionFrame none) method) (clean : NoException method)
    (rest : ∀ value, Guarantees (Closes stop region early) (next value)) :
    Guarantees (Closes stop region early) (method >>= next) :=
  @Guarantees.seq (RegionFrame none) (Closes stop region early) (fun _ _ _ => RegionFrame.closes) _ _
    _ _ first clean rest

theorem closes_emit_count {α : Type} (event : Event) (plain : event.region = none)
    {next : WriterM α} (rest : Guarantees (Closes stop region early) next) :
    Guarantees (Closes stop region early)
      (emit event >>= fun _ => countEvents 1 >>= fun _ => next) :=
  closes_bind (regionFrame_emit event plain) (NoException.emit _) fun _ =>
    closes_bind (regionFrame_of_modify (fun _ => rfl) fun _ => rfl) (NoException.countEvents _)
      fun _ => rest

theorem closes_leave : Guarantees (Closes stop region early) (leave stop region) := by
  intro w w' after
  simp only [leave, emit, countEvents, run_bind, run_modify, run_pure] at after
  cases after
  exact ⟨[], by simp, .inl (by simp)⟩

theorem closes_early {α : Type} (value : α) :
    Guarantees (Closes stop region true) (pure value : WriterM α) := by
  rintro w w' ⟨⟩
  exact ⟨[], by simp, .inr ⟨rfl, by simp⟩⟩

theorem brackets_enter_bind {β : Type} {start : Otf2TimeT} {name : String}
    {rest : Nat → WriterM β} (closes : ∀ region, Guarantees (Closes stop region early) (rest region)) :
    Guarantees (Brackets start stop early) (enter start stop name >>= rest) := by
  intro w w' after
  simp only [enter, emit, countEvents, run_bind, run_modify, run_modifyGet, run_pure] at after
  obtain ⟨body, plain, closed⟩ := closes _ _ w' after
  exact ⟨_, body, plain, by simpa only [List.append_assoc, List.singleton_append] using closed⟩

end Closes

theorem NoException.collectiveWrapper (start stop : Otf2TimeT) (collective : CollectiveOp)
    (comm : CommT) (root : CInt) {sent received : WriterM U64} (sentReads : ReadsOnly sent)
    (receivedReads : ReadsOnly received) :
    NoException (collectiveWrapper start stop collective comm root sent received) :=
  (NoException.emit _).bind fun _ => (NoException.of_readsOnly sentReads).bind fun _ =>
    (NoException.of_readsOnly receivedReads).bind fun _ => (NoException.emit _).bind fun _ =>
      NoException.countEvents _

theorem handlerRules_brackets (call : Call) (start stop : Otf2TimeT) :
    HandlerRules call start stop (fun _ => RegionFrame none)
      (fun region => Closes stop region call.returnsEarly) (Brackets start stop call.returnsEarly)
    where
  refl _ := RegionFrame.refl
  trans _ := RegionFrame.trans
  quiet _ _ _ := RegionFrame.of_quiet
  closes _ _ _ _ := RegionFrame.closes
  afterEnter _ _ _ _ rest := brackets_enter_bind rest
  leaves _ := closes_leave
  early _ _ _ returns := returns ▸ closes_early _
  sendInner _ _ _ _ _ _ _ := regionFrame_mpiSendInner _ _ _ _ _ _
  isendInner _ _ _ _ _ _ _ _ := regionFrame_mpiIsendInner _ _ _ _ _ _ _
  completes _ _ := regionFrame_completeCall _ _
  recv _ _ _ _ _ _ := closes_emit_count _ (by rfl) closes_leave
  irecv _ _ _ _ _ _ _ _ := closes_bind (regionFrame_of_modify (fun _ => rfl) fun _ => rfl)
    (NoException.modify _) fun _ => closes_bind (regionFrame_incompleteCall _ _)
      (NoException.incompleteCall _ _) fun _ => closes_emit_count _ (by rfl) closes_leave
  collective _ _ _ _ _ _ sentReads receivedReads _ :=
    closes_bind (regionFrame_collectiveWrapper _ _ _ _ _ sentReads receivedReads)
      (NoException.collectiveWrapper _ _ _ _ _ sentReads receivedReads) fun _ => closes_leave

/-- Every traced call appends one block `Enter(start, x) … Leave(stop, x)` with its own `start`
and `stop` and no region record in between; the `Leave` is missing only where the call may
return early. -/
theorem callMethod_brackets (call : Call) {start stop : Otf2TimeT}
    (timed : call.times = some (start, stop)) :
    Guarantees (Brackets start stop call.returnsEarly) (callMethod call) :=
  callMethod_traced timed (handlerRules_brackets call start stop)

/-!
## Runs
-/

/-- The record streams made of one block a call, the calls' times listed in order: a closed
block `Enter(start, x)`, records that carry no region, `Leave(stop, x)`; or, for a region `x`
that `openable` allows, an open block `Enter(start, x)` and records that carry no region. -/
inductive Bracketed (openable : Nat → Prop) :
    List (Otf2TimeT × Otf2TimeT) → List Event → Prop
  | nil : Bracketed openable [] []
  | closed {times : List (Otf2TimeT × Otf2TimeT)} {stream body : List Event}
      {start stop : Otf2TimeT} {region : Nat} :
      Bracketed openable times stream → (∀ event ∈ body, event.region = none) →
      Bracketed openable (times ++ [(start, stop)])
        (stream ++ .enter start region :: body ++ [.leave stop region])
  | unclosed {times : List (Otf2TimeT × Otf2TimeT)} {stream body : List Event}
      {start stop : Otf2TimeT} {region : Nat} :
      Bracketed openable times stream → (∀ event ∈ body, event.region = none) →
      openable region → Bracketed openable (times ++ [(start, stop)]) (stream ++ .enter start region :: body)

theorem Bracketed.mono {openable wider : Nat → Prop} {times : List (Otf2TimeT × Otf2TimeT)}
    {stream : List Event} (bracketed : Bracketed openable times stream)
    (widens : ∀ region, openable region → wider region) : Bracketed wider times stream := by
  induction bracketed with
  | nil => exact .nil
  | closed _ plain ih => exact .closed ih plain
  | unclosed _ plain opened ih => exact .unclosed ih plain (widens _ opened)

/-- The regions a run may leave open: those the table of `w` names with the region name of a
call of `calls` that may return between `_ENTER` and `_LEAVE()`. -/
def OpenedBy (calls : List Call) (w : OTF2Writer) (region : Nat) : Prop :=
  ∃ call ∈ calls, call.returnsEarly = true ∧
    ∃ name ∈ call.enterName, w.otf2RegionsTable.entries[region]? = some name

theorem OpenedBy.mono {calls more : List Call} {w w' : OTF2Writer} {region : Nat}
    (opened : OpenedBy calls w region) (grows : w.otf2RegionsTable.entries <+: w'.otf2RegionsTable.entries) :
    OpenedBy (calls ++ more) w' region := by
  obtain ⟨call, mem, early, name, given, found⟩ := opened
  exact ⟨call, List.mem_append_left _ mem, early, name, given, prefix_getElem?_eq_some grows found⟩

section Step

variable {call : Call} {before : List Call} {w w' : OTF2Writer}

/-- One call adds its block to the stream: closed, or open where the call may return early. -/
theorem Call.step_bracketed (stepped : call.step w = some w')
    (bracketed : Bracketed (OpenedBy before w) (before.filterMap Call.times) w.evtWriter) :
    Bracketed (OpenedBy (before ++ [call]) w') ((before ++ [call]).filterMap Call.times)
      w'.evtWriter := by
  have named := callMethod_names_regions call w w' stepped
  have widened : Bracketed (OpenedBy (before ++ [call]) w') _ _ :=
    bracketed.mono fun _ opened => opened.mono named.grows
  rw [List.filterMap_append]
  cases times : call.times with
  | none =>
    rw [List.filterMap_cons_none times, List.filterMap_nil, List.append_nil,
      (Call.step_untimed times stepped).2.2]
    exact widened
  | some bounds =>
    obtain ⟨start, stop⟩ := bounds
    rw [List.filterMap_cons_some times, List.filterMap_nil]
    obtain ⟨region, body, plain, closed | ⟨early, opened⟩⟩ :=
      callMethod_brackets call times w w' stepped
    · rw [closed]
      exact .closed widened plain
    · rw [opened]
      obtain ⟨more, appended, names⟩ := named.appended
      rw [opened, List.append_cancel_left_eq] at appended
      obtain ⟨name, given, found⟩ := names (.enter start region)
        (by rw [← appended]; exact List.mem_cons_self _ _) region rfl
      exact .unclosed widened plain ⟨call, by simp, early, name, given, found⟩

end Step

theorem run_bracketed {calls : List Call} :
    ∀ {before : List Call} {w w' : OTF2Writer}, run w calls = some w' →
      Bracketed (OpenedBy before w) (before.filterMap Call.times) w.evtWriter →
      Bracketed (OpenedBy (before ++ calls) w') ((before ++ calls).filterMap Call.times)
        w'.evtWriter := by
  induction calls with
  | nil =>
    intro before w w' ran bracketed
    cases ran
    simpa using bracketed
  | cons call calls ih =>
    intro before w w' ran bracketed
    obtain ⟨v, stepped, ran⟩ := Option.bind_eq_some.mp ran
    simpa using ih ran (Call.step_bracketed stepped bracketed)

/-- Over every run from the constructor the record stream of a rank is one block per traced
call, in the order of the calls and with each call's `start` and `stop`: `Enter(start, x)`,
records that carry no region, `Leave(stop, x)`. A block is left open, without its `Leave`, only
where the region table names `x` as a call `mpi_type_contiguous` or `mpi_type_create_subarray`
of the run names its region. -/
theorem records_bracketed_per_call {header : Header} {world : WorldConfig}
    {nullRequest : RequestT} {calls : List Call} {w : OTF2Writer}
    (ran : run (OTF2Writer.new header world nullRequest) calls = some w) :
    Bracketed (OpenedBy calls w) (calls.filterMap Call.times) w.evtWriter :=
  @run_bracketed calls [] _ _ ran .nil

/-- An unknown old type in `mpi_type_contiguous` leaves its block open; the barrier after it
opens and closes its own. -/
theorem records_bracketed_after_unknown_contiguous :
    let start := OTF2Writer.new ⟨0, 1, 1, 2, 0, -1⟩ ⟨1, 0⟩ 0
    let calls : List Call := [.mpiTypeContiguous 1 2 1 7 8, .genericCall 3 4 "MPI_Barrier"]
    let w := (run start calls).getD start
    run start calls = some w ∧ w.evtWriter = [.enter 1 0, .enter 3 1, .leave 4 1] ∧
      Bracketed (OpenedBy calls w) (calls.filterMap Call.times) w.evtWriter :=
  ⟨rfl, rfl, records_bracketed_per_call rfl⟩

end Otf2Dump
