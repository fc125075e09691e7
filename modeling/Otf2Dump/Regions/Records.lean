import Otf2Dump.Handlers

/-!
# Region ids in the records

Every `Enter` and `Leave` record a call writes carries the id its rank's region table gives the
name the call passed to `_ENTER`, and the table only grows.
-/

set_option autoImplicit false

namespace Otf2Dump

/-- The region an `Enter` or `Leave` record carries. -/
def Event.region : Event → Option Nat
  | .enter _ region | .leave _ region => some region
  | _ => none

/-!
## The region table
-/

theorem Interner.insert_grows (table : Interner) (value : String) :
    table.entries <+: (table.insert value).1.entries := by
  unfold Interner.insert
  split
  · exact List.prefix_refl _
  · exact List.prefix_append _ _

theorem Interner.insert_names (table : Interner) (value : String) :
    (table.insert value).1.entries[(table.insert value).2]? = some value := by
  unfold Interner.insert
  split
  · rename_i present
    exact List.getElem?_eq_some_iff.mpr ⟨List.indexOf_lt_length.mpr present, List.indexOf_get _⟩
  · simp

theorem prefix_getElem?_eq_some {l₁ l₂ : List String} {index : Nat} {value : String}
    (grows : l₁ <+: l₂) (found : l₁[index]? = some value) : l₂[index]? = some value := by
  obtain ⟨more, rfl⟩ := grows
  rw [List.getElem?_append_left (List.getElem?_eq_some_iff.mp found).1]
  exact found

/-!
## Handler bodies
-/

/-- From `w` to `w'` the region table is unchanged, and the records appended carry no region
but `region`. -/
structure RegionFrame (region : Option Nat) (w w' : OTF2Writer) : Prop where
  table : w'.otf2RegionsTable = w.otf2RegionsTable
  appended : ∃ more, w'.evtWriter = w.evtWriter ++ more ∧
    ∀ event ∈ more, event.region = none ∨ event.region = region

section RegionFrame

variable {region : Option Nat}

theorem RegionFrame.refl (w : OTF2Writer) : RegionFrame region w w := ⟨rfl, [], by simp, by simp⟩

theorem RegionFrame.trans (u v w : OTF2Writer) (first : RegionFrame region u v)
    (second : RegionFrame region v w) : RegionFrame region u w := by
  obtain ⟨table, more, appended, carries⟩ := first
  obtain ⟨table', more', appended', carries'⟩ := second
  refine ⟨table'.trans table, more ++ more', by rw [appended', appended, List.append_assoc], ?_⟩
  intro event mem
  rcases List.mem_append.mp mem with mem | mem
  · exact carries event mem
  · exact carries' event mem

theorem RegionFrame.of_quiet {w w' : OTF2Writer} (quiet : w.Quiet w') : RegionFrame region w w' :=
  ⟨quiet.regions, [], by simp [quiet.records], by simp⟩

theorem regionFrame_bind {α β : Type} {method : WriterM α} {next : α → WriterM β}
    (first : Guarantees (RegionFrame region) method)
    (rest : ∀ value, Guarantees (RegionFrame region) (next value)) :
    Guarantees (RegionFrame region) (method >>= next) :=
  Guarantees.bind RegionFrame.trans first rest

theorem regionFrame_pure {α : Type} (value : α) :
    Guarantees (RegionFrame region) (pure value : WriterM α) :=
  Guarantees.pure RegionFrame.refl value

theorem regionFrame_of_modify {change : OTF2Writer → OTF2Writer}
    (table : ∀ w, (change w).otf2RegionsTable = w.otf2RegionsTable)
    (records : ∀ w, (change w).evtWriter = w.evtWriter) :
    Guarantees (RegionFrame region) (modify change) :=
  Guarantees.modify fun w => ⟨table w, [], by simp [records w], by simp⟩

theorem regionFrame_emit (event : Event) (plain : event.region = none) :
    Guarantees (RegionFrame region) (emit event) := by
  rintro w w' ⟨⟩
  exact ⟨rfl, [event], rfl, by simp [plain]⟩

theorem regionFrame_emit_count {α : Type} (event : Event) (plain : event.region = none)
    {next : WriterM α} (rest : Guarantees (RegionFrame region) next) :
    Guarantees (RegionFrame region) (emit event >>= fun _ => countEvents 1 >>= fun _ => next) :=
  regionFrame_bind (regionFrame_emit event plain) fun _ =>
    regionFrame_bind (regionFrame_of_modify (fun _ => rfl) fun _ => rfl) fun _ => rest

theorem regionFrame_incompleteCall (request : RequestT) (type : RequestType) :
    Guarantees (RegionFrame region) (incompleteCall request type) :=
  regionFrame_bind (Guarantees.get RegionFrame.refl) fun _ =>
    Guarantees.ite (regionFrame_of_modify (fun _ => rfl) fun _ => rfl) (regionFrame_pure _)

theorem regionFrame_completeCall (request : RequestT) (timestamp : Otf2TimeT) :
    Guarantees (RegionFrame region) (completeCall request timestamp) := by
  unfold completeCall
  refine regionFrame_bind (Guarantees.get RegionFrame.refl) fun w => ?_
  split
  · exact Guarantees.ite (Guarantees.throw RegionFrame.refl _) (regionFrame_pure _)
  · exact regionFrame_emit_count _ (by rfl) (regionFrame_of_modify (fun _ => rfl) fun _ => rfl)
  · split
    · exact Guarantees.undefined RegionFrame.refl _
    · exact regionFrame_bind (regionFrame_emit _ rfl) fun _ =>
        regionFrame_bind (regionFrame_of_modify (fun _ => rfl) fun _ => rfl) fun _ =>
        regionFrame_bind (regionFrame_of_modify (fun _ => rfl) fun _ => rfl) fun _ =>
        regionFrame_of_modify (fun _ => rfl) fun _ => rfl

theorem regionFrame_mpiSendInner (start : Otf2TimeT) (type : MpiTypeT) (count : U64)
    (dest : U32) (comm : CommT) (tag : U32) :
    Guarantees (RegionFrame region) (mpiSendInner start type count dest comm tag) :=
  regionFrame_bind ((quiet_typeSizeAt _).imp fun _ _ => RegionFrame.of_quiet) fun _ =>
    regionFrame_emit_count _ (by rfl) (regionFrame_pure _)

theorem regionFrame_mpiIsendInner (start : Otf2TimeT) (type : MpiTypeT) (count : U64)
    (dest : U32) (comm : CommT) (tag : U32) (request : RequestT) :
    Guarantees (RegionFrame region) (mpiIsendInner start type count dest comm tag request) :=
  regionFrame_bind (regionFrame_incompleteCall _ _) fun _ =>
    regionFrame_bind (Guarantees.get RegionFrame.refl) fun _ =>
    regionFrame_emit_count _ (by rfl) (regionFrame_pure _)

theorem regionFrame_irecvPost {α : Type} (request : RequestT) (capture : IrecvCapture)
    {next : WriterM α} (rest : Guarantees (RegionFrame region) next) :
    Guarantees (RegionFrame region) ((modify fun w =>
      { w with irecvRequests := Function.update w.irecvRequests request (some capture) }) >>=
        fun _ => incompleteCall request .irecv >>= fun _ => next) :=
  regionFrame_bind (regionFrame_of_modify (fun _ => rfl) fun _ => rfl) fun _ =>
    regionFrame_bind (regionFrame_incompleteCall _ _) fun _ => rest

theorem regionFrame_collectiveWrapper (start stop : Otf2TimeT) (collective : CollectiveOp)
    (comm : CommT) (root : CInt) {sent received : WriterM U64} (sentReads : ReadsOnly sent)
    (receivedReads : ReadsOnly received) :
    Guarantees (RegionFrame region)
      (collectiveWrapper start stop collective comm root sent received) :=
  regionFrame_bind (regionFrame_emit _ rfl) fun _ =>
  regionFrame_bind (Guarantees.of_readsOnly RegionFrame.refl sentReads) fun _ =>
  regionFrame_bind (Guarantees.of_readsOnly RegionFrame.refl receivedReads) fun _ =>
  regionFrame_bind (regionFrame_emit _ rfl) fun _ =>
  regionFrame_of_modify (fun _ => rfl) fun _ => rfl

end RegionFrame

theorem regionFrame_leave (stop : Otf2TimeT) (thisRegion : Nat) :
    Guarantees (RegionFrame (some thisRegion)) (leave stop thisRegion) :=
  regionFrame_bind (fun _ _ after => by cases after; exact ⟨rfl, _, rfl, by simp [Event.region]⟩)
    fun _ => regionFrame_bind (regionFrame_of_modify (fun _ => rfl) fun _ => rfl) fun _ =>
      regionFrame_pure _

/-!
## Whole calls
-/

/-- From `w` to `w'` the region table only grows, and every record appended carries a region
that the table of `w'` names `name`. -/
structure RegionsNamed (name : Option String) (w w' : OTF2Writer) : Prop where
  grows : w.otf2RegionsTable.entries <+: w'.otf2RegionsTable.entries
  appended : ∃ more, w'.evtWriter = w.evtWriter ++ more ∧
    ∀ event ∈ more, ∀ region, event.region = some region →
      ∃ value ∈ name, w'.otf2RegionsTable.entries[region]? = some value

namespace RegionsNamed

variable {name : Option String}

theorem refl (w : OTF2Writer) : RegionsNamed name w w :=
  ⟨List.prefix_refl _, [], by simp, by simp⟩

theorem trans (u v w : OTF2Writer) (first : RegionsNamed name u v)
    (second : RegionsNamed name v w) : RegionsNamed name u w := by
  obtain ⟨grows, more, appended, named⟩ := first
  obtain ⟨grows', more', appended', named'⟩ := second
  refine ⟨grows.trans grows', more ++ more', by rw [appended', appended, List.append_assoc], ?_⟩
  intro event mem region carried
  rcases List.mem_append.mp mem with mem | mem
  · obtain ⟨value, given, found⟩ := named event mem region carried
    exact ⟨value, given, prefix_getElem?_eq_some grows' found⟩
  · exact named' event mem region carried

end RegionsNamed

theorem regionsNamed_none {α : Type} {method : WriterM α}
    (frame : Guarantees (RegionFrame none) method) : Guarantees (RegionsNamed none) method := by
  intro w w' after
  obtain ⟨table, more, appended, carries⟩ := frame w w' after
  refine ⟨table ▸ List.prefix_refl _, more, appended, fun event mem region carried => ?_⟩
  rcases carries event mem with plain | plain <;> simp [plain] at carried

theorem regionsNamed_enter_bind {β : Type} {start stop : Otf2TimeT} {name : String}
    {body : Nat → WriterM β} (frame : ∀ thisRegion, Guarantees (RegionFrame (some thisRegion)) (body thisRegion)) :
    Guarantees (RegionsNamed (some name)) (enter start stop name >>= body) := by
  intro w w' after
  simp only [enter, emit, countEvents, run_bind, run_modify, run_modifyGet, run_pure] at after
  obtain ⟨table, more, appended, carries⟩ := frame _ _ w' after
  simp only at table appended
  have named := Interner.insert_names w.otf2RegionsTable name
  refine ⟨by rw [table]; exact Interner.insert_grows _ _, _ :: more,
    by rw [appended, List.append_assoc, List.singleton_append], ?_⟩
  intro event mem region carried
  rw [table]
  rcases List.mem_cons.mp mem with rfl | mem
  · cases carried
    exact ⟨name, rfl, named⟩
  · rcases carries event mem with plain | plain <;> rw [plain] at carried
    · cases carried
    · cases carried
      exact ⟨name, rfl, named⟩

theorem RegionsNamed.of_quiet {name : Option String} {w w' : OTF2Writer} (quiet : w.Quiet w') :
    RegionsNamed name w w' :=
  ⟨quiet.regions ▸ List.prefix_refl _, [], by simp [quiet.records], by simp⟩

theorem handlerRules_names_regions (call : Call) (start stop : Otf2TimeT) :
    HandlerRules call start stop (fun region => RegionFrame (some region))
      (fun region => RegionFrame (some region)) (RegionsNamed call.enterName) where
  refl _ := RegionFrame.refl
  trans _ := RegionFrame.trans
  quiet _ _ _ := RegionFrame.of_quiet
  closes _ := RegionFrame.trans
  afterEnter _ _ _ named rest := named ▸ regionsNamed_enter_bind rest
  leaves _ := regionFrame_leave _ _
  early _ _ _ _ := regionFrame_pure _
  sendInner _ _ _ _ _ _ _ := regionFrame_mpiSendInner _ _ _ _ _ _
  isendInner _ _ _ _ _ _ _ _ := regionFrame_mpiIsendInner _ _ _ _ _ _ _
  completes _ _ := regionFrame_completeCall _ _
  recv _ _ _ _ _ _ := regionFrame_emit_count _ (by rfl) (regionFrame_leave _ _)
  irecv _ _ _ _ _ _ _ _ := regionFrame_irecvPost _ _ (regionFrame_emit_count _ (by rfl) (regionFrame_leave _ _))
  collective _ _ _ _ _ _ sentReads receivedReads _ :=
    regionFrame_bind (regionFrame_collectiveWrapper _ _ _ _ _ sentReads receivedReads) fun _ =>
      regionFrame_leave _ _

/-- Every method writes only records whose region its rank's table names with the name the
method passes to `_ENTER`, and the table only grows. -/
theorem callMethod_names_regions (call : Call) :
    Guarantees (RegionsNamed call.enterName) (callMethod call) := by
  cases timed : call.times with
  | none => exact callMethod_untraced timed (fun _ _ => RegionsNamed.of_quiet) fun _ _ =>
      Guarantees.modify fun _ => ⟨List.prefix_refl _, [], by simp, by simp⟩
  | some times => exact callMethod_traced timed (handlerRules_names_regions call times.1 times.2)

end Otf2Dump
