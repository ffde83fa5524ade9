import LogRouter.Proofs.Sink.Run
import LogRouter.Sink.Build

/-!
# What the writers answer

* `Outlet.traced`: the same writers, with a trace of the calls that reach them and of what each call
  comes to.
* `Outlet.KeepsKinds`: no operation changes which writers own files. The writers of a program are
  like that (`keepsKinds_outlet`).
* **`emit_traced`**: a record that reaches no destination is one all of whose writes failed.
* **`flush_traced`**, **`close_traced`**: which calls a flush and a close make. They return the first
  failure of these calls.
-/

namespace LogRouter

/-! ## Traces -/

/-- The writer that a call is for. -/
def WriterCall.writer : WriterCall → Nat
  | write writer _ | sync writer | close writer => writer

/-- A call of a writer and what it came to. -/
structure WriterReply where
  call : WriterCall
  /-- Why the call failed. -/
  error? : Option IoError
  deriving DecidableEq, Repr

/-- Why an operation failed. -/
def errorOf? {α : Type} : Except IoError α → Option IoError
  | .ok _ => none
  | .error e => some e

namespace Outlet

variable {σ : Type}

/-- The same writers, with a trace of their replies. -/
def traced (outlet : Outlet σ) : Outlet (σ × List WriterReply) where
  write writer bytes world :=
    let (result, after) := outlet.write writer bytes world.1
    (result, after, world.2 ++ [⟨.write writer bytes, errorOf? result⟩])
  sync writer world :=
    let (result, after) := outlet.sync writer world.1
    (result, after, world.2 ++ [⟨.sync writer, errorOf? result⟩])
  close writer world :=
    let (result, after) := outlet.close writer world.1
    (result, after, world.2 ++ [⟨.close writer, errorOf? result⟩])
  isFileBacked writer world := outlet.isFileBacked writer world.1
  report report world := (outlet.report report world.1, world.2)

/-- Which writers own files. -/
def kinds (outlet : Outlet σ) (world : σ) : Nat → Bool := (outlet.isFileBacked · world)

/-- No operation changes which writers own files. -/
structure KeepsKinds (outlet : Outlet σ) : Prop where
  write : ∀ writer bytes world,
    outlet.kinds (outlet.write writer bytes world).2 = outlet.kinds world
  sync : ∀ writer world, outlet.kinds (outlet.sync writer world).2 = outlet.kinds world
  close : ∀ writer world, outlet.kinds (outlet.close writer world).2 = outlet.kinds world
  report : ∀ report world, outlet.kinds (outlet.report report world) = outlet.kinds world

end Outlet

/-! ## The writers of a program -/

namespace Fleet

theorem kinds_setWriter {fleet : Fleet} {i : Nat} {w w' : LogWriter} {host : Host}
    (h : fleet.writer? i = some w) (hkind : w'.isFileBacked = w.isFileBacked) :
    Fleet.outlet.kinds ({ fleet with host := host }.setWriter i w') = Fleet.outlet.kinds fleet := by
  funext j
  change Fleet.isFileBacked j _ = Fleet.isFileBacked j fleet
  unfold Fleet.isFileBacked writer? setWriter
  by_cases hij : i = j
  · subst hij
    unfold writer? at h
    rw [List.getElem?_set_self (List.getElem?_eq_some_iff.mp h).1, h]
    exact hkind
  · rw [List.getElem?_set_ne hij]

/-- **The writers of a program stay of their kinds.** -/
theorem keepsKinds_outlet : Fleet.outlet.KeepsKinds where
  write i bytes fleet := by
    change Fleet.outlet.kinds (Fleet.write i bytes fleet).2 = _
    unfold Fleet.write
    cases h : fleet.writer? i with
    | none => rfl
    | some w => exact kinds_setWriter h (by cases w <;> rfl)
  sync i fleet := by
    change Fleet.outlet.kinds (Fleet.sync i fleet).2 = _
    unfold Fleet.sync
    cases fleet.writer? i <;> rfl
  close i fleet := by
    change Fleet.outlet.kinds (Fleet.close i fleet).2 = _
    unfold Fleet.close
    cases h : fleet.writer? i with
    | none => rfl
    | some w => exact kinds_setWriter h (by cases w <;> rfl)
  report _ _ := rfl

end Fleet

namespace Sink

variable {σ : Type} (outlet : Outlet σ)

/-! ## Deliveries -/

section Delivery

variable (now : Nat) (bytes : Bytes)

/-- The delivery with a trace beside its world. -/
def Delivery.withTrace (d : Delivery σ) (trace : List WriterReply) :
    Delivery (σ × List WriterReply) :=
  ⟨(d.world, trace), d.metrics, d.reports, d.attempted, d.failures, d.made⟩

theorem deliver_traced (d : Delivery σ) (trace : List WriterReply) (slot : Slot) :
    ∃ reply : WriterReply, reply.call = .write slot.writer bytes ∧
      deliver outlet.traced now bytes (d.withTrace trace) slot =
        (deliver outlet now bytes d slot).withTrace (trace ++ [reply]) ∧
      (deliver outlet now bytes d slot).attempted = d.attempted + 1 ∧
      (deliver outlet now bytes d slot).failures.length =
        d.failures.length + if reply.error?.isSome then 1 else 0 := by
  rcases hw : outlet.write slot.writer bytes d.world with ⟨e | n, after⟩
  · refine ⟨⟨.write slot.writer bytes, some e⟩, rfl, ?_, ?_, ?_⟩
    · simp only [deliver, Outlet.traced, Delivery.withTrace, hw]
      cases (d.reports.note now slot.destination e.message).1 <;> rfl
    · simp only [deliver, hw]
    · simp [deliver, hw]
  · refine ⟨⟨.write slot.writer bytes, none⟩, rfl, ?_, ?_, ?_⟩
    · simp only [deliver, Outlet.traced, Delivery.withTrace, hw, errorOf?]
    · simp only [deliver, hw]
    · simp [deliver, hw]

theorem foldl_deliver_traced : ∀ (slots : List Slot) (d : Delivery σ) (trace : List WriterReply),
    ∃ replies : List WriterReply,
      replies.map WriterReply.call = slots.map (fun slot => .write slot.writer bytes) ∧
      slots.foldl (deliver outlet.traced now bytes) (d.withTrace trace) =
        (slots.foldl (deliver outlet now bytes) d).withTrace (trace ++ replies) ∧
      (slots.foldl (deliver outlet now bytes) d).attempted = d.attempted + replies.length ∧
      (slots.foldl (deliver outlet now bytes) d).failures.length =
        d.failures.length + replies.countP (·.error?.isSome)
  | [], d, trace => ⟨[], rfl, by simp, rfl, rfl⟩
  | slot :: slots, d, trace => by
    obtain ⟨reply, hcall, hstep, hattempted, hfailures⟩ :=
      deliver_traced outlet now bytes d trace slot
    obtain ⟨replies, hcalls, hrest, hattempted', hfailures'⟩ :=
      foldl_deliver_traced slots (deliver outlet now bytes d slot) (trace ++ [reply])
    refine ⟨reply :: replies, ?_, ?_, ?_, ?_⟩
    · rw [List.map_cons, List.map_cons, hcall, hcalls]
    · rw [List.foldl_cons, List.foldl_cons, hstep, hrest, List.append_assoc, List.singleton_append]
    · rw [List.foldl_cons, hattempted', hattempted, List.length_cons]
      omega
    · rw [List.foldl_cons, hfailures', hfailures, List.countP_cons]
      omega

variable {outlet} in
theorem foldl_deliver_kinds (hkinds : outlet.KeepsKinds) :
    ∀ (slots : List Slot) (d : Delivery σ),
      outlet.kinds (slots.foldl (deliver outlet now bytes) d).world = outlet.kinds d.world
  | [], _ => rfl
  | slot :: slots, d => by
    have hstep : outlet.kinds (deliver outlet now bytes d slot).world = outlet.kinds d.world := by
      have hwrite := hkinds.write slot.writer bytes d.world
      rcases hw : outlet.write slot.writer bytes d.world with ⟨e | n, after⟩
      · rw [hw] at hwrite
        simp only [deliver, hw]
        cases (d.reports.note now slot.destination e.message).1 with
        | none => exact hwrite
        | some report => exact (hkinds.report report after).trans hwrite
      · rw [hw] at hwrite
        simp only [deliver, hw]
        exact hwrite
    rw [List.foldl_cons, foldl_deliver_kinds hkinds slots, hstep]

/-- **A delivery is traced as it is made.** It is lost if it made writes and all of them failed. -/
theorem emit_traced (sink : Sink) (world : σ) (trace : List WriterReply) (severity : Severity) :
    ∃ replies : List WriterReply,
      replies.map WriterReply.call = ((sink.targets severity).map Slot.writer).map (.write · bytes) ∧
      sink.emit outlet.traced now (world, trace) severity bytes =
        { result := (sink.emit outlet now world severity bytes).result
          made := (sink.emit outlet now world severity bytes).made
          sink := (sink.emit outlet now world severity bytes).sink
          world := ((sink.emit outlet now world severity bytes).world, trace ++ replies) } ∧
      ((∃ e, (sink.emit outlet now world severity bytes).result = .error e ∧ e.isTotal) ↔
        replies ≠ [] ∧ ∀ reply ∈ replies, reply.error?.isSome) := by
  obtain ⟨replies, hcalls, hfold, hattempted, hfailures⟩ :=
    foldl_deliver_traced outlet now bytes (sink.targets severity)
      ⟨world, sink.metrics.countRecord, sink.reports, 0, [], []⟩ trace
  refine ⟨replies, ?_, ?_, ?_⟩
  · rw [hcalls, List.map_map]
    rfl
  · simp only [Delivery.withTrace] at hfold
    unfold emit
    simp only [hfold]
  · unfold emit
    simp only
    rw [Nat.zero_add] at hattempted
    rw [List.length_nil, Nat.zero_add] at hfailures
    have hall : replies.countP (·.error?.isSome) = replies.length ↔
        ∀ reply ∈ replies, reply.error?.isSome := List.countP_eq_length
    have hle := @List.countP_le_length _ (fun reply : WriterReply => reply.error?.isSome) replies
    rw [← hall, ← List.length_pos_iff]
    set finish := (sink.targets severity).foldl (deliver outlet now bytes)
      ⟨world, sink.metrics.countRecord, sink.reports, 0, [], []⟩
    by_cases hempty : finish.failures = []
    · rw [hempty, List.length_nil] at hfailures
      simp only [hempty, List.isEmpty_nil, if_true]
      refine iff_of_false (fun ⟨_, h, _⟩ => by cases h) fun ⟨hpos, h⟩ => by omega
    · have hpos := List.length_pos_iff.mpr hempty
      simp only [List.isEmpty_iff, hempty, if_false, Except.error.injEq, exists_eq_left',
        EmitError.isTotal, decide_eq_true_eq]
      omega

end Delivery

/-! ## Flushing and closing -/

/-- The failure that a reply gives rise to, where `destination` is the first destination of each
writer. -/
def failureOf (fail : String → IoError → SinkError) (destination : Nat → String)
    (reply : WriterReply) : Option SinkError :=
  reply.error?.map (fail (destination reply.call.writer))

/-- What is returned for the replies of some calls: the failure of the first call that failed. -/
def Answers (fail : String → IoError → SinkError) (destination : Nat → String)
    (replies : List WriterReply) (result : Except SinkError Unit) : Prop :=
  (result = .ok () ∧ ∀ reply ∈ replies, reply.error? = none) ∨
    ∃ before reply after e, replies = before ++ reply :: after ∧
      (∀ earlier ∈ before, earlier.error? = none) ∧ reply.error? = some e ∧
      result = .error (fail (destination reply.call.writer) e)

theorem answers_firstError {fail : String → IoError → SinkError} {destination : Nat → String}
    {replies : List WriterReply} {errors : List (Option SinkError)}
    (h : errors.filterMap id = replies.filterMap (failureOf fail destination)) :
    Answers fail destination replies (firstError errors) := by
  unfold firstError
  rw [h]
  cases hfailures : replies.filterMap (failureOf fail destination) with
  | nil =>
    refine Or.inl ⟨rfl, fun reply hreply => ?_⟩
    simpa [failureOf] using List.filterMap_eq_nil_iff.mp hfailures reply hreply
  | cons error rest =>
    obtain ⟨before, reply, after, hsplit, hbefore, herror, _⟩ :=
      List.filterMap_eq_cons_iff.mp hfailures
    obtain ⟨e, he, rfl⟩ := Option.map_eq_some_iff.mp herror
    refine Or.inr ⟨before, reply, after, e, hsplit, fun earlier hearlier => ?_, he, rfl⟩
    simpa [failureOf] using hbefore earlier hearlier

theorem Answers.error_iff {fail : String → IoError → SinkError} {destination : Nat → String}
    {replies : List WriterReply} {result : Except SinkError Unit}
    (h : Answers fail destination replies result) :
    (∃ e, result = .error e) ↔ ∃ reply ∈ replies, reply.error?.isSome := by
  rcases h with ⟨rfl, hnone⟩ | ⟨before, reply, after, e, rfl, _, he, rfl⟩
  · refine iff_of_false (by simp) ?_
    rintro ⟨reply, hreply, hsome⟩
    rw [hnone reply hreply] at hsome
    cases hsome
  · exact iff_of_true ⟨_, rfl⟩ ⟨reply, by simp, by rw [he]; rfl⟩

section Slots

variable {destination : Nat → String}

theorem syncSlots_traced : ∀ (slots : List Slot)
    (_ : ∀ slot ∈ slots, slot.destination = destination slot.writer) (world : σ)
    (trace : List WriterReply),
    ∃ replies : List WriterReply,
      replies.map WriterReply.call = slots.map (fun slot => .sync slot.writer) ∧
      syncSlots outlet.traced (world, trace) slots =
        ((syncSlots outlet world slots).1, (syncSlots outlet world slots).2, trace ++ replies) ∧
      (syncSlots outlet world slots).1.filterMap id =
        replies.filterMap (failureOf .flush destination)
  | [], _, world, trace => ⟨[], rfl, by simp [syncSlots], rfl⟩
  | slot :: slots, hd, world, trace => by
    rcases hsync : outlet.sync slot.writer world with ⟨result, after⟩
    obtain ⟨replies, hcalls, hrest, hfailures⟩ := syncSlots_traced slots
      (fun s hs => hd s (List.mem_cons_of_mem _ hs)) after
      (trace ++ [⟨.sync slot.writer, errorOf? result⟩])
    refine ⟨⟨.sync slot.writer, errorOf? result⟩ :: replies, ?_, ?_, ?_⟩
    · rw [List.map_cons, List.map_cons, hcalls]
    · simp only [syncSlots, Outlet.traced, hsync] at hrest ⊢
      rw [hrest]
      simp
    · have hslot := hd slot List.mem_cons_self
      simp only [syncSlots, hsync]
      cases result with
      | ok _ => simpa [failureOf, errorOf?, List.filterMap_cons] using hfailures
      | error e =>
        simpa [failureOf, errorOf?, WriterCall.writer, hslot, List.filterMap_cons] using hfailures

theorem syncSlots_kinds {outlet : Outlet σ} (hkinds : outlet.KeepsKinds) :
    ∀ (slots : List Slot) (world : σ),
      outlet.kinds (syncSlots outlet world slots).2 = outlet.kinds world
  | [], _ => rfl
  | slot :: slots, world => by
    have hstep := hkinds.sync slot.writer world
    rcases hsync : outlet.sync slot.writer world with ⟨result, after⟩
    rw [hsync] at hstep
    simp only [syncSlots, hsync]
    exact (syncSlots_kinds hkinds slots after).trans hstep

/-- The call that closing makes for a writer, where `kinds` tells the writers that own files and
`closed` those that were closed before. -/
def closingCall? (kinds closed : Nat → Bool) (writer : Nat) : Option WriterCall :=
  if kinds writer then if closed writer then none else some (.close writer)
  else some (.sync writer)

variable {kinds closed : Nat → Bool}

theorem closeSlot_of_stream {slot : Slot} {world : σ}
    (h : outlet.isFileBacked slot.writer world = false) :
    closeSlot outlet world slot =
      ((outlet.sync slot.writer world).1, slot, (outlet.sync slot.writer world).2) := by
  rw [closeSlot, h]
  rfl

theorem closeSlot_of_file {slot : Slot} {world : σ}
    (h : outlet.isFileBacked slot.writer world = true) :
    closeSlot outlet world slot =
      if slot.closed then (.ok (), slot, world)
      else ((outlet.close slot.writer world).1, { slot with closed := true },
        (outlet.close slot.writer world).2) := by
  rw [closeSlot, h]
  rfl

theorem closeSlot_traced (slot : Slot) (hd : slot.destination = destination slot.writer)
    (hclosed : slot.closed = closed slot.writer) (world : σ) (hworld : outlet.kinds world = kinds)
    (trace : List WriterReply) :
    ∃ replies : List WriterReply,
      replies.map WriterReply.call = (closingCall? kinds closed slot.writer).toList ∧
      closeSlot outlet.traced (world, trace) slot =
        ((closeSlot outlet world slot).1, (closeSlot outlet world slot).2.1,
          (closeSlot outlet world slot).2.2, trace ++ replies) ∧
      replies.filterMap (failureOf .close destination) =
        ((errorOf? (closeSlot outlet world slot).1).map (.close slot.destination)).toList ∧
      (closeSlot outlet world slot).2.1 =
        { slot with closed := closed slot.writer || kinds slot.writer } := by
  have hkind : outlet.isFileBacked slot.writer world = kinds slot.writer :=
    congrFun hworld slot.writer
  -- a call that was made is the only one, and its failure that of the slot
  have hfailure : ∀ (call : WriterCall) (result : Except IoError Unit),
      call.writer = slot.writer →
      [WriterReply.mk call (errorOf? result)].filterMap (failureOf .close destination) =
        ((errorOf? result).map (.close slot.destination)).toList := by
    intro call result hcall
    cases result with
    | ok _ => rfl
    | error e => simp [failureOf, errorOf?, hcall, hd]
  unfold closingCall?
  rw [← hclosed, ← hkind]
  cases hfile : outlet.isFileBacked slot.writer world with
  | false =>
    have htraced : outlet.traced.isFileBacked slot.writer (world, trace) = false := hfile
    rw [closeSlot_of_stream outlet hfile, closeSlot_of_stream outlet.traced htraced]
    exact ⟨[⟨.sync slot.writer, errorOf? (outlet.sync slot.writer world).1⟩], rfl, rfl,
      hfailure _ _ rfl, by rw [Bool.or_false]⟩
  | true =>
    have htraced : outlet.traced.isFileBacked slot.writer (world, trace) = true := hfile
    rw [closeSlot_of_file outlet hfile, closeSlot_of_file outlet.traced htraced]
    cases hmark : slot.closed with
    | true =>
      exact ⟨[], rfl, by simp, rfl, congrArg (Slot.mk slot.destination slot.writer) hmark⟩
    | false =>
      exact ⟨[⟨.close slot.writer, errorOf? (outlet.close slot.writer world).1⟩], rfl, rfl,
        hfailure _ _ rfl, rfl⟩

theorem closeSlot_kinds {outlet : Outlet σ} (hkinds : outlet.KeepsKinds) (slot : Slot) (world : σ) :
    outlet.kinds (closeSlot outlet world slot).2.2 = outlet.kinds world := by
  unfold closeSlot
  split_ifs
  · rfl
  · exact hkinds.close slot.writer world
  · exact hkinds.sync slot.writer world

theorem closeSlots_traced {outlet : Outlet σ} (hkinds : outlet.KeepsKinds) :
    ∀ (slots : List Slot) (_ : ∀ slot ∈ slots, slot.destination = destination slot.writer)
      (_ : ∀ slot ∈ slots, slot.closed = closed slot.writer) (world : σ)
      (_ : outlet.kinds world = kinds) (trace : List WriterReply),
      ∃ replies : List WriterReply,
        replies.map WriterReply.call =
          (slots.map Slot.writer).filterMap (closingCall? kinds closed) ∧
        closeSlots outlet.traced (world, trace) slots =
          ((closeSlots outlet world slots).1, (closeSlots outlet world slots).2.1,
            (closeSlots outlet world slots).2.2, trace ++ replies) ∧
        (closeSlots outlet world slots).1.filterMap id =
          replies.filterMap (failureOf .close destination) ∧
        (closeSlots outlet world slots).2.1 =
          slots.map (fun slot => { slot with closed := closed slot.writer || kinds slot.writer }) ∧
        outlet.kinds (closeSlots outlet world slots).2.2 = kinds
  | [], _, _, world, hworld, trace => ⟨[], rfl, by simp [closeSlots], rfl, rfl, hworld⟩
  | slot :: slots, hd, hclosed, world, hworld, trace => by
    obtain ⟨now, hnow, htraced, herror, hslot⟩ := closeSlot_traced outlet slot
      (hd slot List.mem_cons_self) (hclosed slot List.mem_cons_self) world hworld trace
    have hafter := (closeSlot_kinds hkinds slot world).trans hworld
    obtain ⟨later, hlater, hrest, herrors, hslots, hend⟩ := closeSlots_traced hkinds slots
      (fun s hs => hd s (List.mem_cons_of_mem _ hs))
      (fun s hs => hclosed s (List.mem_cons_of_mem _ hs)) (closeSlot outlet world slot).2.2 hafter
      (trace ++ now)
    refine ⟨now ++ later, ?_, ?_, ?_, ?_, ?_⟩
    · rw [List.map_append, hnow, hlater, List.map_cons, List.filterMap_cons]
      cases closingCall? kinds closed slot.writer <;> rfl
    · unfold closeSlots
      rw [htraced]
      simp only [hrest, List.append_assoc]
    · unfold closeSlots
      rw [List.filterMap_append, herror, ← herrors]
      rcases closeSlot outlet world slot with ⟨_ | _, _⟩ <;> rfl
    · rw [List.map_cons, ← hslots, ← hslot]
      rfl
    · exact hend

end Slots

/-! ## The calls of a sink -/

section Calls

variable {destination : Nat → String} {kinds closed : Nat → Bool} {sink : Sink}

/-- **A record is traced as it is delivered**, and makes no call if no destination takes it. -/
theorem log_traced (now : Nat) (sink : Sink) (world : σ) (trace : List WriterReply) (r : Record) :
    ∃ replies : List WriterReply,
      replies.map WriterReply.call =
        (if sink.enabled r.severity then
          ((sink.targets r.severity).map Slot.writer).map
            (.write · (sink.encoder.encode sink.zone r))
        else []) ∧
      sink.log outlet.traced now (world, trace) r =
        { result := (sink.log outlet now world r).result
          made := (sink.log outlet now world r).made
          sink := (sink.log outlet now world r).sink
          world := ((sink.log outlet now world r).world, trace ++ replies) } ∧
      ((∃ e, (sink.log outlet now world r).result = .error e ∧ e.isTotal) ↔
        replies ≠ [] ∧ ∀ reply ∈ replies, reply.error?.isSome) := by
  unfold log
  split_ifs with henabled
  · exact emit_traced outlet now _ sink world trace r.severity
  · exact ⟨[], rfl, by simp, by simp⟩

/-- **A flush syncs every slot** and returns the first failure. -/
theorem flush_traced (hd : ∀ slot ∈ sink.slots, slot.destination = destination slot.writer)
    (world : σ) (trace : List WriterReply) :
    ∃ replies : List WriterReply,
      replies.map WriterReply.call = (sink.slots.map Slot.writer).map .sync ∧
      sink.flush outlet.traced (world, trace) =
        ((sink.flush outlet world).1, (sink.flush outlet world).2.1,
          (sink.flush outlet world).2.2, trace ++ replies) ∧
      Answers .flush destination replies (sink.flush outlet world).1 := by
  obtain ⟨replies, hcalls, htraced, hfailures⟩ := syncSlots_traced outlet sink.slots hd world trace
  refine ⟨replies, by rw [hcalls, List.map_map]; rfl, ?_, answers_firstError hfailures⟩
  unfold flush
  rw [htraced]

/-- **A close makes the calls that are left** for the slots, marks the writers that own files and
returns the first failure. -/
theorem close_traced {outlet : Outlet σ} (hkinds : outlet.KeepsKinds)
    (hd : ∀ slot ∈ sink.slots, slot.destination = destination slot.writer)
    (hclosed : ∀ slot ∈ sink.slots, slot.closed = closed slot.writer) (world : σ)
    (hworld : outlet.kinds world = kinds) (trace : List WriterReply) :
    ∃ replies : List WriterReply,
      replies.map WriterReply.call =
        (sink.slots.map Slot.writer).filterMap (closingCall? kinds closed) ∧
      sink.close outlet.traced (world, trace) =
        ((sink.close outlet world).1, (sink.close outlet world).2.1,
          (sink.close outlet world).2.2, trace ++ replies) ∧
      Answers .close destination replies (sink.close outlet world).1 ∧
      (sink.close outlet world).2.1.slots = sink.slots.map (fun slot =>
        { slot with closed := closed slot.writer || kinds slot.writer }) ∧
      outlet.kinds (sink.close outlet world).2.2 = kinds := by
  obtain ⟨replies, hcalls, htraced, hfailures, hslots, hend⟩ :=
    closeSlots_traced hkinds sink.slots hd hclosed world hworld trace
  refine ⟨replies, hcalls, ?_, answers_firstError hfailures, hslots, hend⟩
  unfold close
  rw [htraced]

variable {outlet} in
theorem log_kinds (hkinds : outlet.KeepsKinds) (now : Nat) (sink : Sink) (world : σ) (r : Record) :
    outlet.kinds (sink.log outlet now world r).world = outlet.kinds world := by
  unfold log
  split_ifs
  · exact foldl_deliver_kinds now _ hkinds _ _
  · rfl

end Calls

end Sink

end LogRouter
