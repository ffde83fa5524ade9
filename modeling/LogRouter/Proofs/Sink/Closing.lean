import LogRouter.Proofs.Sink.Replies
import LogRouter.Proofs.Sink.Slots

/-!
# Flushing and closing over the life of a sink

* `Tally`: the calls that reached the writers so far, by the numbers of flushes and closes.
  `Tally.perform` keeps it over one call of the sink, `Tally.performAll` over a run.
* **`closes_files_once`**: over any run of calls, a writer that owns files is closed once if there
  was a close and never otherwise, and a stream is synced instead. Every flush syncs every writer,
  and flushes and closes return the first failure of their own calls.
-/

namespace LogRouter

namespace Sink

/-! ## Counting calls -/

theorem count_filterMap_call {call? : Nat → Option WriterCall}
    (hcall : ∀ w call, call? w = some call → call.writer = w) (call : WriterCall) :
    ∀ ws : List Nat, (ws.filterMap call?).count call =
      if call? call.writer = some call then ws.count call.writer else 0
  | [] => by simp
  | w :: ws => by
    have ih := count_filterMap_call hcall call ws
    rw [List.filterMap_cons]
    by_cases hw : w = call.writer
    · subst hw
      cases hc : call? call.writer with
      | none => simpa [hc] using ih
      | some made =>
        by_cases hmade : made = call
        · simpa [hc, hmade] using ih
        · simpa [hc, hmade] using ih
    · cases hc : call? w with
      | none => simpa [hw] using ih
      | some made =>
        have hne : made ≠ call := by
          rintro rfl
          exact hw (hcall w made hc).symm
        simpa [hw, hne] using ih

/-! ## A tally of calls -/

namespace SinkCall

/-- The call is a flush. -/
def isFlush : SinkCall → Bool
  | flush => true
  | _ => false

/-- The call is a close. -/
def isClose : SinkCall → Bool
  | close => true
  | _ => false

end SinkCall

variable {σ : Type} {outlet : Outlet σ} {kinds : Nat → Bool} {destination : Nat → String}
  {ws : List Nat} {flushes closes : Nat} {sink : Sink} {world : σ} {trace : List WriterReply}

/-- The sink, its world and the trace after some flushes and closes, where `ws` are the distinct
writers. -/
structure Tally (outlet : Outlet σ) (kinds : Nat → Bool) (destination : Nat → String)
    (ws : List Nat) (flushes closes : Nat) (sink : Sink) (world : σ) (trace : List WriterReply) :
    Prop where
  writers : sink.slots.map Slot.writer = ws
  destination : ∀ slot ∈ sink.slots, slot.destination = destination slot.writer
  closed : ∀ slot ∈ sink.slots, slot.closed = (kinds slot.writer && decide (0 < closes))
  kinds_eq : outlet.kinds world = kinds
  count_close : ∀ w ∈ ws, (trace.map WriterReply.call).count (.close w) =
    if kinds w && decide (0 < closes) then 1 else 0
  count_sync : ∀ w ∈ ws, (trace.map WriterReply.call).count (.sync w) =
    flushes + if kinds w then 0 else closes

namespace Tally

theorem of_writes (h : Tally outlet kinds destination ws flushes closes sink world trace)
    {sink' : Sink} {world' : σ} {replies : List WriterReply} (hslots : sink'.slots = sink.slots)
    (hworld : outlet.kinds world' = outlet.kinds world) {targets : List Nat} {bytes : Bytes}
    (hcalls : replies.map WriterReply.call = targets.map (.write · bytes)) :
    Tally outlet kinds destination ws flushes closes sink' world' (trace ++ replies) where
  writers := by rw [hslots, h.writers]
  destination := by rw [hslots]; exact h.destination
  closed := by rw [hslots]; exact h.closed
  kinds_eq := hworld.trans h.kinds_eq
  count_close w hw := by
    have hnone : (targets.map (WriterCall.write · bytes)).count (.close w) = 0 :=
      List.count_eq_zero.mpr (by simp)
    rw [List.map_append, List.count_append, h.count_close w hw, hcalls, hnone, Nat.add_zero]
  count_sync w hw := by
    have hnone : (targets.map (WriterCall.write · bytes)).count (.sync w) = 0 :=
      List.count_eq_zero.mpr (by simp)
    rw [List.map_append, List.count_append, h.count_sync w hw, hcalls, hnone, Nat.add_zero]

/-- **A flush is one sync of every writer.** -/
theorem flush (h : Tally outlet kinds destination ws flushes closes sink world trace)
    (hkinds : outlet.KeepsKinds) (hn : ws.Nodup) :
    ∃ replies : List WriterReply,
      replies.map WriterReply.call = ws.map .sync ∧
      sink.flush outlet.traced (world, trace) =
        ((sink.flush outlet world).1, (sink.flush outlet world).2.1,
          (sink.flush outlet world).2.2, trace ++ replies) ∧
      Answers .flush destination replies (sink.flush outlet world).1 ∧
      Tally outlet kinds destination ws (flushes + 1) closes (sink.flush outlet world).2.1
        (sink.flush outlet world).2.2 (trace ++ replies) := by
  obtain ⟨replies, hcalls, htraced, hanswers⟩ := flush_traced outlet h.destination world trace
  rw [h.writers] at hcalls
  have hcount : ∀ w ∈ ws, (replies.map WriterReply.call).count (.close w) = 0 ∧
      (replies.map WriterReply.call).count (.sync w) = 1 := by
    intro w hw
    have hmade := fun call => @count_filterMap_call (some ∘ .sync)
      (fun w call hc => by rw [← Option.some.inj hc]; rfl) call ws
    rw [List.filterMap_eq_map] at hmade
    rw [hcalls, hmade, hmade]
    simp [WriterCall.writer, List.count_eq_one_of_mem hn hw]
  refine ⟨replies, hcalls, htraced, hanswers, h.writers, h.destination, h.closed, ?_, ?_, ?_⟩
  · exact (syncSlots_kinds hkinds sink.slots world).trans h.kinds_eq
  · intro w hw
    rw [List.map_append, List.count_append, h.count_close w hw, (hcount w hw).1, Nat.add_zero]
  · intro w hw
    rw [List.map_append, List.count_append, h.count_sync w hw, (hcount w hw).2]
    omega

/-- **A close closes every writer that owns files**, unless there was a close before, and syncs the
others. -/
theorem close (h : Tally outlet kinds destination ws flushes closes sink world trace)
    (hkinds : outlet.KeepsKinds) (hn : ws.Nodup) :
    ∃ replies : List WriterReply,
      replies.map WriterReply.call = ws.filterMap (fun w =>
        if kinds w then if closes = 0 then some (.close w) else none else some (.sync w)) ∧
      sink.close outlet.traced (world, trace) =
        ((sink.close outlet world).1, (sink.close outlet world).2.1,
          (sink.close outlet world).2.2, trace ++ replies) ∧
      Answers .close destination replies (sink.close outlet world).1 ∧
      Tally outlet kinds destination ws flushes (closes + 1) (sink.close outlet world).2.1
        (sink.close outlet world).2.2 (trace ++ replies) := by
  obtain ⟨replies, hcalls, htraced, hanswers, hslots, hend⟩ :=
    @close_traced _ _ _ (fun w => kinds w && decide (0 < closes)) _ _ hkinds h.destination h.closed
      world h.kinds_eq trace
  have hcall : closingCall? kinds (fun w => kinds w && decide (0 < closes)) = fun w =>
      if kinds w then if closes = 0 then some (.close w) else none else some (.sync w) := by
    funext w
    unfold closingCall?
    cases hw : kinds w with
    | false => rfl
    | true => by_cases hc : closes = 0 <;> simp [hw, hc, Nat.pos_iff_ne_zero]
  have hwriter : ∀ w call, (if kinds w then if closes = 0 then some (WriterCall.close w) else none
      else some (.sync w)) = some call → call.writer = w := by
    intro w call hc
    split_ifs at hc <;> rw [← Option.some.inj hc] <;> rfl
  rw [h.writers, hcall] at hcalls
  have hmade := fun call => count_filterMap_call hwriter call ws
  have hcount : ∀ w ∈ ws,
      (replies.map WriterReply.call).count (.close w) =
        (if kinds w && decide (closes = 0) then 1 else 0) ∧
      (replies.map WriterReply.call).count (.sync w) = if kinds w then 0 else 1 := by
    intro w hw
    rw [hcalls, hmade, hmade]
    simp only [WriterCall.writer, List.count_eq_one_of_mem hn hw]
    by_cases hfile : kinds w = true
    · by_cases hc : closes = 0 <;> simp [hfile, hc]
    · simp [hfile]
  refine ⟨replies, hcalls, htraced, hanswers, ?_, ?_, ?_, hend, ?_, ?_⟩
  · rw [hslots, List.map_map, ← h.writers]
    rfl
  · rw [hslots, List.forall_mem_map]
    exact h.destination
  · rw [hslots, List.forall_mem_map]
    intro slot _
    cases kinds slot.writer <;> simp
  · intro w hw
    rw [List.map_append, List.count_append, h.count_close w hw, (hcount w hw).1]
    cases kinds w with
    | false => simp
    | true => by_cases hc : closes = 0 <;> simp [hc, Nat.pos_iff_ne_zero]
  · intro w hw
    rw [List.map_append, List.count_append, h.count_sync w hw, (hcount w hw).2]
    split_ifs <;> omega

/-- **One call of the sink** adds itself to the tally, and is traced as it is made. -/
theorem perform (h : Tally outlet kinds destination ws flushes closes sink world trace)
    (hkinds : outlet.KeepsKinds) (hn : ws.Nodup) (now : Nat) (call : SinkCall) :
    ∃ replies : List WriterReply,
      sink.perform outlet.traced now (world, trace) call =
        ((sink.perform outlet now world call).1, (sink.perform outlet now world call).2,
          trace ++ replies) ∧
      Tally outlet kinds destination ws (flushes + if call.isFlush then 1 else 0)
        (closes + if call.isClose then 1 else 0) (sink.perform outlet now world call).1
        (sink.perform outlet now world call).2 (trace ++ replies) := by
  cases call with
  | emit severity bytes =>
    obtain ⟨replies, hcalls, htraced, _⟩ := emit_traced outlet now bytes sink world trace severity
    refine ⟨replies, by simp only [Sink.perform, htraced], ?_⟩
    exact h.of_writes rfl (foldl_deliver_kinds now bytes hkinds _ _) hcalls
  | log record =>
    obtain ⟨replies, hcalls, htraced, _⟩ := log_traced outlet now sink world trace record
    refine ⟨replies, by simp only [Sink.perform, htraced], ?_⟩
    have hslots : (sink.log outlet now world record).sink.slots = sink.slots := by
      unfold log
      split_ifs <;> rfl
    have hworld := log_kinds hkinds now sink world record
    split_ifs at hcalls
    · exact h.of_writes hslots hworld hcalls
    · have hnone : replies.map WriterReply.call = ([] : List Nat).map (.write · []) := hcalls
      exact h.of_writes hslots hworld hnone
  | flush =>
    obtain ⟨replies, _, htraced, _, htally⟩ := h.flush hkinds hn
    exact ⟨replies, by simp only [Sink.perform, htraced], htally⟩
  | close =>
    obtain ⟨replies, _, htraced, _, htally⟩ := h.close hkinds hn
    exact ⟨replies, by simp only [Sink.perform, htraced], htally⟩
  | reset =>
    refine ⟨[], by simp [Sink.perform], ?_⟩
    rw [List.append_nil]
    exact ⟨h.writers, h.destination, h.closed, h.kinds_eq, h.count_close, h.count_sync⟩

/-- **Over a run** the tally counts the flushes and the closes among the calls. -/
theorem performAll (hkinds : outlet.KeepsKinds) (hn : ws.Nodup) :
    ∀ (calls : List (Nat × SinkCall)) {flushes closes : Nat} {sink : Sink} {world : σ}
      {trace : List WriterReply},
      Tally outlet kinds destination ws flushes closes sink world trace →
      ∃ replies : List WriterReply,
        sink.performAll outlet.traced (world, trace) calls =
          ((sink.performAll outlet world calls).1, (sink.performAll outlet world calls).2,
            trace ++ replies) ∧
        Tally outlet kinds destination ws (flushes + calls.countP (·.2.isFlush))
          (closes + calls.countP (·.2.isClose)) (sink.performAll outlet world calls).1
          (sink.performAll outlet world calls).2 (trace ++ replies)
  | [], _, _, _, _, _, h => ⟨[], by simp [Sink.performAll], by simpa [Sink.performAll] using h⟩
  | (now, call) :: calls, _, _, sink, world, trace, h => by
    obtain ⟨replies, htraced, hstep⟩ := h.perform hkinds hn now call
    obtain ⟨later, hlater, hrest⟩ := performAll hkinds hn calls hstep
    refine ⟨replies ++ later, ?_, ?_⟩
    · unfold Sink.performAll
      rw [htraced]
      simp only [hlater, List.append_assoc]
    · have hcount : ∀ (n : Nat) (p : SinkCall → Bool), n + ((now, call) :: calls).countP (p ·.2) =
          n + (if p call then 1 else 0) + calls.countP (p ·.2) := by
        intro n p
        rw [List.countP_cons]
        dsimp only
        omega
      rw [hcount, hcount, ← List.append_assoc]
      exact hrest

end Tally

/-! ## Files are closed once -/

theorem tally_ofParts {zone : Zone} {table : RouteTable} {writers : List Nat} {encoder : Encoder}
    (h : ofParts zone table writers encoder = .ok sink) (outlet : Outlet σ) (world : σ) :
    Tally outlet (outlet.kinds world) (table.firstDestination writers) writers.eraseDups 0 0 sink
      world [] where
  writers := (ofParts_slots h).1
  destination slot hslot := ((ofParts_slots h).2 slot hslot).2
  closed slot hslot := by rw [((ofParts_slots h).2 slot hslot).1]; simp
  kinds_eq := rfl
  count_close _ _ := by simp
  count_sync _ _ := by simp

/-- **A writer that owns files is closed once**, if there was a close, and never otherwise. A stream
is not closed but synced once by every close. Every flush syncs every writer once, in the order of
their first destinations. Whatever fails, no call is left out; a flush or a close returns the first
failure of its own calls, with the first destination of the writer that failed. -/
theorem closes_files_once {zone : Zone} {table : RouteTable} {writers : List Nat}
    {encoder : Encoder} (h : ofParts zone table writers encoder = .ok sink)
    (hkinds : outlet.KeepsKinds) (world : σ) (calls : List (Nat × SinkCall)) :
    ∃ sink' world' trace,
      sink.performAll outlet world calls = (sink', world') ∧
      sink.performAll outlet.traced (world, []) calls = (sink', world', trace) ∧
      (∀ w ∈ writers,
        (trace.map WriterReply.call).count (.close w) =
          (if outlet.isFileBacked w world ∧ calls.countP (·.2.isClose) ≠ 0 then 1 else 0) ∧
        (trace.map WriterReply.call).count (.sync w) = calls.countP (·.2.isFlush) +
          if outlet.isFileBacked w world then 0 else calls.countP (·.2.isClose)) ∧
      (∃ replies result after world'',
        sink'.flush outlet world' = (result, after, world'') ∧
        sink'.flush outlet.traced (world', trace) = (result, after, world'', trace ++ replies) ∧
        replies.map WriterReply.call = writers.eraseDups.map .sync ∧
        Answers .flush (table.firstDestination writers) replies result) ∧
      (∃ replies result after world'',
        sink'.close outlet world' = (result, after, world'') ∧
        sink'.close outlet.traced (world', trace) = (result, after, world'', trace ++ replies) ∧
        replies.map WriterReply.call = writers.eraseDups.filterMap (fun w =>
          if outlet.isFileBacked w world then
            if calls.countP (·.2.isClose) = 0 then some (.close w) else none
          else some (.sync w)) ∧
        Answers .close (table.firstDestination writers) replies result) := by
  have hn := nodup_eraseDups writers
  obtain ⟨trace, htraced, htally⟩ :=
    Tally.performAll hkinds hn calls (tally_ofParts h outlet world)
  rw [List.nil_append] at htraced htally
  rw [Nat.zero_add, Nat.zero_add] at htally
  obtain ⟨flushed, hflushed, hflush, hflushanswers, _⟩ := htally.flush hkinds hn
  obtain ⟨closed, hclosed, hclose, hcloseanswers, _⟩ := htally.close hkinds hn
  refine ⟨_, _, trace, rfl, htraced, fun w hw => ⟨?_, ?_⟩,
    ⟨flushed, _, _, _, rfl, hflush, hflushed, hflushanswers⟩,
    ⟨closed, _, _, _, rfl, hclose, hclosed, hcloseanswers⟩⟩
  · rw [htally.count_close w (List.mem_eraseDups.mpr hw)]
    refine if_congr ?_ rfl rfl
    rw [Bool.and_eq_true, decide_eq_true_eq, Nat.pos_iff_ne_zero]
    rfl
  · exact htally.count_sync w (List.mem_eraseDups.mpr hw)

/-- Writer 7 owns files and cannot be closed; no writer can be synced. -/
def stuckOutlet : Outlet Unit where
  write _ bytes _ := (.ok bytes.length, ())
  sync _ _ := (.error .invalidArgument, ())
  close _ _ := (.error .storageFull, ())
  isFileBacked writer _ := writer = 7

/-- Writer 7 serves `a` and `c`. It cannot be closed, and is closed once all the same; the stream of
writer 4 cannot be synced, and is synced by the flush and by both closes. -/
theorem closes_files_once_with_failures :
    ∃ sink trace,
      ofParts .utc ⟨[⟨.all, .atLeast .info, [⟨0⟩, ⟨1⟩, ⟨2⟩]⟩], #["a", "b", "c"], []⟩ [7, 4, 7]
        .json = .ok sink ∧
      stuckOutlet.KeepsKinds ∧
      (sink.performAll stuckOutlet.traced ((), [])
        [(0, .flush), (0, .close), (0, .emit .error [104, 105]), (0, .close)]).2.2 = trace ∧
      (trace.map WriterReply.call).count (.close 7) = 1 ∧
      (trace.map WriterReply.call).count (.sync 7) = 1 ∧
      (trace.map WriterReply.call).count (.close 4) = 0 ∧
      (trace.map WriterReply.call).count (.sync 4) = 3 := by
  have hkinds : stuckOutlet.KeepsKinds :=
    ⟨fun _ _ _ => rfl, fun _ _ => rfl, fun _ _ => rfl, fun _ _ => rfl⟩
  obtain ⟨sink, hsink⟩ : ∃ sink, ofParts .utc
      ⟨[⟨.all, .atLeast .info, [⟨0⟩, ⟨1⟩, ⟨2⟩]⟩], #["a", "b", "c"], []⟩ [7, 4, 7] .json = .ok sink :=
    ⟨_, rfl⟩
  obtain ⟨_, _, trace, _, htraced, hcounts, _⟩ := closes_files_once hsink hkinds ()
    [(0, .flush), (0, .close), (0, .emit .error [104, 105]), (0, .close)]
  obtain ⟨hclose₇, hsync₇⟩ := hcounts 7 (by decide)
  obtain ⟨hclose₄, hsync₄⟩ := hcounts 4 (by decide)
  exact ⟨sink, trace, hsink, hkinds, by rw [htraced], hclose₇, hsync₇, hclose₄, hsync₄⟩

end Sink

end LogRouter
