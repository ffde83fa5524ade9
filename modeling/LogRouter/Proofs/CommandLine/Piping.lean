import LogRouter.CommandLine.Session
import LogRouter.Proofs.Level.Severity
import LogRouter.Proofs.Sink.Replies
import LogRouter.Proofs.Sink.Slots
import LogRouter.Proofs.Text.Utf8

/-!
# Logging lines

* `LineMeans`: the severity and the message of a line. **`splitLevel_eq_iff`**: the program reads
  lines as that.
* `PipeHost.KeepsKinds`: the writers that lines go to stay of their kinds, as those of the program
  do (`keepsKinds_pipeHost`).
* `feed_traced`, `finish_traced`: what one line and the end of the input do to the writers.
* **`run_logs_lines`**: every line that is not empty is one record, which its writers get in the
  order of the lines. Then all writers are synced and closed. The run fails if that failed, or if no
  write of some record succeeded.
-/

namespace LogRouter.CommandLine

/-! ## The severity of a line -/

/-- The severity and the message of a line, where `level` is that of a line without a severity. -/
inductive LineMeans (level : Severity) (line : List Char) : Severity → List Char → Prop where
  /-- What stands before the first colon names a severity. -/
  | named {head rest : List Char} {severity : Severity} (hline : line = head ++ ':' :: rest)
      (hcolon : ':' ∉ head) (hname : severity.IsNamedBy head) :
      LineMeans level line severity (Text.trimStart rest)
  /-- There is no colon, or what stands before the first one names no severity. -/
  | plain (h : ∀ head rest severity, line = head ++ ':' :: rest → ':' ∉ head →
      ¬ Severity.IsNamedBy severity head) :
      LineMeans level line level line

section Lines

variable {level severity : Severity} {head rest line message : List Char}

theorem split_at_colon (h : ':' ∉ head) (rest : List Char) :
    (head ++ ':' :: rest).takeWhile (· ≠ ':') = head ∧
      (head ++ ':' :: rest).dropWhile (· ≠ ':') = ':' :: rest := by
  have hhead : ∀ c ∈ head, decide (c ≠ ':') = true := fun c hc =>
    decide_eq_true fun heq => h (heq ▸ hc)
  rw [List.takeWhile_append_of_pos hhead, List.dropWhile_append_of_pos hhead]
  simp

theorem first_colon_unique {head' rest' : List Char} (h : ':' ∉ head) (h' : ':' ∉ head')
    (heq : head ++ ':' :: rest = head' ++ ':' :: rest') : head = head' ∧ rest = rest' := by
  obtain ⟨htake, hdrop⟩ := split_at_colon h rest
  obtain ⟨htake', hdrop'⟩ := split_at_colon h' rest'
  rw [heq] at htake hdrop
  exact ⟨htake.symm.trans htake', (List.cons.inj (hdrop.symm.trans hdrop')).2⟩

theorem splitLevel_of_no_colon (h : ':' ∉ line) : splitLevel level line = (level, line) := by
  have hdrop : line.dropWhile (· ≠ ':') = [] :=
    List.dropWhile_eq_nil_iff.mpr fun c hc => decide_eq_true fun heq => h (heq ▸ hc)
  rw [splitLevel, hdrop]

theorem splitLevel_of_colon (h : ':' ∉ head) (rest : List Char) :
    splitLevel level (head ++ ':' :: rest) =
      match Severity.ofName? (String.ofList head) with
      | some severity => (severity, Text.trimStart rest)
      | none => (level, head ++ ':' :: rest) := by
  obtain ⟨htake, hdrop⟩ := split_at_colon h rest
  cases hname : Severity.ofName? (String.ofList head) <;>
    simp only [splitLevel, hdrop, htake, hname]

/-- **Lines are read as they are meant.** -/
theorem splitLevel_eq_iff :
    splitLevel level line = (severity, message) ↔ LineMeans level line severity message := by
  by_cases hline : ':' ∈ line
  swap
  · rw [splitLevel_of_no_colon hline]
    constructor
    · rintro ⟨⟩
      exact .plain fun head rest _ heq => absurd (by simp [heq]) hline
    · rintro (⟨rfl, _, _⟩ | _)
      · exact absurd (by simp) hline
      · rfl
  obtain ⟨head, rest, rfl, hcolon⟩ := List.eq_append_cons_of_mem hline
  have hnamed : ∀ {severity : Severity}, Severity.ofName? (String.ofList head) = some severity ↔
      severity.IsNamedBy head := by
    intro severity
    rw [Severity.ofName?_eq_some_iff, String.toList_ofList]
  rw [splitLevel_of_colon hcolon]
  cases hname : Severity.ofName? (String.ofList head) with
  | some found =>
    constructor
    · rintro ⟨⟩
      exact .named rfl hcolon (hnamed.mp hname)
    · rintro (⟨heq, hcolon', hname'⟩ | h)
      · obtain ⟨rfl, rfl⟩ := first_colon_unique hcolon hcolon' heq
        rw [Option.some.inj (hname.symm.trans (hnamed.mpr hname'))]
      · exact absurd (hnamed.mp hname) (h _ _ _ rfl hcolon)
  | none =>
    constructor
    · rintro ⟨⟩
      refine .plain fun head' rest' severity heq hcolon' hname' => ?_
      obtain ⟨rfl, rfl⟩ := first_colon_unique hcolon hcolon' heq
      cases hname.symm.trans (hnamed.mpr hname')
    · rintro (⟨heq, hcolon', hname'⟩ | _)
      · obtain ⟨rfl, rfl⟩ := first_colon_unique hcolon hcolon' heq
        cases hname.symm.trans (hnamed.mpr hname')
      · rfl

end Lines

/-! ## Hosts -/

namespace PipeHost

variable {σ : Type}

/-- The same host, with a trace of what its writers reply. -/
def traced (host : PipeHost σ) : PipeHost (σ × List WriterReply) where
  outlet := host.outlet.traced
  tick time world := (host.tick time world.1, world.2)

/-- Neither the operations on the writers nor the clock change which writers own files. -/
structure KeepsKinds (host : PipeHost σ) : Prop where
  outlet : host.outlet.KeepsKinds
  tick : ∀ time world, host.outlet.kinds (host.tick time world) = host.outlet.kinds world

end PipeHost

namespace Session

theorem kinds_congr (filter : String) {fleet fleet' : Fleet}
    (h : fleet'.writers.map LogWriter.isFileBacked = fleet.writers.map LogWriter.isFileBacked) :
    (pipeHost filter).outlet.kinds fleet' = (pipeHost filter).outlet.kinds fleet := by
  have hkind : ∀ (fleet : Fleet) (i : Nat), Fleet.isFileBacked i fleet =
      ((fleet.writers.map LogWriter.isFileBacked)[i]?).getD false := by
    intro fleet i
    rw [List.getElem?_map]
    unfold Fleet.isFileBacked Fleet.writer?
    cases fleet.writers[i]? <;> rfl
  funext i
  have hafter := hkind fleet' i
  rw [h] at hafter
  exact hafter.trans (hkind fleet i).symm

theorem warn_writers (filter : String) (fleet : Fleet) (d : Diagnostic) :
    (warn filter fleet d).writers = fleet.writers := by
  unfold warn
  split_ifs <;> rfl

/-- **The writers of the program stay of their kinds** while lines are logged. -/
theorem keepsKinds_pipeHost (filter : String) : (pipeHost filter).KeepsKinds where
  outlet := {
    write := Fleet.keepsKinds_outlet.write
    sync := Fleet.keepsKinds_outlet.sync
    close := Fleet.keepsKinds_outlet.close
    report := fun report fleet =>
      kinds_congr filter (congrArg _ (warn_writers filter fleet (.ofReport report))) }
  tick time fleet := by
    refine kinds_congr filter ?_
    change (fleet.writers.map LogWriter.settled).map LogWriter.isFileBacked = _
    rw [List.map_map]
    refine List.map_congr_left fun w _ => ?_
    cases w <;> rfl

end Session

/-! ## One line, and the end of the input -/

namespace Pipe

variable {σ : Type} {host : PipeHost σ} {options : PipeOptions}

/-- The state with a trace beside its world. -/
def withTrace (p : Pipe σ) (trace : List WriterReply) : Pipe (σ × List WriterReply) :=
  ⟨p.sink, (p.world, trace), p.undelivered⟩

/-- There are replies, and all of them are failures. -/
def allFailed (replies : List WriterReply) : Bool :=
  !replies.isEmpty && replies.all (·.error?.isSome)

theorem allFailed_iff {replies : List WriterReply} :
    allFailed replies = true ↔ replies ≠ [] ∧ ∀ reply ∈ replies, reply.error?.isSome := by
  simp [allFailed]

theorem isLost_iff {result : Except EmitError Unit} :
    isLost result = true ↔ ∃ e, result = .error e ∧ e.isTotal := by
  cases result <;> simp [isLost]

/-- Two sinks differ in their counters at most. -/
def SameParts (a b : Sink) : Prop :=
  ∃ metrics reports, b = { a with metrics := metrics, reports := reports }

theorem SameParts.trans {a b c : Sink} (h : SameParts a b) (h' : SameParts b c) :
    SameParts a c := by
  obtain ⟨_, _, rfl⟩ := h
  obtain ⟨metrics, reports, rfl⟩ := h'
  exact ⟨metrics, reports, rfl⟩

theorem log_sameParts (outlet : Outlet σ) (now : Nat) (sink : Sink) (world : σ) (r : Record) :
    SameParts sink (sink.log outlet now world r).sink := by
  unfold Sink.log
  split_ifs
  · exact ⟨_, _, rfl⟩
  · exact ⟨sink.metrics, sink.reports, rfl⟩

/-- **A line that is not empty** is logged as its record, and counted if no write of it succeeded. -/
theorem feed_traced (hkinds : host.KeepsKinds) (p : Pipe σ) (trace : List WriterReply)
    (time : Instant) {line : List Char} (hline : line ≠ []) :
    ∃ replies : List WriterReply,
      (p.withTrace trace).feed host.traced options time line =
        (p.feed host options time line).withTrace (trace ++ replies) ∧
      replies.map WriterReply.call =
        (if p.sink.enabled (recordOf options time line).severity then
          ((p.sink.targets (recordOf options time line).severity).map Slot.writer).map
            (.write · (p.sink.encoder.encode p.sink.zone (recordOf options time line)))
        else []) ∧
      (p.feed host options time line).undelivered =
        p.undelivered + (if allFailed replies then 1 else 0) ∧
      SameParts p.sink (p.feed host options time line).sink ∧
      host.outlet.kinds (p.feed host options time line).world = host.outlet.kinds p.world := by
  obtain ⟨replies, hcalls, hlog, hlost⟩ := Sink.log_traced host.outlet time.total.toNat p.sink
    (host.tick time p.world) trace (recordOf options time line)
  have hempty : line.isEmpty = false := by simpa using hline
  refine ⟨replies, ?_, hcalls, ?_, ?_, ?_⟩
  · unfold feed
    rw [hempty]
    simp only [withTrace, PipeHost.traced, hlog]
    rfl
  · have hiff : isLost (p.sink.log host.outlet time.total.toNat (host.tick time p.world)
        (recordOf options time line)).result = allFailed replies := by
      rw [Bool.eq_iff_iff, isLost_iff, allFailed_iff, hlost]
    unfold feed
    rw [hempty]
    simp only [hiff, Bool.false_eq_true, if_false]
    split_ifs <;> rfl
  · unfold feed
    rw [hempty]
    exact log_sameParts _ _ _ _ _
  · unfold feed
    rw [hempty]
    exact (Sink.log_kinds hkinds.outlet _ _ _ _).trans (hkinds.tick time p.world)

theorem finish_spec (p : Pipe σ) {flushed closed : Except SinkError Unit} {sink sink' : Sink}
    {world world' : σ} (hflush : p.sink.flush host.outlet p.world = (flushed, sink, world))
    (hclose : sink.close host.outlet world = (closed, sink', world')) :
    (p.finish host).2 = world' ∧
      ((∃ e, (p.finish host).1 = .error e) ↔
        (∃ e, flushed = .error e) ∨ (∃ e, closed = .error e) ∨ p.undelivered ≠ 0) := by
  unfold finish
  rw [hflush]
  simp only [hclose]
  cases closed with
  | error e => exact ⟨rfl, iff_of_true ⟨_, rfl⟩ (Or.inr (Or.inl ⟨e, rfl⟩))⟩
  | ok _ =>
    cases flushed with
    | error e => exact ⟨rfl, iff_of_true ⟨_, rfl⟩ (Or.inl ⟨e, rfl⟩)⟩
    | ok _ =>
      refine ⟨rfl, ?_⟩
      by_cases hlost : p.undelivered = 0 <;> simp [hlost]

theorem finish_result (p : Pipe σ) (trace trace' trace'' : List WriterReply)
    {flushed closed : Except SinkError Unit} {sink sink' : Sink} {world world' : σ}
    (hflush : p.sink.flush host.outlet p.world = (flushed, sink, world))
    (hclose : sink.close host.outlet world = (closed, sink', world'))
    (hflush' : p.sink.flush host.outlet.traced (p.world, trace) = (flushed, sink, world, trace'))
    (hclose' : sink.close host.outlet.traced (world, trace') = (closed, sink', world', trace'')) :
    (p.withTrace trace).finish host.traced = ((p.finish host).1, (p.finish host).2, trace'') := by
  have htraced : (p.withTrace trace).sink.flush host.traced.outlet (p.withTrace trace).world =
      (flushed, sink, world, trace') := hflush'
  unfold finish
  rw [hflush, htraced]
  simp only [hclose]
  have hclose'' : sink.close host.traced.outlet (world, trace') = (closed, sink', world', trace'') :=
    hclose'
  rw [hclose'']
  cases closed <;> cases flushed <;> rfl

/-- **At the end of the input** every writer is synced and then closed. A run fails if that failed
or if records were lost. -/
theorem finish_traced (hkinds : host.KeepsKinds) (p : Pipe σ) {destination : Nat → String}
    (hd : ∀ slot ∈ p.sink.slots, slot.destination = destination slot.writer)
    (hopen : ∀ slot ∈ p.sink.slots, slot.closed = false) (trace : List WriterReply) :
    ∃ synced closed : List WriterReply,
      (p.withTrace trace).finish host.traced =
        ((p.finish host).1, (p.finish host).2, trace ++ (synced ++ closed)) ∧
      synced.map WriterReply.call = (p.sink.slots.map Slot.writer).map .sync ∧
      closed.map WriterReply.call = (p.sink.slots.map Slot.writer).map (fun w =>
        if host.outlet.kinds p.world w then .close w else .sync w) ∧
      ((∃ e, (p.finish host).1 = .error e) ↔
        (∃ reply ∈ synced ++ closed, reply.error?.isSome) ∨ p.undelivered ≠ 0) := by
  obtain ⟨synced, hsynced, hflush, hflushed⟩ := Sink.flush_traced host.outlet hd p.world trace
  have hworld : host.outlet.kinds (p.sink.flush host.outlet p.world).2.2 =
      host.outlet.kinds p.world := Sink.syncSlots_kinds hkinds.outlet p.sink.slots p.world
  have hslots : (p.sink.flush host.outlet p.world).2.1.slots = p.sink.slots := rfl
  rcases hflush₀ : p.sink.flush host.outlet p.world with ⟨flushed, sink, world⟩
  rw [hflush₀] at hflush hflushed hworld hslots
  -- a flush changes no slot, so the close finds the writers as they were
  rw [← hslots] at hd hopen
  obtain ⟨closed, hclosed, hclose, hcloses, _⟩ :=
    @Sink.close_traced _ _ _ (fun _ => false) sink _ hkinds.outlet hd hopen world hworld
      (trace ++ synced)
  rcases hclose₀ : sink.close host.outlet world with ⟨result, sink', world'⟩
  rw [hclose₀] at hclose hcloses
  have hcall : Sink.closingCall? (host.outlet.kinds p.world) (fun _ => false) = fun w =>
      some (if host.outlet.kinds p.world w then WriterCall.close w else .sync w) := by
    funext w
    by_cases hw : host.outlet.kinds p.world w = true <;> simp [Sink.closingCall?, hw]
  refine ⟨synced, closed, ?_, hsynced, ?_, ?_⟩
  · rw [← List.append_assoc]
    exact finish_result p trace _ _ hflush₀ hclose₀ hflush hclose
  · rw [hclosed, hcall, List.filterMap_eq_map', hslots]
  · rw [(finish_spec p hflush₀ hclose₀).2, hflushed.error_iff, hcloses.error_iff, ← or_assoc]
    simp only [List.mem_append, or_and_right, exists_or]

/-! ## All lines -/

/-- The lines as the bytes that are read. -/
def encodeLines (lines : List (Instant × List Char)) : List (Instant × Bytes) :=
  lines.map fun line => (line.1, Utf8.encode line.2)

/-- The record is the one of a line. -/
structure IsRecordOf (options : PipeOptions) (line : Instant × List Char) (r : Record) : Prop where
  time : r.time = line.1
  means : LineMeans options.level line.2 r.severity r.message.toList
  target : r.target = options.target
  fields : r.fields = []

theorem isRecordOf_recordOf (options : PipeOptions) (line : Instant × List Char) :
    IsRecordOf options line (recordOf options line.1 line.2) := by
  rcases hsplit : splitLevel options.level line.2 with ⟨severity, message⟩
  have hmeans := splitLevel_eq_iff.mp hsplit
  unfold recordOf
  rw [hsplit]
  exact ⟨rfl, by rwa [String.toList_ofList], rfl, rfl⟩

/-- What was written to a writer, in the order of the writes. -/
def received (writer : Nat) (trace : List WriterReply) : List Bytes :=
  trace.filterMap fun reply =>
    match reply.call with
    | .write w bytes => if w = writer then some bytes else none
    | _ => none

theorem received_append (writer : Nat) (trace trace' : List WriterReply) :
    received writer (trace ++ trace') = received writer trace ++ received writer trace' :=
  List.filterMap_append

theorem received_writes (writer : Nat) {bytes : Bytes} : ∀ {replies : List WriterReply}
    {targets : List Nat}, replies.map WriterReply.call = targets.map (.write · bytes) →
      received writer replies = List.replicate (targets.count writer) bytes
  | [], [], _ => rfl
  | [], _ :: _, h => by cases h
  | _ :: _, [], h => by cases h
  | reply :: replies, w :: targets, h => by
    obtain ⟨hcall, hrest⟩ := List.cons.inj h
    have ih := received_writes writer hrest
    unfold received at ih ⊢
    rw [List.filterMap_cons, hcall, ih]
    by_cases hw : w = writer
    · subst hw
      simp [List.replicate_succ]
    · simp [hw]

theorem received_of_no_write (writer : Nat) {replies : List WriterReply} {calls : List WriterCall}
    (hcalls : replies.map WriterReply.call = calls)
    (h : ∀ call ∈ calls, ∀ w bytes, call ≠ .write w bytes) : received writer replies = [] := by
  refine List.filterMap_eq_nil_iff.mpr fun reply hreply => ?_
  have hno := h reply.call (hcalls ▸ List.mem_map_of_mem hreply)
  split
  · rename_i w bytes hcall
    exact absurd hcall (hno w bytes)
  · rfl

section Run

variable {zone : Zone} {table : RouteTable} {writers : List Nat} {encoder : Encoder} {sink : Sink}

/-- The replies are those of the writes that a record asks for. -/
def IsDelivery (table : RouteTable) (writers : List Nat) (zone : Zone) (encoder : Encoder)
    (r : Record) (replies : List WriterReply) : Prop :=
  replies.map WriterReply.call =
    (table.recipients writers r.severity).map (.write · (encoder.encode zone r))

theorem calls_eq (h : Sink.ofParts zone table writers encoder = .ok sink) {sink' : Sink}
    (hparts : SameParts sink sink') (r : Record) :
    (if sink'.enabled r.severity then
        ((sink'.targets r.severity).map Slot.writer).map
          (WriterCall.write · (sink'.encoder.encode sink'.zone r))
      else []) =
      (table.recipients writers r.severity).map (.write · (encoder.encode zone r)) := by
  obtain ⟨metrics, reports, rfl⟩ := hparts
  have htargets := Sink.ofParts_targets h r.severity
  have htable : sink.table = table ∧ sink.encoder = encoder ∧ sink.zone = zone := by
    unfold Sink.ofParts at h
    split_ifs at h
    obtain rfl := Except.ok.inj h
    exact ⟨rfl, rfl, rfl⟩
  obtain ⟨rfl, rfl, rfl⟩ := htable
  split_ifs with henabled
  · change ((sink.targets r.severity).map Slot.writer).map _ = _
    rw [htargets]
  · have hnone := RouteTable.recipients_of_not_accepts (Bool.eq_false_of_not_eq_true henabled) writers
    rw [hnone, List.map_nil]

/-- **Each line is delivered as its record**, and the records that are lost are counted. -/
theorem run_traced (h : Sink.ofParts zone table writers encoder = .ok sink)
    (hkinds : host.KeepsKinds) :
    ∀ (lines : List (Instant × List Char)) (p : Pipe σ) (trace : List WriterReply),
      SameParts sink p.sink →
      ∃ (groups : List (List WriterReply)) (p' : Pipe σ),
        p.run host options (encodeLines lines) = p'.finish host ∧
        (p.withTrace trace).run host.traced options (encodeLines lines) =
          (p'.withTrace (trace ++ groups.flatten)).finish host.traced ∧
        List.Forall₂ (IsDelivery table writers zone encoder)
          ((lines.filter (!·.2.isEmpty)).map fun line => recordOf options line.1 line.2) groups ∧
        p'.undelivered = p.undelivered + groups.countP allFailed ∧
        SameParts sink p'.sink ∧ host.outlet.kinds p'.world = host.outlet.kinds p.world
  | [], p, trace, hparts => ⟨[], p, rfl, by rw [List.flatten_nil, List.append_nil]; rfl,
      .nil, rfl, hparts, rfl⟩
  | (time, line) :: lines, p, trace, hparts => by
    have hrun : ∀ {τ : Type} (host : PipeHost τ) (p : Pipe τ),
        run host options p (encodeLines ((time, line) :: lines)) =
          run host options (p.feed host options time line) (encodeLines lines) := by
      intro τ host p
      change run host options p ((time, Utf8.encode line) :: encodeLines lines) = _
      rw [run, feedBytes?, Utf8.decode?_encode]
      rfl
    rw [hrun, hrun]
    by_cases hline : line = []
    · -- an empty line changes nothing
      subst hline
      exact run_traced h hkinds lines p trace hparts
    obtain ⟨replies, hfeed, hcalls, hlost, hsame, hworld⟩ :=
      @feed_traced _ host options hkinds p trace time line hline
    obtain ⟨groups, p', hrest, htraced, hgroups, hundelivered, hparts', hworld'⟩ :=
      run_traced h hkinds lines (p.feed host options time line) (trace ++ replies)
        (hparts.trans hsame)
    refine ⟨replies :: groups, p', hrest, ?_, ?_, ?_, hparts', hworld'.trans hworld⟩
    · rw [hfeed, htraced, List.flatten_cons, List.append_assoc]
    · rw [List.filter_cons_of_pos (by simpa using hline), List.map_cons]
      exact .cons (hcalls.trans (calls_eq h hparts _)) hgroups
    · rw [hundelivered, hlost, List.countP_cons]
      omega

theorem received_deliveries (writer : Nat) {records : List Record}
    {groups : List (List WriterReply)}
    (h : List.Forall₂ (IsDelivery table writers zone encoder) records groups) :
    received writer groups.flatten = records.flatMap fun r =>
      List.replicate ((table.routesFor r.severity).countP fun route =>
        decide (writer ∈ route.owners writers)) (encoder.encode zone r) := by
  induction h with
  | nil => rfl
  | cons hcalls _ ih =>
    rw [List.flatten_cons, received_append, received_writes writer hcalls, ih, List.flatMap_cons,
      RouteTable.count_recipients]

/-- **Logging lines.** Every line that is not empty is one record, in the order of the lines. A writer
gets the encoding of each record once for every route that takes its severity and leads to the
writer. In the end all writers are synced, and then those that own files are closed and the streams
are synced again, whatever fails. The run fails exactly if one of these calls failed or all writes of
some record did, of which there was one at least. -/
theorem run_logs_lines (h : Sink.ofParts zone table writers encoder = .ok sink)
    (hkinds : host.KeepsKinds) (options : PipeOptions) (world : σ)
    (lines : List (Instant × List Char)) :
    ∃ (result : Except CommandError Unit) (world' : σ) (records : List Record)
      (groups : List (List WriterReply)) (synced closed : List WriterReply),
      run host options (.start sink world) (encodeLines lines) = (result, world') ∧
      run host.traced options (.start sink (world, [])) (encodeLines lines) =
        (result, world', groups.flatten ++ (synced ++ closed)) ∧
      List.Forall₂ (IsRecordOf options) (lines.filter (!·.2.isEmpty)) records ∧
      List.Forall₂ (IsDelivery table writers zone encoder) records groups ∧
      (∀ writer, received writer (groups.flatten ++ (synced ++ closed)) =
        records.flatMap fun r => List.replicate
          ((table.routesFor r.severity).countP fun route => decide (writer ∈ route.owners writers))
          (encoder.encode zone r)) ∧
      synced.map WriterReply.call = writers.eraseDups.map .sync ∧
      closed.map WriterReply.call = writers.eraseDups.map (fun w =>
        if host.outlet.isFileBacked w world then .close w else .sync w) ∧
      ((∃ e, result = .error e) ↔ (∃ reply ∈ synced ++ closed, reply.error?.isSome) ∨
        ∃ group ∈ groups, group ≠ [] ∧ ∀ reply ∈ group, reply.error?.isSome) := by
  obtain ⟨groups, p', hrun, htraced, hgroups, hlost, hparts, hworld⟩ :=
    @run_traced _ host options _ _ _ _ _ h hkinds lines (.start sink world) []
      ⟨sink.metrics, sink.reports, rfl⟩
  obtain ⟨hwriters, hslots⟩ := Sink.ofParts_slots h
  have hsame : p'.sink.slots = sink.slots := by
    obtain ⟨_, _, hsink⟩ := hparts
    rw [hsink]
  obtain ⟨synced, closed, hfinish, hsynced, hclosed, hresult⟩ :=
    finish_traced hkinds p' (by rw [hsame]; exact fun slot hslot => (hslots slot hslot).2)
      (by rw [hsame]; exact fun slot hslot => (hslots slot hslot).1) ([] ++ groups.flatten)
  rw [hsame, hwriters] at hsynced hclosed
  rw [List.nil_append] at hfinish htraced
  have hrecords : List.Forall₂ (IsRecordOf options) (lines.filter (!·.2.isEmpty))
      ((lines.filter (!·.2.isEmpty)).map fun line => recordOf options line.1 line.2) :=
    List.forall₂_map_right_iff.mpr (List.forall₂_same.mpr fun line _ =>
      isRecordOf_recordOf options line)
  -- the calls at the end are no writes
  have hend : ∀ writer, received writer (synced ++ closed) = [] := by
    intro writer
    rw [received_append, received_of_no_write writer hsynced (by simp),
      received_of_no_write writer hclosed, List.append_nil]
    rw [List.forall_mem_map]
    intro w _ _ _
    split_ifs <;> simp
  refine ⟨(p'.finish host).1, (p'.finish host).2, _, groups, synced, closed, hrun,
    htraced.trans hfinish, hrecords, hgroups, fun writer => ?_, hsynced, ?_, hresult.trans ?_⟩
  · rw [received_append, hend, List.append_nil, received_deliveries writer hgroups]
  · rw [hclosed, hworld]
    rfl
  · refine or_congr Iff.rfl ?_
    rw [hlost, start, Nat.zero_add, ← Nat.pos_iff_ne_zero, List.countP_pos_iff]
    simp only [allFailed_iff]

/-- Writer 7 owns files, and none of its writes succeeds. -/
def deafHost : PipeHost Unit where
  outlet := {
    write := fun writer bytes _ => (if writer = 7 then .error .storageFull else .ok bytes.length, ())
    sync := fun _ _ => (.ok (), ())
    close := fun _ _ => (.ok (), ())
    isFileBacked := fun writer _ => writer = 7 }
  tick _ _ := ()

/-- Everything from `info` on goes to `a`, and warnings go to `a` once more and to `b`. -/
def twoRoutes : RouteTable :=
  ⟨[⟨.all, .atLeast .info, [⟨0⟩]⟩, ⟨.level .warn, .exactly .warn, [⟨0⟩, ⟨1⟩]⟩], #["a", "b"], []⟩

/-- Three lines, of which one is empty, one names a severity and one has a colon only. -/
theorem run_logs_three_lines :
    ∃ sink result trace r₁ r₂,
      Sink.ofParts .utc twoRoutes [7, 4] .json = .ok sink ∧ deafHost.KeepsKinds ∧
      run deafHost.traced ⟨.info, "stdin"⟩ (.start sink ((), [])) (encodeLines
        [(⟨0, 0⟩, "WARNING : low".toList), (⟨0, 0⟩, []), (⟨1, 0⟩, "a: b".toList)]) =
        (result, (), trace) ∧
      r₁.severity = .warn ∧ r₁.message.toList = "low".toList ∧
      r₂.severity = .info ∧ r₂.message.toList = "a: b".toList ∧
      received 7 trace = [Encoder.json.encode .utc r₁, Encoder.json.encode .utc r₁,
        Encoder.json.encode .utc r₂] ∧
      received 4 trace = [Encoder.json.encode .utc r₁] := by
  obtain ⟨sink, hsink⟩ : ∃ sink, Sink.ofParts .utc twoRoutes [7, 4] .json = .ok sink := ⟨_, rfl⟩
  have hkinds : deafHost.KeepsKinds :=
    ⟨⟨fun _ _ _ => rfl, fun _ _ => rfl, fun _ _ => rfl, fun _ _ => rfl⟩, fun _ _ => rfl⟩
  obtain ⟨result, _, records, groups, synced, closed, _, hrun, hrecords, _, hreceived, _⟩ :=
    run_logs_lines hsink hkinds ⟨.info, "stdin"⟩ ()
      [(⟨0, 0⟩, "WARNING : low".toList), (⟨0, 0⟩, []), (⟨1, 0⟩, "a: b".toList)]
  have hlines : [((⟨0, 0⟩ : Instant), "WARNING : low".toList), (⟨0, 0⟩, []),
      (⟨1, 0⟩, "a: b".toList)].filter (!·.2.isEmpty) =
      [(⟨0, 0⟩, "WARNING : low".toList), (⟨1, 0⟩, "a: b".toList)] := by decide
  rw [hlines] at hrecords
  obtain ⟨r₁, _, h₁, hrest, rfl⟩ := List.forall₂_cons_left_iff.mp hrecords
  obtain ⟨r₂, _, h₂, hnil, rfl⟩ := List.forall₂_cons_left_iff.mp hrest
  obtain rfl := List.forall₂_nil_left_iff.mp hnil
  have hwarn := (splitLevel_eq_iff.mpr h₁.means).symm.trans
    (by decide : splitLevel .info "WARNING : low".toList = (.warn, "low".toList))
  have hinfo := (splitLevel_eq_iff.mpr h₂.means).symm.trans
    (by decide : splitLevel .info "a: b".toList = (.info, "a: b".toList))
  obtain ⟨hs₁, hm₁⟩ := Prod.mk.inj hwarn
  obtain ⟨hs₂, hm₂⟩ := Prod.mk.inj hinfo
  refine ⟨sink, result, _, r₁, r₂, hsink, hkinds, hrun, hs₁, hm₁, hs₂, hm₂, ?_, ?_⟩
  · rw [hreceived, List.flatMap_cons, List.flatMap_cons, hs₁, hs₂]
    rfl
  · rw [hreceived, List.flatMap_cons, List.flatMap_cons, hs₁, hs₂]
    rfl

end Run

end Pipe

end LogRouter.CommandLine
