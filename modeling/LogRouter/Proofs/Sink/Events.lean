import LogRouter.Proofs.Json.Members
import LogRouter.Proofs.Sink.Enabled
import LogRouter.Sink.Event

/-!
# What comes of an event

* `Event.IsFrom`: an event comes from a package. `Event.isOwn_iff`: which events are skipped.
* `Event.Renders`: a record tells of an event. `Event.renders_record`: that of the event does.
* `Sink.LogsOnce`: one record was logged. `Sink.FollowsEvent`: events of the package of sinks are
  skipped, and of any other event one record is logged if its severity is enabled.
* **`observe_follows_event_iff`**: this holds for an event exactly if it is not one of another
  package that is skipped because of its name.
* **`observeAll_eq_performAll`**: observing events is logging the records of those that are not
  skipped.
-/

namespace LogRouter

namespace Event

variable {e : Event}

/-! ## Where an event comes from -/

/-- The event comes from a package: its target names the package, or a module inside of it. -/
def IsFrom (e : Event) (package : String) : Prop :=
  e.target = package ∨ ∃ path, e.target = package ++ "::" ++ path

/-- **The events that are skipped** are those whose target starts with the name of the package. -/
theorem isOwn_iff : e.isOwn = true ↔ ∃ rest, e.target = "scribe_sinks" ++ rest := by
  unfold isOwn
  rw [List.isPrefixOf_iff_prefix]
  constructor
  · rintro ⟨rest, hrest⟩
    refine ⟨String.ofList rest, String.toList_inj.mp ?_⟩
    rw [String.toList_append, String.toList_ofList (l := rest), hrest]
  · rintro ⟨rest, hrest⟩
    exact ⟨rest.toList, by rw [hrest, String.toList_append]⟩

theorem isOwn_of_isFrom (h : e.IsFrom "scribe_sinks") : e.isOwn = true := by
  rw [isOwn_iff]
  rcases h with h | ⟨path, h⟩
  · exact ⟨"", by rw [h, String.append_empty]⟩
  · exact ⟨"::" ++ path, by rw [h, String.append_assoc]⟩

/-! ## The record of an event -/

/-- The message that a field gives: a text under `message`. -/
def messageOf? (field : String × FieldValue) : Option String :=
  if field.1 = "message" then field.2.text? else none

/-- The message of an event; if it is given several times, the last time. -/
def message (e : Event) : String := (e.fields.filterMap messageOf?).getLast?.getD ""

/-- The fields that do not give the message, with their values on a record. -/
def others (e : Event) : Json.Members :=
  (e.fields.filter fun field => (messageOf? field).isNone).map fun (name, value) =>
    (name, value.toJson)

/-- A record tells of an event at an instant. It has one field for each name of a field beside the
message; a field that is given several times has the last value. -/
structure Renders (e : Event) (time : Instant) (r : Record) : Prop where
  time : r.time = time
  severity : r.severity = e.level.severity
  target : r.target = e.target
  message_alone : e.spans = [] → r.message = e.message
  message_in_spans : e.spans ≠ [] →
    r.message = String.intercalate "::" e.spans ++ ": " ++ e.message
  ascending : Json.Ascending r.fields
  value : ∀ name, Json.member? name r.fields = Json.member? name e.others.reverse
  fields_perm : (Json.keys e.others).Nodup → r.fields.Perm e.others

theorem addField_eq (text : String) (members : Json.Members) (field : String × FieldValue) :
    addField (text, members) field = match messageOf? field with
      | some text' => (text', members)
      | none => (text, Json.insertMember field.1 field.2.toJson members) := by
  obtain ⟨name, value⟩ := field
  unfold addField messageOf?
  by_cases hname : name = "message"
  · simp only [hname, beq_self_eq_true, if_true]
    cases value.text? <;> rfl
  · simp only [beq_eq_false_iff_ne.mpr hname, if_neg hname]

theorem foldl_addField (fields : List (String × FieldValue)) : ∀ (text : String)
    (members : Json.Members), fields.foldl addField (text, members) =
      ((fields.filterMap messageOf?).getLast?.getD text,
        Json.insertAll members ((fields.filter fun field => (messageOf? field).isNone).map
          fun (name, value) => (name, value.toJson))) := by
  induction fields with
  | nil => exact fun _ _ => rfl
  | cons field fields ih =>
    intro text members
    rw [List.foldl_cons, addField_eq]
    cases hmessage : messageOf? field with
    | some text' =>
      rw [ih, List.filterMap_cons_some hmessage, List.getLast?_cons, Option.getD_some,
        List.filter_cons_of_neg (by simp [hmessage])]
    | none =>
      rw [ih, List.filterMap_cons_none hmessage, List.filter_cons_of_pos (by simp [hmessage])]
      rfl

theorem content_eq (e : Event) : e.content = (e.message, Json.sortMembers e.others) :=
  foldl_addField e.fields "" []

/-- **The record of an event tells of it.** -/
theorem renders_record (e : Event) (time : Instant) : e.Renders time (e.record time) where
  time := rfl
  severity := rfl
  target := rfl
  message_alone h := by
    simp only [record, origin, h, content_eq]
    exact String.empty_append
  message_in_spans h := by
    simp only [record, origin, List.isEmpty_eq_false_iff.mpr h, content_eq]
    rfl
  ascending := by
    simp only [record, content_eq]
    exact Json.ascending_sortMembers _
  value name := by
    simp only [record, content_eq]
    exact Json.member?_sortMembers name _
  fields_perm h := by
    simp only [record, content_eq]
    exact Json.sortMembers_perm h

end Event

/-! ## What an event leads to -/

namespace Sink

section Observing

variable {σ : Type} (outlet : Outlet σ) (now : Nat) (time : Instant) (sink : Sink) (world : σ)
  (e : Event)

/-- Nothing was done. -/
def Outcome.Idle (o : Outcome (σ × List WriterCall)) : Prop := o = ⟨.ok (), [], sink, (world, [])⟩

/-- One record was logged: its line was delivered to every target of its severity, and it was
counted. -/
structure LogsOnce (r : Record) (o : Outcome (σ × List WriterCall)) : Prop where
  delivered : o = sink.emit outlet.recorded now (world, []) r.severity
    (sink.encoder.encode sink.zone r)
  written : o.world.2 = ((sink.targets r.severity).map Slot.writer).map
    (.write · (sink.encoder.encode sink.zone r))
  counted : o.sink.metrics.recordsEmitted = sink.metrics.recordsEmitted + 1

/-- What an event is to lead to: nothing if it comes from the package of sinks, and otherwise one
record that tells of it, if its severity is enabled. -/
structure FollowsEvent (o : Outcome (σ × List WriterCall)) : Prop where
  own : e.IsFrom "scribe_sinks" → o.Idle sink world
  logged : ¬ e.IsFrom "scribe_sinks" → sink.enabled e.level.severity = true →
    ∃ r, e.Renders time r ∧ sink.LogsOnce outlet now world r o
  disabled : ¬ e.IsFrom "scribe_sinks" → sink.enabled e.level.severity = false → o.Idle sink world

variable {outlet now time sink world e}

theorem observe_of_isOwn (h : e.isOwn = true) :
    (sink.observe outlet.recorded now time (world, []) e).Idle sink world := if_pos h

theorem observe_of_not_enabled (h : sink.enabled e.level.severity = false) :
    (sink.observe outlet.recorded now time (world, []) e).Idle sink world := by
  unfold observe
  split_ifs
  · rfl
  · have hdisabled : sink.enabled (e.record time).severity = false := h
    exact log_of_not_enabled _ _ hdisabled _

theorem observe_logsOnce (hown : e.isOwn = false) (h : sink.enabled e.level.severity = true) :
    sink.LogsOnce outlet now world (e.record time)
      (sink.observe outlet.recorded now time (world, []) e) := by
  have henabled : sink.enabled (e.record time).severity = true := h
  have hlog : sink.observe outlet.recorded now time (world, []) e =
      sink.emit outlet.recorded now (world, []) (e.record time).severity
        (sink.encoder.encode sink.zone (e.record time)) := by
    unfold observe
    rw [hown, if_neg Bool.false_ne_true]
    exact log_of_enabled _ _ henabled _
  refine ⟨hlog, ?_, ?_⟩
  · rw [hlog, emit_recorded]
    rfl
  · rw [hlog, emit_records]

theorem LogsOnce.not_idle {r : Record} {o : Outcome (σ × List WriterCall)}
    (h : sink.LogsOnce outlet now world r o) : ¬ o.Idle sink world := by
  rintro rfl
  have hcount : sink.metrics.recordsEmitted = sink.metrics.recordsEmitted + 1 := h.counted
  simp at hcount

theorem not_followsEvent (hown : e.isOwn = true) (hfrom : ¬ e.IsFrom "scribe_sinks")
    (henabled : sink.enabled e.level.severity = true) :
    ¬ sink.FollowsEvent outlet now time world e
      (sink.observe outlet.recorded now time (world, []) e) := by
  intro h
  obtain ⟨r, -, hlogs⟩ := h.logged hfrom henabled
  exact hlogs.not_idle (observe_of_isOwn hown)

/-- **What comes of an event.** If its target starts with `scribe_sinks` or its severity is not
enabled, nothing is done; otherwise one record is logged that tells of it. So it leads to what it is
to lead to, unless its severity is enabled and its target starts with `scribe_sinks` while it comes
from another package. -/
theorem observe_follows_event_iff (outlet : Outlet σ) (now : Nat) (time : Instant) (sink : Sink)
    (world : σ) (e : Event) :
    let o := sink.observe outlet.recorded now time (world, []) e
    ((∃ rest, e.target = "scribe_sinks" ++ rest) ∨ sink.enabled e.level.severity = false →
      o.Idle sink world) ∧
    ((¬ ∃ rest, e.target = "scribe_sinks" ++ rest) → sink.enabled e.level.severity = true →
      ∃ r, e.Renders time r ∧ sink.LogsOnce outlet now world r o) ∧
    (sink.FollowsEvent outlet now time world e o ↔
      (sink.enabled e.level.severity = true → (∃ rest, e.target = "scribe_sinks" ++ rest) →
        e.IsFrom "scribe_sinks")) := by
  simp only [← Event.isOwn_iff, Bool.not_eq_true]
  have hlogged : e.isOwn = false → sink.enabled e.level.severity = true →
      ∃ r, e.Renders time r ∧ sink.LogsOnce outlet now world r
        (sink.observe outlet.recorded now time (world, []) e) :=
    fun hown henabled => ⟨_, e.renders_record time, observe_logsOnce hown henabled⟩
  refine ⟨?_, hlogged, fun h henabled hown => ?_, fun h => ⟨?_, fun hfrom henabled => ?_, ?_⟩⟩
  · rintro (hown | hdisabled)
    · exact observe_of_isOwn hown
    · exact observe_of_not_enabled hdisabled
  · by_contra hfrom
    exact not_followsEvent hown hfrom henabled h
  · exact fun hfrom => observe_of_isOwn (Event.isOwn_of_isFrom hfrom)
  · have hown : e.isOwn = false := Bool.eq_false_iff.mpr fun hown => hfrom (h henabled hown)
    exact hlogged hown henabled
  · exact fun _ => observe_of_not_enabled

end Observing

/-- An event of a package whose name is longer is skipped, though its severity is enabled. -/
theorem drops_event_of_longer_name :
    ∃ table sink, RouteTable.compile Registry.empty .duplicate .trace [⟨"all", ["m"]⟩] = .ok table ∧
      ofParts .utc table [0] (.text false) = .ok sink ∧ sink.enabled .info = true ∧
      ¬ sink.FollowsEvent halfFullOutlet 0 ⟨1735830245, 0⟩ ()
        ⟨.info, "scribe_sinks_extra", [], [("message", .text "msg")]⟩
        (sink.observe halfFullOutlet.recorded 0 ⟨1735830245, 0⟩ ((), [])
          ⟨.info, "scribe_sinks_extra", [], [("message", .text "msg")]⟩) := by
  have harranged : RouteTable.arranged (RouteTable.kept .duplicate .trace [⟨"all", ["m"]⟩]) =
      [⟨.all, .atLeast .trace, ["m"]⟩] := by
    rw [RouteTable.arranged_eq_buckets]
    decide
  obtain ⟨table, h, hdest, hroutes⟩ : ∃ table,
      RouteTable.compile Registry.empty .duplicate .trace [⟨"all", ["m"]⟩] = .ok table ∧
        table.destinations = #["m"] ∧ table.routes = [⟨.all, .atLeast .trace, [⟨0⟩]⟩] := by
    simp [RouteTable.compile, harranged, RouteTable.routesOf, Registry.registerAll,
      Registry.register, Registry.id?, Registry.empty, WriterId.maxIndex, List.eraseDups_cons]
  obtain ⟨sink, hsink⟩ : ∃ sink, ofParts .utc table [0] (.text false) = .ok sink := by
    unfold ofParts
    rw [hdest]
    exact ⟨_, rfl⟩
  have henabled : sink.enabled .info = true := by
    rw [enabled, (ofParts_table hsink).1, RouteTable.accepts, hroutes]
    rfl
  refine ⟨table, sink, h, hsink, henabled, not_followsEvent rfl ?_ henabled⟩
  rintro (htarget | ⟨path, htarget⟩)
  · exact absurd htarget (by decide)
  · simpa using congrArg String.toList htarget

/-! ## Events one after the other -/

/-- The sink and its world after events, each with its times. -/
def observeAll {σ : Type} (outlet : Outlet σ) (sink : Sink) (world : σ) :
    List (Nat × Instant × Event) → Sink × σ
  | [] => (sink, world)
  | (now, time, e) :: rest =>
    let outcome := sink.observe outlet now time world e
    outcome.sink.observeAll outlet outcome.world rest

/-- **Observing events is logging the records** of those that are not skipped, in their order. -/
theorem observeAll_eq_performAll {σ : Type} (outlet : Outlet σ) (sink : Sink) (world : σ)
    (events : List (Nat × Instant × Event)) :
    sink.observeAll outlet world events = sink.performAll outlet world
      ((events.filter fun (_, _, e) => !e.isOwn).map fun (now, time, e) =>
        (now, .log (e.record time))) := by
  induction events generalizing sink world with
  | nil => rfl
  | cons event rest ih =>
    obtain ⟨now, time, e⟩ := event
    cases hown : e.isOwn with
    | true =>
      rw [List.filter_cons_of_neg (by simp [hown])]
      simp only [observeAll, observe, hown, if_true, ih]
    | false =>
      rw [List.filter_cons_of_pos (by simp [hown])]
      simp only [observeAll, observe, hown, Bool.false_eq_true, if_false, ih]
      rfl

end Sink

end LogRouter
