import LogRouter.Sink.Reports
import Mathlib.Algebra.Ring.Nat
import Mathlib.Data.List.DropRight
import Mathlib.Tactic.Common

/-!
# What reports tell

* `Failure`: a write that failed at some time; `FailureReports.journal`: failures that are counted
  one after the other, each with the report that it led to and the counters behind it.
* `lastReported?`, `unreported`, `toldOf`: of a journal, the time of its last report, the number of
  failures behind that report, and the number of failures that its reports tell of.
* `FailureReports.Keeps`: counters and journal agree; `Keeps.noted`: so they do behind one failure more.
* `Noted.Tells`: an entry is reported if it is due, and its report and the counters behind it tell of
  the failures up to it; `Keeps.tells`: so does the next one where counters and journal agree.
* **`reports_tell_failures`**: whenever the failures occur, every entry of their journal tells of them.
-/

namespace LogRouter

/-- A write that failed. -/
structure Failure where
  time : Nat
  destination : String
  error : String
  deriving DecidableEq

/-- A failure that was counted. -/
structure Noted where
  failure : Failure
  /-- The report that the failure led to. -/
  report? : Option Report
  /-- The counters behind the failure. -/
  counters : FailureReports
  deriving DecidableEq

/-- Counts one failure. -/
def FailureReports.noted (r : FailureReports) (failure : Failure) : Noted :=
  let (report?, counters) := r.note failure.time failure.destination failure.error
  ⟨failure, report?, counters⟩

/-- Counts failures one after the other. -/
def FailureReports.journal (r : FailureReports) : List Failure → List Noted
  | [] => []
  | failure :: rest => r.noted failure :: (r.noted failure).counters.journal rest

/-! ## Journals -/

/-- The time of the last failure that was reported. -/
def lastReported? (journal : List Noted) : Option Nat :=
  (journal.filter (·.report?.isSome)).getLast?.map (·.failure.time)

/-- The number of failures behind the last one that was reported. -/
def unreported (journal : List Noted) : Nat := (journal.rtakeWhile (·.report?.isNone)).length

/-- The number of failures that the reports tell of: their own ones and the suppressed ones. -/
def toldOf (journal : List Noted) : Nat :=
  ((journal.filterMap Noted.report?).map fun report => 1 + report.suppressed.toNat).sum

section Concat

variable {journal : List Noted} {entry : Noted}

theorem lastReported?_concat : lastReported? (journal ++ [entry]) =
    if entry.report?.isSome then some entry.failure.time else lastReported? journal := by
  unfold lastReported?
  rw [List.filter_append, List.filter_cons, List.filter_nil]
  split_ifs
  · rw [List.getLast?_concat, Option.map_some]
  · rw [List.append_nil]

theorem unreported_concat : unreported (journal ++ [entry]) =
    if entry.report?.isNone then unreported journal + 1 else 0 := by
  unfold unreported
  rw [List.rtakeWhile_concat]
  split_ifs
  · rw [List.length_append, List.length_singleton]
  · rfl

theorem toldOf_concat : toldOf (journal ++ [entry]) =
    toldOf journal + entry.report?.elim 0 fun report => 1 + report.suppressed.toNat := by
  unfold toldOf
  rw [List.filterMap_append, List.map_append, List.sum_append, List.filterMap_cons]
  cases entry.report? <;> simp

theorem unreported_le_length (journal : List Noted) : unreported journal ≤ journal.length :=
  (List.rtakeWhile_suffix _ _).length_le

theorem exists_of_lastReported? {time : Nat} (h : lastReported? journal = some time) :
    ∃ entry ∈ journal, entry.failure.time = time := by
  obtain ⟨entry, hlast, htime⟩ := Option.map_eq_some_iff.mp h
  exact ⟨entry, (List.mem_filter.mp (List.mem_of_getLast? hlast)).1, htime⟩

end Concat

/-! ## One failure -/

/-- What a report names, where `suppressed` failures had none of their own since the last one and
there were `total` failures so far. -/
def Failure.fields (failure : Failure) (suppressed total : Nat) : List (String × String) :=
  [("destination", failure.destination), ("error", failure.error)] ++
    (if suppressed = 0 then [] else [("suppressed_count", toString suppressed)]) ++
    [("total_errors", toString total)]

/-- The entry is reported exactly if the interval has passed since the last report, if there was one,
and it tells of itself and of the entries before it. The counters have 64 bits, so that a report tells
the numbers themselves as long as there are less than `2 ^ 64` failures. -/
structure Noted.Tells (interval : Nat) (before : List Noted) (entry : Noted) : Prop where
  reported_iff : entry.report?.isSome ↔
    ∀ last, lastReported? before = some last → last + interval ≤ entry.failure.time
  total : entry.counters.total = .ofNat (before.length + 1)
  pending : entry.counters.pending = .ofNat (unreported (before ++ [entry]))
  report : ∀ report, entry.report? = some report → before.length + 1 < 2 ^ 64 →
    report.fields = entry.failure.fields (unreported before) (before.length + 1)
  told : before.length + 1 < 2 ^ 64 →
    toldOf (before ++ [entry]) + entry.counters.pending.toNat = entry.counters.total.toNat

namespace FailureReports

/-- The counters agree with the journal of the failures that they have counted. -/
structure Keeps (interval : Nat) (journal : List Noted) (r : FailureReports) : Prop where
  interval_eq : r.interval = interval
  last : r.last = lastReported? journal
  pending : r.pending = .ofNat (unreported journal)
  total : r.total = .ofNat journal.length
  told : journal.length < 2 ^ 64 → toldOf journal + unreported journal = journal.length

theorem keeps_fresh (interval : Nat) : Keeps interval [] (fresh interval) :=
  ⟨rfl, rfl, rfl, rfl, fun _ => rfl⟩

variable {interval : Nat} {before : List Noted} {r : FailureReports} {failure : Failure}

theorem Keeps.isDue_iff (h : Keeps interval before r) {now : Nat}
    (hnow : ∀ entry ∈ before, entry.failure.time ≤ now) :
    r.isDue now = true ↔ ∀ last, lastReported? before = some last → last + interval ≤ now := by
  unfold isDue
  rw [h.last, h.interval_eq]
  cases hlast : lastReported? before with
  | none => simp
  | some last =>
    obtain ⟨entry, hentry, rfl⟩ := exists_of_lastReported? hlast
    have hle := hnow entry hentry
    simp only [decide_eq_true_eq, Option.some.injEq, forall_eq']
    omega

theorem suppressed_eq {n : Nat} (h : n + 1 < 2 ^ 64) :
    (if 1 < UInt64.ofNat n + 1 then UInt64.ofNat n + 1 - 1 else 0) = UInt64.ofNat n := by
  split_ifs with hlt
  · exact UInt64.add_sub_cancel _ _
  · have hone : (UInt64.ofNat n + 1).toNat ≤ 1 := UInt64.not_lt.mp hlt
    rw [UInt64.toNat_add, UInt64.toNat_ofNat', UInt64.toNat_one] at hone
    obtain rfl : n = 0 := by omega
    rfl

theorem noted_of_isDue (h : r.isDue failure.time = true) : r.noted failure =
    ⟨failure, some ⟨failure.destination, failure.error,
      if 1 < r.pending + 1 then r.pending + 1 - 1 else 0, r.total + 1⟩,
      ⟨r.interval, some failure.time, 0, r.total + 1⟩⟩ := by
  unfold noted note
  rw [if_pos h]

theorem noted_of_not_isDue (h : r.isDue failure.time = false) : r.noted failure =
    ⟨failure, none, ⟨r.interval, r.last, r.pending + 1, r.total + 1⟩⟩ := by
  unfold noted note
  rw [if_neg (Bool.eq_false_iff.mp h)]

theorem failure_noted : (r.noted failure).failure = failure := rfl

theorem isSome_report?_noted : (r.noted failure).report?.isSome = r.isDue failure.time := by
  cases h : r.isDue failure.time
  · rw [noted_of_not_isDue h, Option.isSome_none]
  · rw [noted_of_isDue h, Option.isSome_some]

theorem Keeps.total_succ (h : Keeps interval before r) : r.total + 1 = .ofNat (before.length + 1) := by
  rw [h.total, UInt64.ofNat_add]
  rfl

/-- **Counting a failure** keeps the agreement of counters and journal. -/
theorem Keeps.noted (h : Keeps interval before r) (failure : Failure) :
    Keeps interval (before ++ [r.noted failure]) (r.noted failure).counters := by
  have htotal : r.total + 1 = .ofNat (before ++ [r.noted failure]).length := by
    rw [h.total_succ, List.length_append, List.length_singleton]
  have hlength := unreported_le_length before
  cases hdue : r.isDue failure.time with
  | false =>
    rw [noted_of_not_isDue hdue] at htotal ⊢
    refine ⟨h.interval_eq, ?_, ?_, htotal, fun hbound => ?_⟩
    · rw [lastReported?_concat]
      exact h.last
    · rw [unreported_concat]
      simp [h.pending, UInt64.ofNat_add]
    · rw [List.length_append, List.length_singleton] at hbound ⊢
      rw [toldOf_concat, unreported_concat]
      have htold := h.told (by omega)
      change toldOf before + 0 + (unreported before + 1) = before.length + 1
      omega
  | true =>
    rw [noted_of_isDue hdue] at htotal ⊢
    refine ⟨h.interval_eq, ?_, ?_, htotal, fun hbound => ?_⟩
    · rw [lastReported?_concat]
      rfl
    · rw [unreported_concat]
      rfl
    · rw [List.length_append, List.length_singleton] at hbound ⊢
      have htold := h.told (by omega)
      have hsuppressed : unreported before < 2 ^ 64 := by omega
      rw [toldOf_concat, unreported_concat, h.pending, suppressed_eq (by omega)]
      change toldOf before + (1 + (UInt64.ofNat (unreported before)).toNat) + 0 = before.length + 1
      rw [UInt64.toNat_ofNat_of_lt' hsuppressed]
      omega

theorem fields_report (r : Report) {failure : Failure}
    (hdestination : r.destination = failure.destination) (herror : r.error = failure.error) :
    r.fields = failure.fields r.suppressed.toNat r.total.toNat := by
  have hzero : r.suppressed.toNat = 0 ↔ r.suppressed = 0 := UInt64.toNat_inj (b := 0)
  unfold Report.fields Failure.fields
  simp only [hdestination, herror, hzero]
  rfl

/-- **An entry tells of the failures up to it**, where counters and journal agree before it and no
failure before it is later. -/
theorem Keeps.tells (h : Keeps interval before r)
    (htime : ∀ entry ∈ before, entry.failure.time ≤ failure.time) :
    (r.noted failure).Tells interval before := by
  have hbehind := h.noted failure
  have hlength := unreported_le_length before
  have hcount : (before ++ [r.noted failure]).length = before.length + 1 := List.length_append
  refine ⟨?_, hcount ▸ hbehind.total, hbehind.pending, fun report hreport hbound => ?_,
    fun hbound => ?_⟩
  · rw [isSome_report?_noted, h.isDue_iff htime, failure_noted]
  · have hdue : r.isDue failure.time = true := by
      rw [← isSome_report?_noted, hreport, Option.isSome_some]
    rw [noted_of_isDue hdue, Option.some.injEq, h.pending, suppressed_eq (by omega), h.total_succ]
      at hreport
    subst hreport
    have hsuppressed : unreported before < 2 ^ 64 := by omega
    rw [failure_noted, fields_report _ rfl rfl, UInt64.toNat_ofNat_of_lt' hsuppressed,
      UInt64.toNat_ofNat_of_lt' hbound]
  · have hpending := unreported_le_length (before ++ [r.noted failure])
    rw [hcount] at hpending
    rw [hbehind.pending, hbehind.total, hcount, UInt64.toNat_ofNat_of_lt' hbound,
      UInt64.toNat_ofNat_of_lt' (hpending.trans_lt hbound), hbehind.told (hcount ▸ hbound), hcount]

/-- **Over a run** every entry tells of the failures up to it. -/
theorem Keeps.journal : ∀ {failures : List Failure} {before : List Noted} {r : FailureReports},
    Keeps interval before r →
    ((before.map Noted.failure ++ failures).map Failure.time).Pairwise (· ≤ ·) →
    ∀ front entry back, r.journal failures = front ++ entry :: back →
      entry.Tells interval (before ++ front)
  | [], _, _, _, _, front, entry, back, hjournal => by
    cases front <;> cases hjournal
  | failure :: rest, before, r, h, htimes, front, entry, back, hjournal => by
    have hsplit : before.map Noted.failure ++ failure :: rest =
        (before ++ [r.noted failure]).map Noted.failure ++ rest := by
      rw [List.map_append, List.append_assoc]
      rfl
    cases front with
    | nil =>
      obtain ⟨rfl, -⟩ := List.cons.inj hjournal
      rw [List.append_nil]
      refine h.tells fun entry hentry => ?_
      rw [List.map_append, List.pairwise_append] at htimes
      exact htimes.2.2 _ (List.mem_map_of_mem (List.mem_map_of_mem hentry)) _ List.mem_cons_self
    | cons first front =>
      obtain ⟨rfl, hrest⟩ := List.cons.inj hjournal
      have ih := (h.noted failure).journal (hsplit ▸ htimes) front entry back hrest
      rwa [List.append_assoc] at ih

theorem map_failure_journal : ∀ (failures : List Failure) (r : FailureReports),
    (r.journal failures).map Noted.failure = failures
  | [], _ => rfl
  | failure :: rest, _ => congrArg (failure :: ·) (map_failure_journal rest _)

/-- **Reports tell of all failures.** Whenever the failures occur, one after the other, every one of
them has an entry. It is reported if it is the first one, or if the interval has passed since the last
one that was reported. Its report and the counters behind it tell how many failures there were so far,
and how many of them without a report of their own since the last one. No failure is told of twice, and
none is left out: those that the reports tell of and the pending ones are all failures so far. -/
theorem reports_tell_failures (interval : Nat) {failures : List Failure}
    (htimes : (failures.map Failure.time).Pairwise (· ≤ ·)) :
    ((fresh interval).journal failures).map Noted.failure = failures ∧
      ∀ before entry after, (fresh interval).journal failures = before ++ entry :: after →
        entry.Tells interval before :=
  ⟨map_failure_journal failures _, (keeps_fresh interval).journal htimes⟩

/-- Three failures within ten nanoseconds, and a fourth one when these have passed. -/
theorem reports_tell_failures_at_interval :
    let failures := ([0, 3, 9, 10].map (⟨·, "app.log", "full"⟩) : List Failure)
    (failures.map Failure.time).Pairwise (· ≤ ·) ∧ ∃ before entry,
      (fresh 10).journal failures = before ++ [entry] ∧ entry.Tells 10 before ∧
      entry.report?.map Report.fields = some [("destination", "app.log"), ("error", "full"),
        ("suppressed_count", "2"), ("total_errors", "4")] := by
  intro failures
  have htimes : (failures.map Failure.time).Pairwise (· ≤ ·) := by decide
  refine ⟨htimes, (fresh 10).journal (failures.take 3),
    ⟨⟨10, "app.log", "full"⟩, some ⟨"app.log", "full", 2, 4⟩, ⟨10, some 10, 0, 4⟩⟩, by decide, ?_, ?_⟩
  · exact (reports_tell_failures 10 htimes).2 _ _ [] (by decide)
  · decide

end FailureReports

end LogRouter
