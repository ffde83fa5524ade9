import LogRouter.Proofs.Writer.OpenBucket

/-!
# A time writer and its sweeps

The sweeps that a writer asks for run later, one by one and in their order, between the steps of the
writer.

* `Upkeep`: a writer, the files and the clock; `Upkeep.step`, `Upkeep.run`: steps of either side.
* `Upkeep.Tidy`: what every run keeps. Whatever is open or asked for belongs to some instant.
* **`sweep_spares_open_file_iff`**: when the next sweep leaves the file as it is that is open then.
-/

namespace LogRouter

open FileSystem TimeWriter

/-- A time writer, the files that it shares with its sweeps, and the time. -/
structure Upkeep where
  writer : TimeWriter
  fs : FileSystem
  now : Instant

namespace Upkeep

/-- A step of the clocks, the writer or its sweeps. -/
inductive Action where
  /-- The clock shows another instant, and changes of content get another stamp. -/
  | tick (now : Instant) (stamp : Int)
  | write (bytes : Bytes)
  | close
  /-- The sweep that was asked for first runs. -/
  | sweep
  deriving DecidableEq, Repr

/-- The state after a step. -/
def step (s : Upkeep) : Action → Upkeep
  | .tick now stamp => { s with now := now, fs := { s.fs with now := stamp } }
  | .write bytes =>
    { s with
      writer := (s.writer.write s.fs s.now bytes).2.1
      fs := (s.writer.write s.fs s.now bytes).2.2 }
  | .close => { s with writer := s.writer.close.2 }
  | .sweep =>
    match s.writer.pending with
    | [] => s
    | request :: rest =>
      { s with
        writer := { s.writer with pending := rest }
        fs := (request.run s.fs).2 }

/-- The state after some steps. -/
def run (s : Upkeep) (actions : List Action) : Upkeep := actions.foldl step s

end Upkeep

/-! ## Writers with the same settings -/

namespace TimeWriter

variable {w w' w'' : TimeWriter}

theorem SameSettings.trans (h : SameSettings w w') (h' : SameSettings w' w'') :
    SameSettings w w'' :=
  ⟨h'.base.trans h.base, h'.pattern.trans h.pattern, h'.policy.trans h.policy, h'.zone.trans h.zone⟩

theorem SameSettings.labels (h : SameSettings w w') {p : Path} {t : Instant} (hp : w'.Labels p t) :
    w.Labels p t := by
  unfold Labels pathOf labelAt at *
  rwa [← h.base, ← h.pattern, ← h.zone]

theorem SameSettings.sweepFor (h : SameSettings w w') (active : Path) (t : Instant) :
    w'.sweepFor active t = w.sweepFor active t := by
  unfold TimeWriter.sweepFor
  rw [h.base, h.pattern, h.policy]

theorem create_spec {zone : Zone} {base : Path} {text : String} {maxAge : UInt32} {compress : Bool}
    (h : create zone base text maxAge compress = .ok w) :
    TimePattern.ofString text = .ok w.pattern ∧ w.base = base ∧ w.current = none ∧ w.pending = [] := by
  unfold create at h
  split_ifs at h
  split at h
  · cases h
  · rename_i pattern hpattern
    rw [Except.ok.injEq] at h
    subst h
    exact ⟨hpattern, rfl, rfl, rfl⟩

theorem sameAs_iff_of_labels {p q : Path} {t t' : Instant} (hp : w.Labels p t) (hq : w.Labels q t') :
    p.sameAs q = true ↔ q = p := by
  obtain ⟨rfl, hname⟩ := hp
  obtain ⟨rfl, hname'⟩ := hq
  rw [pathOf_eq, pathOf_eq, Path.sameAs_join_iff hname hname']
  constructor
  · intro h
    rw [h]
  · intro h
    exact (Path.join_injective hname' hname h).symm

end TimeWriter

namespace Upkeep

variable {w : TimeWriter} {s : Upkeep}

/-! ## What every run keeps -/

/-- Whatever is open or asked for belongs to some instant. -/
structure Tidy (w : TimeWriter) (s : Upkeep) : Prop where
  sound : s.fs.Sound
  settings : SameSettings w s.writer
  opened : ∀ bucket, s.writer.current = some bucket → ∃ t, w.Labels bucket.path t
  asked : ∀ request ∈ s.writer.pending,
    ∃ active t, w.Labels active t ∧ request = w.sweepFor active t

theorem Tidy.write {text : String} (htext : TimePattern.ofString text = .ok w.pattern)
    (h : Tidy w s) (bytes : Bytes) : Tidy w (s.step (.write bytes)) := by
  have htext' : TimePattern.ofString text = .ok s.writer.pattern := by rw [h.settings.pattern, htext]
  obtain ⟨hsound, hsame, hmoves⟩ := write_spec htext' h.sound s.now bytes rfl
  refine ⟨hsound, h.settings.trans hsame, ?_, ?_⟩
  · intro bucket hbucket
    cases hmoves with
    | closed current _ => exact absurd (current.symm.trans hbucket) (Option.some_ne_none _).symm
    | kept before current path _ =>
      obtain rfl := Option.some.inj (current.symm.trans hbucket)
      rw [path]
      exact h.opened _ before
    | opened current labels _ =>
      obtain rfl := Option.some.inj (current.symm.trans hbucket)
      exact ⟨s.now, h.settings.labels labels⟩
  · intro request hrequest
    cases hmoves with
    | closed _ pending => exact h.asked request (pending ▸ hrequest)
    | kept _ _ _ pending => exact h.asked request (pending ▸ hrequest)
    | opened _ labels pending =>
      rcases List.mem_append.mp (pending ▸ hrequest) with hold | hnew
      · exact h.asked request hold
      · unfold sweepsFor at hnew
        split_ifs at hnew
        · rw [List.mem_singleton] at hnew
          exact ⟨_, s.now, h.settings.labels labels,
            hnew.trans (h.settings.sweepFor _ _)⟩
        · cases hnew

/-- **Every step** keeps what is open and asked for in order. -/
theorem Tidy.step {text : String} (htext : TimePattern.ofString text = .ok w.pattern)
    (h : Tidy w s) : ∀ action, Tidy w (s.step action)
  | .tick now stamp =>
    ⟨h.sound.setStored rfl rfl (Nat.le_refl _), h.settings, h.opened, h.asked⟩
  | .write bytes => h.write htext bytes
  | .close => ⟨h.sound, h.settings.trans ⟨rfl, rfl, rfl, rfl⟩, (fun _ hb => nomatch hb), h.asked⟩
  | .sweep => by
    unfold Upkeep.step
    simp only
    split
    · exact h
    · rename_i request rest hpending
      have hasked := h.asked
      rw [hpending] at hasked
      obtain ⟨active, t, _, rfl⟩ := hasked request List.mem_cons_self
      exact ⟨SweepRequest.run_sound h.sound rfl, h.settings.trans ⟨rfl, rfl, rfl, rfl⟩, h.opened,
        fun request hr => hasked request (List.mem_cons_of_mem _ hr)⟩

theorem Tidy.run {text : String} (htext : TimePattern.ofString text = .ok w.pattern) :
    ∀ (actions : List Action) {s : Upkeep}, Tidy w s → Tidy w (s.run actions)
  | [], _, h => h
  | action :: actions, _, h => Tidy.run htext actions (h.step htext action)

theorem tidy_start {zone : Zone} {base : Path} {text : String} {maxAge : UInt32} {compress : Bool}
    (hw : TimeWriter.create zone base text maxAge compress = .ok w) {fs : FileSystem} (hs : fs.Sound)
    (now : Instant) : Tidy w ⟨w, fs, now⟩ := by
  obtain ⟨_, _, hcurrent, hpending⟩ := create_spec hw
  refine ⟨hs, SameSettings.refl w, fun bucket hb => ?_, fun request hr => ?_⟩
  · rw [hcurrent] at hb
    cases hb
  · rw [hpending] at hr
    cases hr

/-! ## The sweeps of a run -/

/-- **The sweep that runs next**, in any state of any run, leaves the open file as it is exactly if it does
not get hold of the file. Behind a directory, it gets hold of a file that it would remove or compress if
it was asked for with another file open. -/
theorem sweep_spares_open_file_iff {zone : Zone} {base : Path} {text : String} {maxAge : UInt32}
    {compress : Bool} (hw : TimeWriter.create zone base text maxAge compress = .ok w)
    {fs : FileSystem} (hs : fs.Sound) {now : Instant} {actions : List Action}
    (hrun : run ⟨w, fs, now⟩ actions = s) {bucket : OpenBucket}
    (hopen : s.writer.current = some bucket) {request : SweepRequest} {rest : List SweepRequest}
    (hpending : s.writer.pending = request :: rest) {name : Name} {dir : Location} {node : Node}
    (hlook : s.fs.lookup bucket.path = .ok (name :: dir, node)) :
    ((s.step .sweep).fs.view (name :: dir) = s.fs.view (name :: dir) ↔
        ¬ ∃ id, node = .file id ∧ s.fs.lookup request.directory = .ok (dir, .directory) ∧
          request.Exposes s.fs name dir id) ∧
      (base.HasDirectory →
        ((s.step .sweep).fs.view (name :: dir) = s.fs.view (name :: dir) ↔
          request.active = bucket.path ∨
            ¬ ∃ id, node = .file id ∧ request.Threatens s.fs name id)) := by
  obtain ⟨htext, rfl, _, _⟩ := create_spec hw
  have htidy : Tidy w s := hrun ▸ (tidy_start hw hs now).run htext actions
  obtain ⟨t, hlabels⟩ := htidy.opened bucket hopen
  obtain ⟨active, asked, hactive, rfl⟩ := htidy.asked request (by rw [hpending]; exact List.mem_cons_self)
  have hstep : (s.step .sweep).fs = ((w.sweepFor active asked).run s.fs).2 := by
    unfold step
    simp only [hpending]
  have hiff := sweepFor_spares_iff htext htidy.sound hlabels hlook active asked
  rw [← hstep] at hiff
  refine ⟨hiff, fun hbase => ?_⟩
  rw [hiff]
  have hsame : bucket.path.sameAs active = false ↔ ¬ (w.sweepFor active asked).active = bucket.path := by
    rw [← Bool.not_eq_true, sameAs_iff_of_labels hlabels hactive]
    rfl
  have hexposes : (∃ id, node = .file id ∧ s.fs.lookup w.base.directory = .ok (dir, .directory) ∧
      (w.sweepFor active asked).Exposes s.fs name dir id) ↔
      ¬ (w.sweepFor active asked).active = bucket.path ∧
        ∃ id, node = .file id ∧ (w.sweepFor active asked).Threatens s.fs name id := by
    rw [← hsame, ← exists_and_left]
    refine exists_congr fun id => ⟨?_, ?_⟩
    · rintro ⟨rfl, hexposes⟩
      obtain ⟨hother, hthreat⟩ :=
        (exposes_of_hasDirectory_iff hbase hlabels hlook active asked).mp hexposes
      exact ⟨hother, rfl, hthreat⟩
    · rintro ⟨hother, rfl, hthreat⟩
      exact ⟨rfl, (exposes_of_hasDirectory_iff hbase hlabels hlook active asked).mpr
        ⟨hother, hthreat⟩⟩
  rw [hexposes, not_and_or, not_not]

/-- A file is opened, and the sweep that was asked for with this file open leaves it as it is. -/
theorem sweep_spares_open_file_first_day :
    ∃ s bucket request, run ⟨daily (.ofString "logs/app.log"), FileSystem.empty, ⟨1735830245, 0⟩⟩
        [.write [97]] = s ∧ s.writer.current = some bucket ∧ s.writer.pending = [request] ∧
      (s.step .sweep).fs.view ["app.2025-01-02.log".toList, "logs".toList] =
        s.fs.view ["app.2025-01-02.log".toList, "logs".toList] := by
  have hcreate : TimeWriter.create .utc (.ofString "logs/app.log") "%Y-%m-%d" 0 true =
    .ok (daily (.ofString "logs/app.log")) := by decide +kernel
  have hbase : (Path.ofString "logs/app.log").HasDirectory :=
    ⟨by decide, ⟨"logs".toList⟩, by decide, by decide⟩
  obtain ⟨s, hs⟩ : ∃ s, run ⟨daily (.ofString "logs/app.log"), FileSystem.empty, ⟨1735830245, 0⟩⟩
    [.write [97]] = s := ⟨_, rfl⟩
  have hopen : s.writer.current = some ⟨"2025-01-02".toList, .ofString "logs/app.2025-01-02.log",
    .appending 0⟩ := by rw [← hs]; decide +kernel
  have hpending : s.writer.pending = [(daily (.ofString "logs/app.log")).sweepFor
    (.ofString "logs/app.2025-01-02.log") ⟨1735830245, 0⟩] := by rw [← hs]; decide +kernel
  have hlook : s.fs.lookup (.ofString "logs/app.2025-01-02.log") =
    .ok (["app.2025-01-02.log".toList, "logs".toList], .file 0) := by rw [← hs]; decide +kernel
  have hspared := ((sweep_spares_open_file_iff hcreate Sound.empty hs hopen hpending hlook).2
    hbase).mpr (Or.inl rfl)
  exact ⟨s, _, _, hs, hopen, hpending, hspared⟩

/-- A file is opened and the next day another one, before the sweep runs that was asked for with the first
file open. It takes the second file away. -/
theorem sweep_takes_open_file_next_day :
    ∃ w s bucket request rest,
      TimeWriter.create .utc (.ofString "logs/app.log") "%Y-%m-%d" 0 true = .ok w ∧
      run ⟨w, FileSystem.empty, ⟨1735830245, 0⟩⟩ [.write [97],
        .tick ⟨1735916645, 0⟩ 1735916645000000000, .write [98]] = s ∧
      s.writer.current = some bucket ∧ s.writer.pending = request :: rest ∧
      s.fs.lookup bucket.path = .ok (["app.2025-01-03.log".toList, "logs".toList], .file 1) ∧
      (s.step .sweep).fs.view ["app.2025-01-03.log".toList, "logs".toList] ≠
        s.fs.view ["app.2025-01-03.log".toList, "logs".toList] := by
  refine ⟨daily (.ofString "logs/app.log"), _, ⟨"2025-01-03".toList,
    .ofString "logs/app.2025-01-03.log", .appending 1⟩,
    (daily (.ofString "logs/app.log")).sweepFor (.ofString "logs/app.2025-01-02.log")
      ⟨1735830245, 0⟩,
    [(daily (.ofString "logs/app.log")).sweepFor (.ofString "logs/app.2025-01-03.log")
      ⟨1735916645, 0⟩], ?_, rfl, ?_, ?_, ?_, ?_⟩ <;> decide +kernel

end Upkeep

end LogRouter
