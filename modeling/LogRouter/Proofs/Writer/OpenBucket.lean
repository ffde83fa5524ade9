import LogRouter.Proofs.Writer.Buckets

/-!
# Sweeps and the file that is open

* `TimeWriter.Moves`: a write leaves no file open, keeps the file that is open, or opens the one of
  its instant and asks for a sweep (`TimeWriter.write_spec`).
* `exposes_of_hasDirectory_iff`: behind a directory a sweep tells the file it was asked for apart.
* `exposes_of_isBare_iff`: behind no directory it does not.
* **`scheduled_sweep_spares_iff`**: when the sweep that the opening of a file asks for leaves this
  file as it is.
-/

namespace LogRouter

open FileSystem

namespace FileSystem

variable {fs : FileSystem}

/-! ## The current directory -/

theorem lookup_current {dir : Location} (h : fs.reach ⟨[]⟩ = .ok dir) :
    fs.lookup ⟨['.']⟩ = .ok (dir, .directory) := by
  have hfits : Fits ⟨['.']⟩ := ⟨by decide, by decide⟩
  exact (lookup_directory_iff hfits (by decide)).mpr h

theorem fits_current_join {name : Name} (h : name.IsEntry) (hshort : byteLength name ≤ maxNameLength) :
    Fits ((Path.mk ['.']).join ⟨name⟩) := by
  refine ⟨by rw [Path.nul_mem_join h]; decide, ?_⟩
  have hlength : byteLength ((Path.mk ['.']).join ⟨name⟩).chars ≤ 2 + byteLength name := by
    have habs : (Path.mk name).isAbsolute = false := by
      obtain ⟨c, rest, rfl⟩ := List.exists_cons_of_ne_nil h.ne_nil
      have hc : c ≠ '/' := fun hc => h.no_slash (hc ▸ List.mem_cons_self)
      simp [Path.isAbsolute, hc]
    have hjoin : ((Path.mk ['.']).join ⟨name⟩).chars = ['.', '/'] ++ name := by
      unfold Path.join
      rw [habs]
      rfl
    rw [hjoin, byteLength_append]
    exact Nat.le_refl _
  unfold maxNameLength at hshort
  unfold maxPathLength
  omega

end FileSystem

namespace SweepRequest

/-! ## Files that a sweep takes for superseded ones -/

/-- The sweep would remove or compress the file if it took it for a superseded one. -/
def Threatens (request : SweepRequest) (fs : FileSystem) (name : Name) (id : Nat) : Prop :=
  request.names.recognizes name = true ∧
    (request.expires ⟨request.pathOf name, fs.modified id⟩ = true ∨
      request.policy.compress = true ∧ (request.pathOf name).isCompressed = false ∧
        ∃ r, fs.createNew (request.pathOf name).compressed = .ok r)

theorem exposes_iff {request : SweepRequest} {fs : FileSystem} {name : Name} {dir : Location}
    {id : Nat} : request.Exposes fs name dir id ↔
      (request.pathOf name).sameAs request.active = false ∧
        fs.lookup (request.pathOf name) = .ok (name :: dir, .file id) ∧
        request.Threatens fs name id := by
  unfold Exposes Covers Threatens
  tauto

end SweepRequest

namespace TimeWriter

variable {w w' : TimeWriter} {fs fs' later : FileSystem} {now : Instant}

/-! ## What a write opens -/

/-- Two writers differ at most in what is open, counted and asked for. -/
structure SameSettings (w w' : TimeWriter) : Prop where
  base : w'.base = w.base
  pattern : w'.pattern = w.pattern
  policy : w'.policy = w.policy
  zone : w'.zone = w.zone

theorem SameSettings.refl (w : TimeWriter) : SameSettings w w := ⟨rfl, rfl, rfl, rfl⟩

/-- The path is that of the file of an instant, under a name that an entry can have. -/
def Labels (w : TimeWriter) (p : Path) (now : Instant) : Prop :=
  p = w.pathOf (w.labelAt now) ∧ (w.base.labelledName '.' (w.labelAt now)).IsEntry

theorem pathOf_eq (w : TimeWriter) (label : Name) :
    w.pathOf label = w.base.labelledParent.join ⟨w.base.labelledName '.' label⟩ :=
  Path.labelled_eq w.base '.' label

/-- How a writer comes out of a write: with no file open, with the file that was open, or with the file
of the instant opened and a sweep asked for. -/
inductive Moves (w w' : TimeWriter) (now : Instant) : Prop where
  | closed (current : w'.current = none) (pending : w'.pending = w.pending)
  | kept {old new : OpenBucket} (before : w.current = some old) (current : w'.current = some new)
      (path : new.path = old.path) (pending : w'.pending = w.pending)
  | opened {new : OpenBucket} (current : w'.current = some new) (labels : w.Labels new.path now)
      (pending : w'.pending = w.pending ++ w.sweepsFor new.path now)

theorem Moves.withHandle (h : Moves w w' now) (handle : Handle) :
    Moves w (w'.withHandle handle) now := by
  have hcurrent : ∀ {bucket}, w'.current = some bucket →
      (w'.withHandle handle).current = some ⟨bucket.label, bucket.path, handle⟩ := by
    intro bucket hb
    rw [TimeWriter.withHandle, hb, Option.map_some]
  cases h with
  | closed current pending => exact .closed (by rw [TimeWriter.withHandle, current]; rfl) pending
  | kept before current path pending => exact .kept before (hcurrent current) path pending
  | opened current labels pending => exact .opened (hcurrent current) labels pending

theorem labels_of_locate {text : String} (htext : TimePattern.ofString text = .ok w.pattern)
    {loc : Location} (h : fs.locate (w.pathOf (w.labelAt now)) = .ok (.entry loc false)) :
    w.Labels (w.pathOf (w.labelAt now)) now := by
  rw [pathOf_eq] at h
  have hpart : (w.base.labelledName '.' (w.labelAt now)).IsPart :=
    Path.isPart_labelledName (by decide) (TimePattern.label_no_slash htext _)
  exact ⟨rfl, (isEntry_of_locate_join hpart h).1⟩

theorem rotate_spec {text : String} (htext : TimePattern.ofString text = .ok w.pattern)
    (hs : fs.Sound) {outcome : Except IoError Handle × TimeWriter × FileSystem}
    (h : w.rotate fs now (w.labelAt now) = outcome) :
    outcome.2.2.Sound ∧ SameSettings w outcome.2.1 ∧ Moves w outcome.2.1 now := by
  have hparent := createParent_grows hs (w.pathOf (w.labelAt now))
  unfold rotate at h
  simp only at h
  split at h
  · rename_i e fs₁ hcreate
    rw [hcreate] at hparent
    subst h
    exact ⟨hparent.1, ⟨rfl, rfl, rfl, rfl⟩, .closed rfl rfl⟩
  · rename_i fs₁ hcreate
    rw [hcreate] at hparent
    split at h
    · subst h
      exact ⟨hparent.1, ⟨rfl, rfl, rfl, rfl⟩, .closed rfl rfl⟩
    · rename_i handle fs₂ hopen
      subst h
      obtain ⟨name, dir, hlocate, _, _, hcases⟩ := openToAppend_spec hparent.1 hopen
      refine ⟨?_, ⟨rfl, rfl, rfl, rfl⟩, .opened rfl (labels_of_locate htext hlocate) rfl⟩
      rcases hcases with ⟨_, _, _, _, rfl⟩ | ⟨_, _, rfl⟩ | ⟨_, _, _, _, hagree⟩
      · exact hparent.1
      · exact hparent.1
      · exact hagree.sound

theorem handleFor_spec {text : String} (htext : TimePattern.ofString text = .ok w.pattern)
    (hs : fs.Sound) {outcome : Except IoError Handle × TimeWriter × FileSystem}
    (h : w.handleFor fs now (w.labelAt now) = outcome) :
    outcome.2.2.Sound ∧ SameSettings w outcome.2.1 ∧ Moves w outcome.2.1 now := by
  unfold handleFor at h
  split at h
  · rename_i bucket hcurrent
    split_ifs at h
    · subst h
      exact ⟨hs, SameSettings.refl w, .kept hcurrent hcurrent rfl rfl⟩
    · exact rotate_spec htext hs h
  · exact rotate_spec htext hs h

/-- **A write** leaves a sound file system and the settings of the writer. -/
theorem write_spec {text : String} (htext : TimePattern.ofString text = .ok w.pattern)
    (hs : fs.Sound) (now : Instant) (bytes : Bytes)
    {outcome : Except IoError Nat × TimeWriter × FileSystem} (h : w.write fs now bytes = outcome) :
    outcome.2.2.Sound ∧ SameSettings w outcome.2.1 ∧ Moves w outcome.2.1 now := by
  unfold write at h
  split at h
  · rename_i e w₁ fs₁ heq
    subst h
    exact handleFor_spec htext hs heq
  · rename_i handle w₁ fs₁ heq
    obtain ⟨hs₁, hsame, hmoves⟩ := handleFor_spec htext hs heq
    split at h
    · subst h
      exact ⟨hs₁, hsame, hmoves⟩
    · rename_i handle' fs₂ hwrite
      subst h
      exact ⟨Handle.write_sound hs₁ hwrite,
        ⟨hsame.base, hsame.pattern, hsame.policy, hsame.zone⟩, hmoves.withHandle handle'⟩

/-! ## The file of an instant in a sweep -/

/-- **The file of an instant in a sweep** of the same writer, asked for with any file open. -/
theorem sweepFor_spares_iff {text : String} (htext : TimePattern.ofString text = .ok w.pattern)
    (hs : fs.Sound) {p : Path} {t : Instant} (hp : w.Labels p t) {name : Name} {dir : Location}
    {node : Node} (hlook : fs.lookup p = .ok (name :: dir, node)) (active : Path) (asked : Instant) :
    ((w.sweepFor active asked).run fs).2.view (name :: dir) = fs.view (name :: dir) ↔
      ¬ ∃ id, node = .file id ∧ fs.lookup w.base.directory = .ok (dir, .directory) ∧
        (w.sweepFor active asked).Exposes fs name dir id := by
  obtain ⟨rfl, hname⟩ := hp
  rw [pathOf_eq] at hlook
  obtain ⟨dir', hloc, _, _, _, hnode⟩ := of_lookup_join hname hlook
  obtain ⟨rfl, rfl⟩ := List.cons.inj hloc
  have htarget : (w.sweepFor active asked).NoTarget (w.base.labelledName '.' (w.labelAt t)) :=
    noTarget_labelledName htext rfl _
  exact SweepRequest.run_spares_iff hs rfl hname htarget hnode

theorem sweepFor_of_hasDirectory (hbase : w.base.HasDirectory) {p : Path} {t : Instant}
    (hp : w.Labels p t) {name : Name} {dir : Location} {node : Node}
    (hlook : fs.lookup p = .ok (name :: dir, node)) (active : Path) (asked : Instant) :
    (w.sweepFor active asked).pathOf name = p ∧
      fs.lookup w.base.directory = .ok (dir, .directory) := by
  obtain ⟨rfl, hname⟩ := hp
  rw [pathOf_eq] at hlook ⊢
  obtain ⟨dir', hloc, hreach, hfits, _, _⟩ := of_lookup_join hname hlook
  obtain ⟨rfl, rfl⟩ := List.cons.inj hloc
  rw [SweepRequest.pathOf, sweepFor, hbase.directory_eq]
  have hne : w.base.labelledParent.chars ≠ [] := by
    rw [← hbase.directory_eq]
    exact Path.directory_ne_nil w.base
  exact ⟨rfl, (lookup_directory_iff (hfits.front (Path.chars_prefix_join hname)) hne).mpr hreach⟩

/-- **Behind a directory** a sweep gets hold of the file of an instant unless it was asked for with
this file open. -/
theorem exposes_of_hasDirectory_iff (hbase : w.base.HasDirectory) {p : Path} {t : Instant}
    (hp : w.Labels p t) {name : Name} {dir : Location} {id : Nat}
    (hlook : fs.lookup p = .ok (name :: dir, .file id)) (active : Path) (asked : Instant) :
    (fs.lookup w.base.directory = .ok (dir, .directory) ∧
        (w.sweepFor active asked).Exposes fs name dir id) ↔
      p.sameAs active = false ∧ (w.sweepFor active asked).Threatens fs name id := by
  obtain ⟨hpath, hdir⟩ := sweepFor_of_hasDirectory hbase hp hlook active asked
  rw [SweepRequest.exposes_iff, hpath, and_iff_right hdir, and_iff_right hlook]
  rfl

/-- **Behind no directory** a sweep gets hold of the file of an instant even if it was asked for with
this file open. -/
theorem exposes_of_isBare_iff (hbase : w.base.IsBare) {p : Path} {t : Instant}
    (hp : w.Labels p t) {name : Name} {dir : Location} {id : Nat}
    (hlook : fs.lookup p = .ok (name :: dir, .file id)) (asked : Instant) :
    (fs.lookup w.base.directory = .ok (dir, .directory) ∧
        (w.sweepFor p asked).Exposes fs name dir id) ↔
      (w.sweepFor p asked).Threatens fs name id := by
  obtain ⟨rfl, hname⟩ := hp
  rw [pathOf_eq, hbase.directory_eq.2] at hlook
  obtain ⟨dir', hloc, hreach, _, hshort, hnode⟩ := of_lookup_join hname hlook
  obtain ⟨rfl, rfl⟩ := List.cons.inj hloc
  have hcurrent := lookup_current hreach
  have hlisted := (lookup_join_iff (reach_of_lookup hcurrent) hname).mpr
    ⟨fits_current_join hname hshort, hshort, hnode⟩
  have hapart : ((Path.mk ['.']).join ⟨w.base.labelledName '.' (w.labelAt t)⟩).sameAs
      (w.pathOf (w.labelAt t)) = false := by
    rw [pathOf_eq, hbase.directory_eq.2]
    exact Path.sameAs_current_join hname hname
  rw [SweepRequest.exposes_iff, SweepRequest.pathOf, sweepFor, hbase.directory_eq.1,
    and_iff_right hcurrent, and_iff_right hapart, and_iff_right hlisted]

/-! ## The sweep that an opening asks for -/

/-- The pattern of a file for each day. -/
def dailyPattern : TimePattern :=
  ⟨"%Y-%m-%d", [.zeroed .year, .literal ['-'], .zeroed .month, .literal ['-'], .zeroed .day]⟩

theorem ofString_daily : TimePattern.ofString "%Y-%m-%d" = .ok dailyPattern := by decide +kernel

/-- A writer with a file for each day, whose sweeps compress the superseded ones. -/
def daily (base : Path) : TimeWriter := ⟨base, dailyPattern, ⟨0, 86400, true⟩, .utc, none, 0, []⟩

/-- **The sweep that the opening of a file asks for** leaves this file as it is, in whatever state it runs,
exactly if it does not get hold of the file. Behind a directory it never does. Behind none it always does,
as it lists the file under another path than that of the writer. -/
theorem scheduled_sweep_spares_iff {text : String} (htext : TimePattern.ofString text = .ok w.pattern)
    (hs : fs.Sound) {bytes : Bytes} {request : SweepRequest} {bucket : OpenBucket}
    (hpending : (w.write fs now bytes).2.1.pending = w.pending ++ [request])
    (hopen : (w.write fs now bytes).2.1.current = some bucket) {later : FileSystem}
    (hlater : later.Sound) {name : Name} {dir : Location} {node : Node}
    (hlook : later.lookup bucket.path = .ok (name :: dir, node)) :
    ((request.run later).2.view (name :: dir) = later.view (name :: dir) ↔
        ¬ ∃ id, node = .file id ∧ later.lookup request.directory = .ok (dir, .directory) ∧
          request.Exposes later name dir id) ∧
      (w.base.HasDirectory →
        (request.run later).2.view (name :: dir) = later.view (name :: dir)) ∧
      (w.base.IsBare →
        ((request.run later).2.view (name :: dir) = later.view (name :: dir) ↔
          ¬ ∃ id, node = .file id ∧ request.Threatens later name id)) := by
  obtain ⟨_, _, hmoves⟩ := write_spec htext hs now bytes rfl
  -- a sweep was asked for, so the file was opened by the write
  have hnew : w.Labels bucket.path now ∧ request = w.sweepFor bucket.path now := by
    cases hmoves with
    | closed current _ => rw [current] at hopen; cases hopen
    | kept _ _ _ pending => rw [pending] at hpending; simp at hpending
    | opened current labels pending =>
      rw [current, Option.some.injEq] at hopen
      subst hopen
      rw [pending, List.append_cancel_left_eq] at hpending
      unfold sweepsFor at hpending
      split_ifs at hpending
      exact ⟨labels, (List.cons.inj hpending).1.symm⟩
  obtain ⟨hlabels, rfl⟩ := hnew
  have hiff := sweepFor_spares_iff htext hlater hlabels hlook bucket.path now
  refine ⟨hiff, fun hbase => hiff.mpr ?_, fun hbase => ?_⟩
  · rintro ⟨id, rfl, hexposes⟩
    have hother := ((exposes_of_hasDirectory_iff hbase hlabels hlook _ _).mp hexposes).1
    rw [Path.sameAs_self] at hother
    cases hother
  · rw [hiff, not_iff_not]
    refine exists_congr fun id => and_congr_right ?_
    rintro rfl
    exact exposes_of_isBare_iff hbase hlabels hlook now

/-- The file of a day is opened in a directory and outlives the sweep that this asks for. -/
theorem scheduled_sweep_spares_nested_file :
    ∃ outcome request, (daily (.ofString "logs/app.log")).write FileSystem.empty ⟨1735830245, 0⟩ [97] =
        outcome ∧ outcome.2.1.pending = [request] ∧ request.policy.isActive = true ∧
      (request.run outcome.2.2).2.view ["app.2025-01-02.log".toList, "logs".toList] =
        outcome.2.2.view ["app.2025-01-02.log".toList, "logs".toList] := by
  have hbase : (daily (.ofString "logs/app.log")).base.HasDirectory :=
    ⟨by decide, ⟨"logs".toList⟩, by decide, by decide⟩
  have hsound := (@write_spec (daily (.ofString "logs/app.log")) _ _ ofString_daily Sound.empty
    ⟨1735830245, 0⟩ [97] _ rfl).1
  have hpending : ((daily (.ofString "logs/app.log")).write FileSystem.empty ⟨1735830245, 0⟩
    [97]).2.1.pending = (daily (.ofString "logs/app.log")).pending ++
      [(daily (.ofString "logs/app.log")).sweepFor (.ofString "logs/app.2025-01-02.log")
        ⟨1735830245, 0⟩] := by decide +kernel
  have hopen : ((daily (.ofString "logs/app.log")).write FileSystem.empty ⟨1735830245, 0⟩
    [97]).2.1.current = some ⟨"2025-01-02".toList, .ofString "logs/app.2025-01-02.log",
      .appending 0⟩ := by decide +kernel
  have hlook : ((daily (.ofString "logs/app.log")).write FileSystem.empty ⟨1735830245, 0⟩
    [97]).2.2.lookup (.ofString "logs/app.2025-01-02.log") =
      .ok (["app.2025-01-02.log".toList, "logs".toList], .file 0) := by decide +kernel
  have hspared := (scheduled_sweep_spares_iff ofString_daily Sound.empty hpending hopen hsound
    hlook).2.1 hbase
  exact ⟨_, _, rfl, hpending, rfl, hspared⟩

/-- The file of a day is opened in the current directory, and the sweep that this asks for takes it away
while it is open. -/
theorem scheduled_sweep_takes_bare_file :
    ∃ w outcome bucket request, create .utc (.ofString "app.log") "%Y-%m-%d" 0 true = .ok w ∧
      w.write FileSystem.empty ⟨1735830245, 0⟩ [97] = outcome ∧
      outcome.2.1.current = some bucket ∧ outcome.2.1.pending = w.pending ++ [request] ∧
      outcome.2.2.lookup bucket.path = .ok (["app.2025-01-02.log".toList], .file 0) ∧
      (request.run outcome.2.2).2.view ["app.2025-01-02.log".toList] ≠
        outcome.2.2.view ["app.2025-01-02.log".toList] := by
  refine ⟨daily (.ofString "app.log"), _, ⟨"2025-01-02".toList, .ofString "app.2025-01-02.log",
    .appending 0⟩, (daily (.ofString "app.log")).sweepFor (.ofString "app.2025-01-02.log")
    ⟨1735830245, 0⟩, ?_, rfl, ?_, ?_, ?_, ?_⟩ <;> decide +kernel

end TimeWriter

end LogRouter
