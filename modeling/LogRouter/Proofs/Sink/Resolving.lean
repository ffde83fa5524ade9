import LogRouter.Proofs.Files.Walk
import LogRouter.Proofs.Path.Absolute
import LogRouter.Sink.Resolver
import Mathlib.Data.List.Nodup

/-!
# Which destinations share a writer

* `FileSystem.locate_destination`: a path leads where its names say.
* `Destination.SameTarget`: two destinations name one stream or one file.
* `Destination.SpelledAlike`: they name one stream, or files with one address.
* `Resolver.Faithful`: the keys of a resolver differ, and each is the name of its writer.
* `Resolver.Resolves`: what a call of the resolver can come to.
* `Resolver.resolveEach`: one call of the resolver after the other.
* **`same_writer_iff`**: calls share a writer exactly if their destinations are spelled alike, so
  one target has one writer as long as no target is spelled in two ways.
* **`same_writer_iff_of_plain`**: this is so for paths without `..`, without two slashes in front
  and without a slash at the end.
-/

namespace LogRouter

/-! ## Where paths lead -/

/-- The location of a place. -/
def FileSystem.Place.location : FileSystem.Place → Location
  | unnamed loc => loc
  | entry loc _ => loc

namespace FileSystem

theorem walk_onward {fs : FileSystem} {slash : Bool} {parts : List Name} {place : Place} :
    ∀ {origin : Location}, fs.walk slash origin parts = .ok place →
      place.location = (parts.filter (· ≠ ['.'])).foldl Path.onward origin := by
  induction parts with
  | nil =>
    intro origin h
    obtain rfl := Except.ok.inj h
    rfl
  | cons part rest ih =>
    intro origin h
    unfold walk at h
    by_cases hdot : part = ['.']
    · rw [if_pos hdot] at h
      rw [ih h, List.filter_cons_of_neg (by simpa using hdot)]
    rw [if_neg hdot] at h
    rw [List.filter_cons_of_pos (by simpa using hdot), List.foldl_cons]
    by_cases hparent : part = ['.', '.']
    · rw [if_pos hparent] at h
      rw [ih h, Path.onward, if_pos hparent]
    rw [if_neg hparent] at h
    rw [Path.onward, if_neg hparent]
    cases rest with
    | nil =>
      obtain rfl := Except.ok.inj h
      rfl
    | cons next rest =>
      simp only at h
      split at h
      case h_3 => exact ih h
      all_goals cases h

/-- **A path leads where its names say**, if it leads anywhere. -/
theorem locate_destination {fs : FileSystem} {p : Path} {place : Place}
    (h : fs.locate p = .ok place) : place.location = p.destination fs.cwd := by
  obtain ⟨hfits, hne⟩ := fits_of_locate h
  rw [locate_of_fits hfits hne] at h
  rw [walk_onward h, ← Path.steps_eq_parts_filter]
  rfl

end FileSystem

/-! ## Comparing destinations -/

namespace Destination

/-- Two destinations are one stream, or paths with one and the same place. -/
def Agree {α : Type} (place : Path → α) (d d' : String) : Prop :=
  match ofString? d, ofString? d' with
  | some (console stream), some (console stream') => stream = stream'
  | some (file p), some (file q) => place p = place q
  | _, _ => False

/-- Two destinations name one stream or one file, where `cwd` is the place of the current
directory. -/
def SameTarget (cwd : Location) : String → String → Prop := Agree (Path.destination cwd)

/-- Two destinations name one stream, or files with one address. -/
def SpelledAlike (cwd : Location) : String → String → Prop := Agree (Path.address cwd)

variable {cwd : Location} {d d' : String}

/-- **Destinations that are spelled alike name one target.** -/
theorem sameTarget_of_spelledAlike (hcwd : ∀ name ∈ cwd, Name.IsEntry name)
    (h : SpelledAlike cwd d d') : SameTarget cwd d d' := by
  unfold SpelledAlike Agree at h
  unfold SameTarget Agree
  split at h
  case h_1 => exact h
  case h_2 p q _ _ =>
    rw [← Path.foldl_onward_address hcwd, ← Path.foldl_onward_address hcwd, h]
  case h_3 => exact h.elim

/-- A destination is a stream, or a path that is spelled plainly. -/
def IsPlain (d : String) : Prop := ∀ p, ofString? d = some (file p) → p.IsPlain

theorem spelledAlike_of_sameTarget (hd : IsPlain d) (hd' : IsPlain d') (h : SameTarget cwd d d') :
    SpelledAlike cwd d d' := by
  unfold SameTarget Agree at h
  unfold SpelledAlike Agree
  split at h
  case h_1 => exact h
  case h_2 p q hp hq =>
    rw [Path.address_of_isPlain (hd p hp), Path.address_of_isPlain (hd' q hq), h]
  case h_3 => exact h.elim

theorem ne_nil_of_ofString? {p : Path} (h : ofString? d = some (file p)) : p.chars ≠ [] := by
  unfold ofString? at h
  split_ifs at h with hblank
  split at h
  · cases h
  · obtain rfl : Path.ofString d = p := file.inj (Option.some.inj h)
    rintro hnil
    exact hblank (by rw [show d.toList = [] from hnil]; rfl)

theorem key_file (hcwd : ∀ name ∈ cwd, Name.IsPart name) {p : Path} (hp : p.chars ≠ []) :
    (file p).key (.ok ⟨'/' :: Path.unsplit cwd.reverse⟩) =
      .ok (String.ofList (p.address cwd).chars) :=
  congrArg (Except.map Path.text) (Path.absolute_eq hcwd hp)

theorem key_of_error {parsed : Destination} {e : IoError} {key : String}
    (h : parsed.key (.error e) = .ok key) (cwd : Except IoError Path) :
    parsed.key cwd = .ok key := by
  cases parsed with
  | console stream => exact h
  | file p =>
    simp only [Destination.key] at h ⊢
    cases hp : p.absolute (.error e) with
    | error e' =>
      rw [hp] at h
      cases h
    | ok r =>
      rw [hp] at h
      rw [Path.absolute_of_error hp]
      exact h

theorem key_of_cwdPath {fs : FileSystem} {parsed : Destination} {key : String}
    (h : parsed.key fs.cwdPath = .ok key) :
    parsed.key (.ok ⟨'/' :: Path.unsplit fs.cwd.reverse⟩) = .ok key := by
  unfold FileSystem.cwdPath at h
  split_ifs at h
  · exact h
  · exact key_of_error h _

theorem name_eq_iff {stream stream' : Stream} : stream.name = stream'.name ↔ stream = stream' := by
  cases stream <;> cases stream' <;> decide

theorem name_ne_chars (stream : Stream) (a : Path.Address) :
    stream.name ≠ String.ofList a.chars := by
  intro h
  have hslash : a.chars.head? = some '/' := by
    unfold Path.Address.chars Path.Address.lead
    split_ifs <;> rfl
  rw [← String.toList_ofList (l := a.chars), ← h] at hslash
  cases stream <;> cases hslash

/-- **Two destinations have one key exactly if they are spelled alike.** -/
theorem key_eq_iff (hcwd : ∀ name ∈ cwd, Name.IsEntry name) {parsed parsed' : Destination}
    (hd : ofString? d = some parsed) (hd' : ofString? d' = some parsed') {key key' : String}
    (hkey : parsed.key (.ok ⟨'/' :: Path.unsplit cwd.reverse⟩) = .ok key)
    (hkey' : parsed'.key (.ok ⟨'/' :: Path.unsplit cwd.reverse⟩) = .ok key') :
    key = key' ↔ SpelledAlike cwd d d' := by
  have hparts : ∀ name ∈ cwd, Name.IsPart name := fun name hname => (hcwd name hname).isPart
  have hfile : ∀ {d p}, ofString? d = some (file p) →
      (file p).key (.ok ⟨'/' :: Path.unsplit cwd.reverse⟩) =
        .ok (String.ofList (p.address cwd).chars) :=
    fun h => key_file hparts (ne_nil_of_ofString? h)
  unfold SpelledAlike Agree
  rw [hd, hd']
  cases parsed with
  | console stream =>
    obtain rfl := Except.ok.inj hkey
    cases parsed' with
    | console stream' =>
      obtain rfl := Except.ok.inj hkey'
      exact name_eq_iff
    | file q =>
      obtain rfl := Except.ok.inj ((hfile hd').symm.trans hkey')
      exact iff_of_false (name_ne_chars stream _) id
  | file p =>
    obtain rfl := Except.ok.inj ((hfile hd).symm.trans hkey)
    cases parsed' with
    | console stream' =>
      obtain rfl := Except.ok.inj hkey'
      exact iff_of_false (name_ne_chars stream' _).symm id
    | file q =>
      obtain rfl := Except.ok.inj ((hfile hd').symm.trans hkey')
      change _ ↔ p.address cwd = q.address cwd
      rw [String.ofList_inj]
      exact ⟨Path.Address.chars_injective (Path.proper_address hparts) (Path.proper_address hparts),
        congrArg _⟩

end Destination

/-! ## The writers of a resolver -/

namespace Resolver

/-- The keys of a resolver differ, and each is the name of its writer. -/
structure Faithful (resolver : Resolver) (fleet : Fleet) : Prop where
  nodup : (resolver.writers.map Prod.fst).Nodup
  named : ∀ entry ∈ resolver.writers, (fleet.writer? entry.2).map LogWriter.name = some entry.1

theorem faithful_empty (zone : Zone) (rotation : Rotation) (fleet : Fleet) :
    (empty zone rotation).Faithful fleet :=
  ⟨List.nodup_nil, fun _ h => absurd h List.not_mem_nil⟩

variable {resolver resolver' : Resolver} {fleet fleet' : Fleet}

theorem Faithful.number_eq_iff (h : resolver.Faithful fleet) {key key' : String} {i j : Nat}
    (hi : (key, i) ∈ resolver.writers) (hj : (key', j) ∈ resolver.writers) :
    i = j ↔ key = key' := by
  constructor
  · rintro rfl
    exact Option.some.inj ((h.named _ hi).symm.trans (h.named _ hj))
  · rintro rfl
    exact congrArg Prod.snd (List.inj_on_of_nodup_map h.nodup hi hj rfl)

theorem mem_of_find? {key : String} {i : Nat} (h : resolver.find? key = some i) :
    (key, i) ∈ resolver.writers := by
  obtain ⟨⟨key', i'⟩, hfind, rfl⟩ := Option.map_eq_some_iff.mp h
  obtain rfl : key' = key := by simpa using List.find?_some hfind
  exact List.mem_of_find?_eq_some hfind

theorem notMem_of_find? {key : String} (h : resolver.find? key = none) :
    key ∉ resolver.writers.map Prod.fst := by
  intro hmem
  obtain ⟨entry, hentry, rfl⟩ := List.mem_map.mp hmem
  exact List.find?_eq_none.mp (Option.map_eq_none_iff.mp h) entry hentry (beq_self_eq_true _)

theorem fileWriter_name {path : Path} {w : LogWriter} (h : resolver.fileWriter path = .ok w) :
    w.name = path.text := by
  unfold fileWriter at h
  simp only at h
  split_ifs at h
  · unfold TimeWriter.create at h
    split_ifs at h
    · cases h
    · split at h
      · cases h
      · obtain rfl := Except.ok.inj h
        rfl
  · unfold SizeWriter.create at h
    split_ifs at h
    · cases h
    · cases h
    · obtain rfl := Except.ok.inj h
      rfl

theorem launch_spec (w : LogWriter) (fleet : Fleet) :
    (launch w fleet).2.writers = fleet.writers ∧ ∀ w', (launch w fleet).1 = .ok w' → w' = w := by
  unfold launch
  split_ifs
  · simp only
    cases fleet.host.startWorker.1 with
    | error e => exact ⟨rfl, fun w' h => by cases h⟩
    | ok u => exact ⟨rfl, fun w' h => (Except.ok.inj h).symm⟩
  · exact ⟨rfl, fun w' h => (Except.ok.inj h).symm⟩

/-- **A new writer has the key of its destination for a name**, and the other writers stay. -/
theorem make_spec (resolver : Resolver) (fleet : Fleet) (d : String) {key : String}
    {cwd : Except IoError Path} {parsed : Destination} (hkey : parsed.key cwd = .ok key) :
    (resolver.make fleet d key parsed).2.writers = fleet.writers ∧
      ∀ w, (resolver.make fleet d key parsed).1 = .ok w → w.name = key := by
  cases parsed with
  | console stream =>
    obtain rfl := Except.ok.inj hkey
    refine ⟨rfl, fun w h => ?_⟩
    obtain rfl := Except.ok.inj h
    rfl
  | file path =>
    unfold make
    simp only
    cases (prepare fleet.host.fs (Path.ofString key)).1 with
    | error e => exact ⟨rfl, fun w h => by cases h⟩
    | ok u =>
      cases hw : resolver.fileWriter (Path.ofString key) with
      | error e => exact ⟨rfl, fun w h => by cases h⟩
      | ok new =>
        simp only
        obtain ⟨hwriters, hsame⟩ := launch_spec new _
        refine ⟨hwriters, fun w h => ?_⟩
        obtain rfl := hsame w h
        exact (fileWriter_name hw).trans String.ofList_toList

theorem Faithful.of_more (h : resolver.Faithful fleet) (hmore : fleet.writers <+: fleet'.writers) :
    resolver.Faithful fleet' where
  nodup := h.nodup
  named entry hentry := by
    obtain ⟨w, hw, hname⟩ := Option.map_eq_some_iff.mp (h.named entry hentry)
    obtain ⟨more, hmore⟩ := hmore
    have hlt : entry.2 < fleet.writers.length := (List.getElem?_eq_some_iff.mp hw).1
    rw [Fleet.writer?, ← hmore, List.getElem?_append_left hlt]
    exact Option.map_eq_some_iff.mpr ⟨w, hw, hname⟩

theorem Faithful.add (h : resolver.Faithful fleet) {w : LogWriter}
    (hnew : w.name ∉ resolver.writers.map Prod.fst) :
    Faithful { resolver with writers := resolver.writers ++ [(w.name, (fleet.add w).1)] }
      (fleet.add w).2 where
  nodup := by
    rw [List.map_append, List.map_singleton, List.nodup_append_comm, List.singleton_append]
    exact List.nodup_cons.mpr ⟨hnew, h.nodup⟩
  named entry hentry := by
    rcases List.mem_append.mp hentry with hold | hlast
    · have hadded : resolver.Faithful (fleet.add w).2 := h.of_more (List.prefix_append _ _)
      exact hadded.named entry hold
    · obtain rfl := List.mem_singleton.mp hlast
      change ((fleet.writers ++ [w])[fleet.writers.length]?).map LogWriter.name = _
      rw [List.getElem?_concat_length]
      rfl

/-- What a call of the resolver can come to. -/
inductive Resolves (resolver : Resolver) (fleet : Fleet) (d : String) :
    Except SinkError Nat → Resolver → Fleet → Prop where
  | blank : Destination.ofString? d = none →
      Resolves resolver fleet d (.error .emptyDestination) resolver fleet
  | keyless {parsed : Destination} {cause : IoError} : Destination.ofString? d = some parsed →
      parsed.key fleet.host.fs.cwdPath = .error cause →
      Resolves resolver fleet d (.error (.resolve d cause)) resolver fleet
  | found {parsed : Destination} {key : String} {i : Nat} : Destination.ofString? d = some parsed →
      parsed.key fleet.host.fs.cwdPath = .ok key → resolver.find? key = some i →
      Resolves resolver fleet d (.ok i) resolver fleet
  | refused {parsed : Destination} {key : String} {e : SinkError} {made : Fleet} :
      Destination.ofString? d = some parsed → parsed.key fleet.host.fs.cwdPath = .ok key →
      resolver.make fleet d key parsed = (.error e, made) →
      Resolves resolver fleet d (.error e) resolver made
  | added {parsed : Destination} {key : String} {w : LogWriter} {made : Fleet} :
      Destination.ofString? d = some parsed → parsed.key fleet.host.fs.cwdPath = .ok key →
      resolver.find? key = none → resolver.make fleet d key parsed = (.ok w, made) →
      Resolves resolver fleet d (.ok (made.add w).1)
        { resolver with writers := resolver.writers ++ [(key, (made.add w).1)] } (made.add w).2

theorem resolves (resolver : Resolver) (fleet : Fleet) (d : String) :
    Resolves resolver fleet d (resolver.resolve fleet d).1 (resolver.resolve fleet d).2.1
      (resolver.resolve fleet d).2.2 := by
  unfold resolve
  split
  case h_1 hparsed => exact .blank hparsed
  case h_2 hparsed =>
    split
    case h_1 hkey => exact .keyless hparsed hkey
    case h_2 hkey =>
      split
      case h_1 hfind => exact .found hparsed hkey hfind
      case h_2 hfind =>
        split
        case h_1 hmake => exact .refused hparsed hkey hmake
        case h_2 hmake => exact .added hparsed hkey hfind hmake

theorem Resolves.spec {d : String} {result : Except SinkError Nat}
    (h : Resolves resolver fleet d result resolver' fleet') (hfaithful : resolver.Faithful fleet) :
    resolver'.Faithful fleet' ∧ resolver.writers ⊆ resolver'.writers ∧
      ∀ i, result = .ok i → ∃ parsed key, Destination.ofString? d = some parsed ∧
        parsed.key fleet.host.fs.cwdPath = .ok key ∧ (key, i) ∈ resolver'.writers := by
  cases h with
  | blank => exact ⟨hfaithful, List.Subset.refl _, fun i hi => by cases hi⟩
  | keyless => exact ⟨hfaithful, List.Subset.refl _, fun i hi => by cases hi⟩
  | found hparsed hkey hfind =>
    refine ⟨hfaithful, List.Subset.refl _, fun i hi => ⟨_, _, hparsed, hkey, ?_⟩⟩
    obtain rfl := Except.ok.inj hi
    exact mem_of_find? hfind
  | refused hparsed hkey hmake =>
    have hwriters := (make_spec resolver fleet d hkey).1
    rw [hmake] at hwriters
    exact ⟨hfaithful.of_more (hwriters ▸ List.prefix_rfl), List.Subset.refl _,
      fun i hi => by cases hi⟩
  | added hparsed hkey hfind hmake =>
    obtain ⟨hwriters, hname⟩ := make_spec resolver fleet d hkey
    rw [hmake] at hwriters hname
    obtain rfl := hname _ rfl
    refine ⟨(hfaithful.of_more (hwriters ▸ List.prefix_rfl)).add (notMem_of_find? hfind),
      List.subset_append_left _ _, fun i hi => ⟨_, _, hparsed, hkey, ?_⟩⟩
    obtain rfl := Except.ok.inj hi
    exact List.mem_append_right _ List.mem_cons_self

/-! ## Calls one after the other -/

/-- A call of the resolver: the host that it meets, and the destination. -/
structure Call where
  host : Host
  destination : String

/-- The answers to calls, one after the other, with their destinations. -/
def resolveEach (resolver : Resolver) (fleet : Fleet) :
    List Call → List (String × Except SinkError Nat) × Resolver × Fleet
  | [] => ([], resolver, fleet)
  | call :: rest =>
    let (result, resolver, fleet) :=
      resolver.resolve { fleet with host := call.host } call.destination
    let (results, resolver, fleet) := resolver.resolveEach fleet rest
    ((call.destination, result) :: results, resolver, fleet)

theorem resolveEach_spec {cwd : Location} {calls : List Call} (h : resolver.Faithful fleet)
    (hcalls : ∀ call ∈ calls, call.host.fs.cwd = cwd) :
    (resolver.resolveEach fleet calls).2.1.Faithful (resolver.resolveEach fleet calls).2.2 ∧
      resolver.writers ⊆ (resolver.resolveEach fleet calls).2.1.writers ∧
      ∀ d i, (d, .ok i) ∈ (resolver.resolveEach fleet calls).1 →
        ∃ parsed key, Destination.ofString? d = some parsed ∧
          parsed.key (.ok ⟨'/' :: Path.unsplit cwd.reverse⟩) = .ok key ∧
          (key, i) ∈ (resolver.resolveEach fleet calls).2.1.writers := by
  induction calls generalizing resolver fleet with
  | nil => exact ⟨h, List.Subset.refl _, fun d i hmem => by cases hmem⟩
  | cons call calls ih =>
    have hmet : resolver.Faithful { fleet with host := call.host } := h.of_more List.prefix_rfl
    obtain ⟨hnext, hgrows, hfound⟩ :=
      (resolves resolver { fleet with host := call.host } call.destination).spec hmet
    obtain ⟨hlast, hmore, hlater⟩ := ih hnext fun c hc => hcalls c (List.mem_cons_of_mem _ hc)
    refine ⟨hlast, List.Subset.trans hgrows hmore, fun d i hmem => ?_⟩
    rcases List.mem_cons.mp hmem with heq | hmem
    · simp only [Prod.mk.injEq] at heq
      obtain ⟨rfl, hi⟩ := heq
      obtain ⟨parsed, key, hparsed, hkey, hentry⟩ := hfound i hi.symm
      have hkey := Destination.key_of_cwdPath hkey
      rw [hcalls call List.mem_cons_self] at hkey
      exact ⟨parsed, key, hparsed, hkey, hmore hentry⟩
    · exact hlater d i hmem

variable {zone : Zone} {rotation : Rotation} {cwd : Location} {calls : List Call}

theorem number_eq_iff (hcwd : ∀ name ∈ cwd, Name.IsEntry name)
    (hcalls : ∀ call ∈ calls, call.host.fs.cwd = cwd) {d d' : String} {i j : Nat}
    (hi : (d, .ok i) ∈ ((empty zone rotation).resolveEach fleet calls).1)
    (hj : (d', .ok j) ∈ ((empty zone rotation).resolveEach fleet calls).1) :
    i = j ↔ Destination.SpelledAlike cwd d d' := by
  obtain ⟨hfaithful, _, hfound⟩ := resolveEach_spec (faithful_empty zone rotation fleet) hcalls
  obtain ⟨parsed, key, hparsed, hkey, hentry⟩ := hfound d i hi
  obtain ⟨parsed', key', hparsed', hkey', hentry'⟩ := hfound d' j hj
  rw [hfaithful.number_eq_iff hentry hentry']
  exact Destination.key_eq_iff hcwd hparsed hparsed' hkey hkey'

/-- **Calls share a writer exactly if their destinations are spelled alike**, and then they name one
target. So each target has one writer exactly if no target is spelled in two ways. -/
theorem same_writer_iff (zone : Zone) (rotation : Rotation) (fleet : Fleet) (calls : List Call)
    {cwd : Location} (hcwd : ∀ name ∈ cwd, Name.IsEntry name)
    (hcalls : ∀ call ∈ calls, call.host.fs.cwd = cwd) :
    let answers := ((empty zone rotation).resolveEach fleet calls).1
    (∀ d i d' j, (d, .ok i) ∈ answers → (d', .ok j) ∈ answers →
      (i = j ↔ Destination.SpelledAlike cwd d d') ∧ (i = j → Destination.SameTarget cwd d d')) ∧
    ((∀ d i d' j, (d, .ok i) ∈ answers → (d', .ok j) ∈ answers →
        (i = j ↔ Destination.SameTarget cwd d d')) ↔
      ∀ d i d' j, (d, .ok i) ∈ answers → (d', .ok j) ∈ answers →
        Destination.SameTarget cwd d d' → Destination.SpelledAlike cwd d d') := by
  intro answers
  have hiff : ∀ d i d' j, (d, .ok i) ∈ answers → (d', .ok j) ∈ answers →
      (i = j ↔ Destination.SpelledAlike cwd d d') := fun _ _ _ _ => number_eq_iff hcwd hcalls
  have hsame : ∀ d i d' j, (d, .ok i) ∈ answers → (d', .ok j) ∈ answers →
      i = j → Destination.SameTarget cwd d d' := fun d i d' j hi hj h =>
    Destination.sameTarget_of_spelledAlike hcwd ((hiff d i d' j hi hj).mp h)
  refine ⟨fun d i d' j hi hj => ⟨hiff d i d' j hi hj, hsame d i d' j hi hj⟩, ?_, ?_⟩
  · intro hclaim d i d' j hi hj htarget
    exact (hiff d i d' j hi hj).mp ((hclaim d i d' j hi hj).mpr htarget)
  · intro hspelled d i d' j hi hj
    exact ⟨hsame d i d' j hi hj,
      fun htarget => (hiff d i d' j hi hj).mpr (hspelled d i d' j hi hj htarget)⟩

theorem same_writer_for_dotted_path :
    ((empty .utc .initial).resolveEach ⟨.ofFileSystem .empty, ⟨0, 0⟩, []⟩
      [⟨.ofFileSystem .empty, "app.log"⟩, ⟨.ofFileSystem .empty, ".//app.log"⟩,
        ⟨.ofFileSystem .empty, "stderr"⟩]).1 =
      [("app.log", .ok 0), (".//app.log", .ok 0), ("stderr", .ok 1)] ∧
    Destination.SameTarget [] "app.log" ".//app.log" ∧
    ¬ Destination.SpelledAlike [] "app.log" "stderr" := by
  have hanswers : ((empty .utc .initial).resolveEach ⟨.ofFileSystem .empty, ⟨0, 0⟩, []⟩
      [⟨.ofFileSystem .empty, "app.log"⟩, ⟨.ofFileSystem .empty, ".//app.log"⟩,
        ⟨.ofFileSystem .empty, "stderr"⟩]).1 =
      [("app.log", .ok 0), (".//app.log", .ok 0), ("stderr", .ok 1)] := by
    decide +kernel
  have hcwd : ∀ name ∈ FileSystem.empty.cwd, Name.IsEntry name := fun _ h => by cases h
  have hpair := (same_writer_iff .utc .initial ⟨.ofFileSystem .empty, ⟨0, 0⟩, []⟩
    [⟨.ofFileSystem .empty, "app.log"⟩, ⟨.ofFileSystem .empty, ".//app.log"⟩,
      ⟨.ofFileSystem .empty, "stderr"⟩] hcwd (by simp [Host.ofFileSystem])).1
  rw [hanswers] at hpair
  refine ⟨hanswers, (hpair "app.log" 0 ".//app.log" 0 (by simp) (by simp)).2 rfl, fun h => ?_⟩
  cases (hpair "app.log" 0 "stderr" 1 (by simp) (by simp)).1.mpr h

/-- A file that is spelled once with `..` and once without has two writers. -/
theorem two_writers_for_one_file :
    ¬ ∀ d i d' j,
      (d, .ok i) ∈ ((empty .utc .initial).resolveEach ⟨.ofFileSystem .empty, ⟨0, 0⟩, []⟩
        [⟨.ofFileSystem .empty, "app.log"⟩, ⟨.ofFileSystem .empty, "x/../app.log"⟩]).1 →
      (d', .ok j) ∈ ((empty .utc .initial).resolveEach ⟨.ofFileSystem .empty, ⟨0, 0⟩, []⟩
        [⟨.ofFileSystem .empty, "app.log"⟩, ⟨.ofFileSystem .empty, "x/../app.log"⟩]).1 →
      (i = j ↔ Destination.SameTarget [] d d') := by
  have hanswers : ((empty .utc .initial).resolveEach ⟨.ofFileSystem .empty, ⟨0, 0⟩, []⟩
      [⟨.ofFileSystem .empty, "app.log"⟩, ⟨.ofFileSystem .empty, "x/../app.log"⟩]).1 =
      [("app.log", .ok 0), ("x/../app.log", .ok 1)] := by
    decide +kernel
  intro h
  rw [hanswers] at h
  have htarget : Destination.SameTarget [] "app.log" "x/../app.log" := rfl
  cases (h "app.log" 0 "x/../app.log" 1 (by simp) (by simp)).mpr htarget

/-- **Plainly spelled destinations share a writer exactly if they name one target.** -/
theorem same_writer_iff_of_plain (hcwd : ∀ name ∈ cwd, Name.IsEntry name)
    (hcalls : ∀ call ∈ calls, call.host.fs.cwd = cwd) {d d' : String} {i j : Nat}
    (hi : (d, .ok i) ∈ ((empty zone rotation).resolveEach fleet calls).1)
    (hj : (d', .ok j) ∈ ((empty zone rotation).resolveEach fleet calls).1)
    (hd : Destination.IsPlain d) (hd' : Destination.IsPlain d') :
    i = j ↔ Destination.SameTarget cwd d d' := by
  rw [number_eq_iff hcwd hcalls hi hj]
  exact ⟨Destination.sameTarget_of_spelledAlike hcwd, Destination.spelledAlike_of_sameTarget hd hd'⟩

end Resolver

end LogRouter
