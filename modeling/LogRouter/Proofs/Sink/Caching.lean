import LogRouter.Proofs.Sink.Resolving
import Mathlib.Data.Finset.Card

/-!
# A resolver as a cache

A resolver is asked for the writers of destinations while the files change in any way. It keeps
every writer that it made under the key of its destination.

* `Destination.keyOf?`: the key of a destination, as it is spelled.
* `Resolver.Request`, `Resolver.Exchange`: what a resolver is asked, and what it answered.
* `Resolver.exchanges`: requests one after the other, each with the host that it meets.
* `Resolver.Exchange.Follows`: an answer agrees with what was resolved before.
* `resolve_of_get?`, `resolve_of_get?_eq_none`: a call finds a writer, adds one or fails.
  `resolve_ok_iff` says when it succeeds.
* `Resolver.Caches`: what is kept from request to request. `Caches.answer` is one request,
  `Caches.exchanges` a run.
* **`cache_follows_requests`**: over every run, a key that was resolved has its writer for good, and
  a call that fails leaves no trace.
-/

namespace LogRouter

/-- The key of a destination, as it is spelled. -/
def Destination.keyOf? (cwd : Except IoError Path) (d : String) : Option String :=
  (ofString? d).bind fun parsed => (parsed.key cwd).toOption

theorem Destination.keyOf?_eq_some_iff {cwd : Except IoError Path} {d key : String} :
    keyOf? cwd d = some key ↔ ∃ parsed, ofString? d = some parsed ∧ parsed.key cwd = .ok key := by
  unfold keyOf?
  rw [Option.bind_eq_some_iff]
  refine exists_congr fun parsed => and_congr_right fun _ => ?_
  cases parsed.key cwd <;> simp [Except.toOption]

namespace Resolver

open Destination (keyOf? keyOf?_eq_some_iff)

/-! ## Requests -/

/-- What a resolver is asked: the writer of a destination, which may be made, or the one that there
is. -/
inductive Request where
  | resolve (destination : String)
  | get (destination : String)
  deriving DecidableEq, Repr

/-- The destination that is asked for. -/
def Request.destination : Request → String
  | resolve d | get d => d

/-- A request, the key of its destination at that time, and the number of the writer that was
answered; there is none if the request failed. -/
structure Exchange where
  request : Request
  key? : Option String
  number? : Option Nat
  deriving DecidableEq, Repr

/-- The number that answers a request, and the resolver and the writers behind it. -/
def answer (resolver : Resolver) (fleet : Fleet) : Request → Option Nat × Resolver × Fleet
  | .resolve d =>
    let (result, resolver, fleet) := resolver.resolve fleet d
    (result.toOption, resolver, fleet)
  | .get d => (resolver.get? fleet.host.fs.cwdPath d, resolver, fleet)

/-- Requests one after the other, each with the host that it meets. -/
def exchanges (resolver : Resolver) (fleet : Fleet) :
    List (Host × Request) → List Exchange × Resolver × Fleet
  | [] => ([], resolver, fleet)
  | (host, request) :: rest =>
    let (number?, resolver, fleet) := resolver.answer { fleet with host := host } request
    let (log, resolver, fleet) := resolver.exchanges fleet rest
    (⟨request, keyOf? host.fs.cwdPath request.destination, number?⟩ :: log, resolver, fleet)

namespace Exchange

/-- A destination with the key was resolved to the writer with the number. -/
def Resolved (a : Exchange) (key : String) (i : Nat) : Prop :=
  (∃ d, a.request = .resolve d) ∧ a.key? = some key ∧ a.number? = some i

/-- The key of a destination that was resolved. -/
def resolvedKey? (a : Exchange) : Option String :=
  match a.request, a.number? with
  | .resolve _, some _ => a.key?
  | _, _ => none

theorem resolvedKey?_eq_some_iff {a : Exchange} {key : String} :
    a.resolvedKey? = some key ↔ ∃ i, a.Resolved key i := by
  unfold resolvedKey? Resolved
  rcases a with ⟨_ | _, key?, _ | i⟩ <;> simp

theorem resolved_resolve_iff {d : String} {key? : Option String} {key key' : String} {i j : Nat}
    (hkey : key? = some key) :
    Resolved ⟨.resolve d, key?, some i⟩ key' j ↔ (key', j) = (key, i) := by
  unfold Resolved
  simp only [hkey, Option.some.injEq, Prod.mk.injEq]
  constructor
  · rintro ⟨-, rfl, rfl⟩
    exact ⟨rfl, rfl⟩
  · rintro ⟨rfl, rfl⟩
    exact ⟨⟨d, rfl⟩, rfl, rfl⟩

/-- The answer agrees with the exchanges before it: it is the writer of an exchange exactly if the
key is that of the exchange, and only a writer that was resolved can be got. -/
structure Follows (a : Exchange) (before : List Exchange) : Prop where
  again : ∀ b ∈ before, ∀ key i, b.Resolved key i → (a.number? = some i ↔ a.key? = some key)
  got : ∀ d i, a.request = .get d → a.number? = some i →
    ∃ b ∈ before, ∃ key, b.Resolved key i ∧ a.key? = some key

end Exchange

/-! ## One call -/

section Call

variable {resolver : Resolver} {d key : String} {i : Nat}

theorem get?_eq (resolver : Resolver) (cwd : Except IoError Path) (d : String) :
    resolver.get? cwd d = (keyOf? cwd d).bind resolver.find? :=
  (Option.bind_assoc ..).symm

theorem find?_eq_some_iff (hn : (resolver.writers.map Prod.fst).Nodup) :
    resolver.find? key = some i ↔ (key, i) ∈ resolver.writers := by
  refine ⟨mem_of_find?, fun hmem => ?_⟩
  cases hfind : resolver.find? key with
  | none => exact absurd (List.mem_map_of_mem hmem) (notMem_of_find? hfind)
  | some j =>
    have hentry := List.inj_on_of_nodup_map hn (mem_of_find? hfind) hmem rfl
    exact congrArg some (congrArg Prod.snd hentry)

/-- **A destination whose writer can be got is resolved to it**, and nothing changes. -/
theorem resolve_of_get? (fleet : Fleet) (h : resolver.get? fleet.host.fs.cwdPath d = some i) :
    resolver.resolve fleet d = (.ok i, resolver, fleet) := by
  rw [get?_eq] at h
  obtain ⟨key, hkeyOf, hfind⟩ := Option.bind_eq_some_iff.mp h
  obtain ⟨parsed, hparsed, hkey⟩ := keyOf?_eq_some_iff.mp hkeyOf
  simp only [resolve, hparsed, hkey, hfind]

/-- **For any other destination a call fails or adds a writer.** If it fails, the resolver is as it
was, and there is no more writer than before. -/
theorem resolve_of_get?_eq_none (fleet : Fleet)
    (h : resolver.get? fleet.host.fs.cwdPath d = none) :
    (∃ e made, resolver.resolve fleet d = (.error e, resolver, made) ∧
        made.writers = fleet.writers) ∨
      ∃ key made w, keyOf? fleet.host.fs.cwdPath d = some key ∧
        resolver.resolve fleet d = (.ok fleet.writers.length,
          { resolver with writers := resolver.writers ++ [(key, fleet.writers.length)] }, made) ∧
        made.writers = fleet.writers ++ [w] := by
  have hmade : ∀ {key parsed}, parsed.key fleet.host.fs.cwdPath = .ok key →
      (resolver.make fleet d key parsed).2.writers = fleet.writers :=
    fun hkey => (make_spec resolver fleet d hkey).1
  have hcases := resolves resolver fleet d
  rcases hresolve : resolver.resolve fleet d with ⟨result, resolver', made⟩
  simp only [hresolve] at hcases
  cases hcases with
  | blank => exact Or.inl ⟨_, _, rfl, rfl⟩
  | keyless => exact Or.inl ⟨_, _, rfl, rfl⟩
  | found hparsed hkey hfind =>
    rw [get?_eq, keyOf?_eq_some_iff.mpr ⟨_, hparsed, hkey⟩, Option.bind_some, hfind] at h
    cases h
  | refused hparsed hkey hmake =>
    exact Or.inl ⟨_, _, rfl, by simpa only [hmake] using hmade hkey⟩
  | @added _ key w made hparsed hkey hfind hmake =>
    have hwriters : made.writers = fleet.writers := by simpa only [hmake] using hmade hkey
    refine Or.inr ⟨key, (made.add w).2, w, keyOf?_eq_some_iff.mpr ⟨_, hparsed, hkey⟩, ?_,
      congrArg (· ++ [w]) hwriters⟩
    simp only [Fleet.add, hwriters]

theorem launch_congr (w : LogWriter) {fleet fleet' : Fleet} (h : fleet.host = fleet'.host) :
    (launch w fleet).1 = (launch w fleet').1 := by
  unfold launch
  rw [h]
  split_ifs
  · simp only
    cases fleet'.host.startWorker.1 <;> rfl
  · rfl

theorem make_empty (resolver : Resolver) (fleet : Fleet) (d key : String) (parsed : Destination) :
    ((empty resolver.zone resolver.rotation).make ⟨fleet.host, fleet.now, []⟩ d key parsed).1 =
      (resolver.make fleet d key parsed).1 := by
  cases parsed with
  | console stream => rfl
  | file path =>
    have hwriter : (empty resolver.zone resolver.rotation).fileWriter (Path.ofString key) =
      resolver.fileWriter (Path.ofString key) := rfl
    simp only [make, hwriter]
    cases (prepare fleet.host.fs (Path.ofString key)).1 with
    | error e => rfl
    | ok u =>
      cases resolver.fileWriter (Path.ofString key) with
      | error e => rfl
      | ok w => exact launch_congr w rfl

theorem exists_resolve_ok_iff (resolver : Resolver) (fleet : Fleet) (d : String) :
    (∃ i, (resolver.resolve fleet d).1 = .ok i) ↔
      ∃ parsed key, Destination.ofString? d = some parsed ∧
        parsed.key fleet.host.fs.cwdPath = .ok key ∧
        ((∃ i, resolver.find? key = some i) ∨
          ∃ w, (resolver.make fleet d key parsed).1 = .ok w) := by
  unfold resolve
  cases Destination.ofString? d with
  | none => simp
  | some parsed =>
    cases hkey : parsed.key fleet.host.fs.cwdPath with
    | error e => simp [hkey]
    | ok key =>
      cases hfind : resolver.find? key with
      | some i => simp [hkey, hfind]
      | none =>
        rcases hmake : resolver.make fleet d key parsed with ⟨e | w, made⟩ <;>
          simp [hkey, hfind, hmake]

/-- **A call succeeds** if its key was resolved before, or if a new resolver would succeed. -/
theorem resolve_ok_iff (resolver : Resolver) (fleet : Fleet) (d : String) :
    (∃ i, (resolver.resolve fleet d).1 = .ok i) ↔
      (∃ key i, keyOf? fleet.host.fs.cwdPath d = some key ∧ resolver.find? key = some i) ∨
        ∃ i, ((empty resolver.zone resolver.rotation).resolve ⟨fleet.host, fleet.now, []⟩ d).1 =
          .ok i := by
  simp only [exists_resolve_ok_iff, make_empty]
  constructor
  · rintro ⟨parsed, key, hparsed, hkey, ⟨i, hfind⟩ | hmake⟩
    · exact Or.inl ⟨key, i, keyOf?_eq_some_iff.mpr ⟨parsed, hparsed, hkey⟩, hfind⟩
    · exact Or.inr ⟨parsed, key, hparsed, hkey, Or.inr hmake⟩
  · rintro (⟨key, i, hkeyOf, hfind⟩ | ⟨parsed, key, hparsed, hkey, ⟨i, hfind⟩ | hmake⟩)
    · obtain ⟨parsed, hparsed, hkey⟩ := keyOf?_eq_some_iff.mp hkeyOf
      exact ⟨parsed, key, hparsed, hkey, Or.inl ⟨i, hfind⟩⟩
    · cases hfind
    · exact ⟨parsed, key, hparsed, hkey, Or.inr hmake⟩

end Call

/-! ## What is kept -/

/-- A resolver that was empty when there were `base` writers, after the exchanges of `log`. The keys
differ, they are those that were resolved, and the writers have the numbers from `base` on. -/
structure Caches (zone : Zone) (rotation : Rotation) (base : Nat) (resolver : Resolver)
    (fleet : Fleet) (log : List Exchange) : Prop where
  zone_eq : resolver.zone = zone
  rotation_eq : resolver.rotation = rotation
  keys : (resolver.writers.map Prod.fst).Nodup
  mem_iff : ∀ key i, (key, i) ∈ resolver.writers ↔ ∃ a ∈ log, a.Resolved key i
  numbers : resolver.writers.map Prod.snd = List.range' base resolver.size
  length_eq : fleet.writers.length = base + resolver.size

namespace Caches

variable {zone : Zone} {rotation : Rotation} {base : Nat} {resolver : Resolver}
  {fleet fleet' : Fleet} {log : List Exchange} {a : Exchange} {key : String} {i : Nat}

theorem start (zone : Zone) (rotation : Rotation) (fleet : Fleet) :
    Caches zone rotation fleet.writers.length (empty zone rotation) fleet [] where
  zone_eq := rfl
  rotation_eq := rfl
  keys := List.nodup_nil
  mem_iff key i := by simp [empty]
  numbers := rfl
  length_eq := rfl

theorem find?_eq_some_iff (h : Caches zone rotation base resolver fleet log) :
    resolver.find? key = some i ↔ ∃ a ∈ log, a.Resolved key i :=
  (Resolver.find?_eq_some_iff h.keys).trans (h.mem_iff key i)

theorem key_eq (h : Caches zone rotation base resolver fleet log) {key' : String}
    (hmem : (key, i) ∈ resolver.writers) (hmem' : (key', i) ∈ resolver.writers) : key = key' := by
  have hnodup : (resolver.writers.map Prod.snd).Nodup := h.numbers ▸ List.nodup_range'
  exact congrArg Prod.fst (List.inj_on_of_nodup_map hnodup hmem hmem' rfl)

theorem lt_length (h : Caches zone rotation base resolver fleet log)
    (hmem : (key, i) ∈ resolver.writers) : i < fleet.writers.length := by
  have hi : i ∈ List.range' base resolver.size := h.numbers ▸ List.mem_map_of_mem hmem
  rw [h.length_eq]
  exact (List.mem_range'_1.mp hi).2

theorem size_eq_card (h : Caches zone rotation base resolver fleet log) :
    resolver.size = (log.filterMap Exchange.resolvedKey?).toFinset.card := by
  have hkeys : (log.filterMap Exchange.resolvedKey?).toFinset =
      (resolver.writers.map Prod.fst).toFinset := by
    ext key
    simp only [List.mem_toFinset, List.mem_filterMap, Exchange.resolvedKey?_eq_some_iff,
      List.mem_map, Prod.exists, exists_and_right, exists_eq_right, h.mem_iff]
    tauto
  rw [hkeys, List.toFinset_card_of_nodup h.keys, List.length_map, size]

/-! ### One exchange -/

theorem follows_of_found (h : Caches zone rotation base resolver fleet log)
    (hfound : a.number? = a.key?.bind resolver.find?) : a.Follows log where
  again b hb key i hresolved := by
    have hmem : (key, i) ∈ resolver.writers := (h.mem_iff key i).mpr ⟨b, hb, hresolved⟩
    rw [hfound, Option.bind_eq_some_iff]
    constructor
    · rintro ⟨key', hkey', hfind⟩
      rw [hkey', h.key_eq (mem_of_find? hfind) hmem]
    · exact fun hkey => ⟨key, hkey, (Resolver.find?_eq_some_iff h.keys).mpr hmem⟩
  got d i _ hi := by
    rw [hfound] at hi
    obtain ⟨key, hkey, hfind⟩ := Option.bind_eq_some_iff.mp hi
    obtain ⟨b, hb, hresolved⟩ := h.find?_eq_some_iff.mp hfind
    exact ⟨b, hb, key, hresolved, hkey⟩

theorem follows_of_added (h : Caches zone rotation base resolver fleet log)
    (hrequest : ∃ d, a.request = .resolve d) (hkey : a.key? = some key)
    (hnew : resolver.find? key = none) (hnumber : a.number? = some fleet.writers.length) :
    a.Follows log where
  again b hb key' i hresolved := by
    have hmem : (key', i) ∈ resolver.writers := (h.mem_iff key' i).mpr ⟨b, hb, hresolved⟩
    rw [hnumber, hkey]
    refine iff_of_false (fun hi => ?_) fun hkey' => ?_
    · exact (h.lt_length hmem).ne (Option.some.inj hi).symm
    · obtain rfl := Option.some.inj hkey'
      exact notMem_of_find? hnew (List.mem_map_of_mem hmem)
  got d i hget := by
    obtain ⟨d', hresolve⟩ := hrequest
    cases hget.symm.trans hresolve

theorem concat_of_known (h : Caches zone rotation base resolver fleet log)
    (hwriters : fleet'.writers = fleet.writers)
    (hknown : ∀ key i, a.Resolved key i → (key, i) ∈ resolver.writers) :
    Caches zone rotation base resolver fleet' (log ++ [a]) where
  zone_eq := h.zone_eq
  rotation_eq := h.rotation_eq
  keys := h.keys
  mem_iff key i := by
    constructor
    · intro hmem
      obtain ⟨b, hb, hresolved⟩ := (h.mem_iff key i).mp hmem
      exact ⟨b, List.mem_append_left _ hb, hresolved⟩
    · rintro ⟨b, hb, hresolved⟩
      rcases List.mem_append.mp hb with hold | hlast
      · exact (h.mem_iff key i).mpr ⟨b, hold, hresolved⟩
      · obtain rfl := List.mem_singleton.mp hlast
        exact hknown key i hresolved
  numbers := h.numbers
  length_eq := (congrArg List.length hwriters).trans h.length_eq

theorem concat_of_added (h : Caches zone rotation base resolver fleet log)
    (hkey : resolver.find? key = none) {w : LogWriter}
    (hwriters : fleet'.writers = fleet.writers ++ [w])
    (hadded : ∀ key' i, a.Resolved key' i ↔ (key', i) = (key, fleet.writers.length)) :
    Caches zone rotation base
      { resolver with writers := resolver.writers ++ [(key, fleet.writers.length)] } fleet'
      (log ++ [a]) where
  zone_eq := h.zone_eq
  rotation_eq := h.rotation_eq
  keys := by
    rw [List.map_append, List.map_singleton, ← List.concat_eq_append]
    exact h.keys.concat (notMem_of_find? hkey)
  mem_iff key' i := by
    simp only [List.mem_append, List.mem_singleton, or_and_right, exists_or, exists_eq_left,
      h.mem_iff, hadded]
  numbers := by
    rw [List.map_append, h.numbers, List.map_singleton, h.length_eq]
    simp [size, List.range'_concat]
  length_eq := by simp [size, hwriters, h.length_eq, Nat.add_assoc]

/-- **One exchange**: the answer agrees with those before, and no writer is lost. -/
theorem answer (h : Caches zone rotation base resolver fleet log) {host : Host} {request : Request}
    {number? : Option Nat} {resolver' : Resolver}
    (hanswer : resolver.answer { fleet with host := host } request = (number?, resolver', fleet')) :
    Exchange.Follows ⟨request, keyOf? host.fs.cwdPath request.destination, number?⟩ log ∧
      Caches zone rotation base resolver' fleet'
        (log ++ [⟨request, keyOf? host.fs.cwdPath request.destination, number?⟩]) ∧
      fleet.writers <+: fleet'.writers := by
  cases request with
  | get d =>
    rw [Resolver.answer] at hanswer
    cases hanswer
    refine ⟨h.follows_of_found (resolver.get?_eq host.fs.cwdPath d),
      h.concat_of_known rfl ?_, List.prefix_rfl⟩
    rintro key i ⟨⟨_, hrequest⟩, _⟩
    cases hrequest
  | resolve d =>
    have hmet : Resolver.get? resolver host.fs.cwdPath d =
      (keyOf? host.fs.cwdPath d).bind resolver.find? := resolver.get?_eq host.fs.cwdPath d
    cases hget : resolver.get? host.fs.cwdPath d with
    | some i =>
      rw [Resolver.answer, resolve_of_get? { fleet with host := host } hget] at hanswer
      cases hanswer
      refine ⟨h.follows_of_found (hget.symm.trans hmet), h.concat_of_known rfl ?_,
        List.prefix_rfl⟩
      rintro key j ⟨_, hkey, hj⟩
      obtain rfl := Option.some.inj hj
      rw [hget, show keyOf? host.fs.cwdPath d = some key from hkey] at hmet
      exact mem_of_find? hmet.symm
    | none =>
      rcases resolve_of_get?_eq_none { fleet with host := host } hget with
        ⟨e, made, hresolve, hwriters⟩ | ⟨key, made, w, hkey, hresolve, hwriters⟩
      · rw [Resolver.answer, hresolve] at hanswer
        cases hanswer
        refine ⟨h.follows_of_found (hget.symm.trans hmet), h.concat_of_known hwriters ?_, ?_⟩
        · rintro key i ⟨_, _, hi⟩
          cases hi
        · rw [hwriters]
      · rw [Resolver.answer, hresolve] at hanswer
        cases hanswer
        have hnew : resolver.find? key = none := by rwa [hmet, hkey] at hget
        refine ⟨h.follows_of_added ⟨d, rfl⟩ hkey hnew rfl, h.concat_of_added hnew hwriters ?_, ?_⟩
        · exact fun key' i => Exchange.resolved_resolve_iff hkey
        · rw [hwriters]
          exact List.prefix_append ..

/-! ### A run -/

/-- **Any number of exchanges**: each answer agrees with those before it, and no writer is lost. -/
theorem exchanges (h : Caches zone rotation base resolver fleet log)
    (requests : List (Host × Request)) :
    ∃ later resolver' fleet', resolver.exchanges fleet requests = (later, resolver', fleet') ∧
      later.map Exchange.request = requests.map Prod.snd ∧
      (∀ before a after, later = before ++ a :: after → a.Follows (log ++ before)) ∧
      Caches zone rotation base resolver' fleet' (log ++ later) ∧
      fleet.writers <+: fleet'.writers := by
  induction requests generalizing resolver fleet log with
  | nil =>
    exact ⟨[], resolver, fleet, rfl, rfl, fun before a after hsplit => by simp at hsplit,
      (List.append_nil log).symm ▸ h, List.prefix_rfl⟩
  | cons call rest ih =>
    obtain ⟨host, request⟩ := call
    rcases hanswer : resolver.answer { fleet with host := host } request with
      ⟨number?, resolver', fleet'⟩
    obtain ⟨hfollows, hnext, hgrows⟩ := h.answer hanswer
    obtain ⟨later, last, final, hrun, hrequests, hlater, hfinal, hmore⟩ := ih hnext
    refine ⟨⟨request, keyOf? host.fs.cwdPath request.destination, number?⟩ :: later, last, final,
      ?_, ?_, ?_, ?_, hgrows.trans hmore⟩
    · simp only [Resolver.exchanges, hanswer, hrun]
    · exact congrArg (request :: ·) hrequests
    · intro before a after hsplit
      rcases List.cons_eq_append_iff.mp hsplit with ⟨rfl, hlast⟩ | ⟨before, rfl, hlast⟩
      · obtain ⟨rfl, -⟩ := List.cons.inj hlast
        exact (List.append_nil log).symm ▸ hfollows
      · have hfollows' := hlater before a after hlast
        rwa [List.append_assoc] at hfollows'
    · rwa [List.append_assoc] at hfinal

end Caches

/-- **A resolver is a cache of its writers**, whatever host each request meets. A key that was
resolved has its writer for good, and only such a key has a writer that can be got. There are as
many writers as keys that were resolved. A call that fails leaves no trace: a later call succeeds if
its key was resolved, or if it would succeed for a new resolver. -/
theorem cache_follows_requests (zone : Zone) (rotation : Rotation) (fleet : Fleet)
    (requests : List (Host × Request)) :
    ∃ log resolver fleet',
      (empty zone rotation).exchanges fleet requests = (log, resolver, fleet') ∧
      log.map Exchange.request = requests.map Prod.snd ∧
      (∀ before a after, log = before ++ a :: after → a.Follows before) ∧
      resolver.size = (log.filterMap Exchange.resolvedKey?).toFinset.card ∧
      fleet'.writers.length = fleet.writers.length + resolver.size ∧
      fleet.writers <+: fleet'.writers ∧
      ∀ host d, let outcome := resolver.resolve { fleet' with host := host } d
        (∀ e, outcome.1 = .error e →
          outcome.2.1 = resolver ∧ outcome.2.2.writers = fleet'.writers) ∧
        ((∃ i, outcome.1 = .ok i) ↔
          (∃ a ∈ log, ∃ key i, a.Resolved key i ∧ keyOf? host.fs.cwdPath d = some key) ∨
            ∃ i, ((empty zone rotation).resolve ⟨host, fleet'.now, []⟩ d).1 = .ok i) := by
  obtain ⟨log, resolver, fleet', hrun, hrequests, hfollows, hcaches, hgrows⟩ :=
    (Caches.start zone rotation fleet).exchanges requests
  simp only [List.nil_append] at hfollows hcaches
  refine ⟨log, resolver, fleet', hrun, hrequests, hfollows, hcaches.size_eq_card,
    hcaches.length_eq, hgrows, fun host d => ⟨fun e he => ?_, ?_⟩⟩
  · cases hget : resolver.get? host.fs.cwdPath d with
    | some i =>
      rw [resolve_of_get? { fleet' with host := host } hget] at he
      cases he
    | none =>
      rcases resolve_of_get?_eq_none { fleet' with host := host } hget with
        ⟨_, made, hresolve, hwriters⟩ | ⟨_, made, _, _, hresolve, _⟩
      · rw [hresolve]
        exact ⟨rfl, hwriters⟩
      · rw [hresolve] at he
        cases he
  · have hiff := resolver.resolve_ok_iff { fleet' with host := host } d
    rw [hcaches.zone_eq, hcaches.rotation_eq] at hiff
    refine hiff.trans (or_congr_left ?_)
    constructor
    · rintro ⟨key, i, hkey, hfind⟩
      obtain ⟨a, ha, hresolved⟩ := hcaches.find?_eq_some_iff.mp hfind
      exact ⟨a, ha, key, i, hresolved, hkey⟩
    · rintro ⟨a, ha, key, i, hresolved, hkey⟩
      exact ⟨key, i, hkey, hcaches.find?_eq_some_iff.mpr ⟨a, ha, hresolved⟩⟩

/-- A file in the place of its directory makes a call fail. The same call succeeds when the file is
gone, and its writer is kept when the file is back. Where the current directory was removed, only the
path from the root still finds the writer. -/
theorem cache_follows_requests_around_file :
    let blocked : Host := .ofFileSystem
      { FileSystem.empty with entries := [([['d']], .file 0)], stored := [⟨[], 0⟩] }
    let free : Host := .ofFileSystem .empty
    let removed : Host := .ofFileSystem { FileSystem.empty with cwd := [['w']] }
    let run := (empty .utc .initial).exchanges ⟨free, ⟨0, 0⟩, []⟩
      [(blocked, .resolve "d/app.log"), (free, .resolve "d/app.log"),
        (blocked, .resolve "./d/app.log"), (removed, .resolve "d/app.log"),
        (removed, .get "/d/app.log"), (free, .get "app.log")]
    run.1.map (·.number?) = [none, some 0, some 0, none, some 0, none] ∧
      run.2.1.size = 1 ∧ run.2.2.writers.length = 1 := by
  intro blocked free removed run
  obtain ⟨log, resolver, fleet', hrun, -, -, hsize, hlength, -⟩ :=
    cache_follows_requests .utc .initial ⟨free, ⟨0, 0⟩, []⟩
      [(blocked, .resolve "d/app.log"), (free, .resolve "d/app.log"),
        (blocked, .resolve "./d/app.log"), (removed, .resolve "d/app.log"),
        (removed, .get "/d/app.log"), (free, .get "app.log")]
  have hlog : run.1 = [⟨.resolve "d/app.log", some "/d/app.log", none⟩,
      ⟨.resolve "d/app.log", some "/d/app.log", some 0⟩,
      ⟨.resolve "./d/app.log", some "/d/app.log", some 0⟩, ⟨.resolve "d/app.log", none, none⟩,
      ⟨.get "/d/app.log", some "/d/app.log", some 0⟩, ⟨.get "app.log", some "/app.log", none⟩] := by
    decide +kernel
  have hrun : run = (log, resolver, fleet') := hrun
  rw [hrun] at hlog
  have hcard : resolver.size = 1 := by
    rw [hsize, show log = _ from hlog]
    rfl
  rw [hrun]
  refine ⟨congrArg (List.map (·.number?)) hlog, hcard, ?_⟩
  rw [hlength, hcard]
  rfl

end Resolver

end LogRouter
