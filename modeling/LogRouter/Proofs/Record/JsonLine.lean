import LogRouter.Proofs.Json.Members
import LogRouter.Proofs.Json.RoundTrip
import LogRouter.Proofs.Text.Utf8
import LogRouter.Record.Encoder

/-!
# JSON lines

* `Record.IsValid`: the keys of the fields ascend, and their numbers are valid.
* `envelopeMembers`: the members of the object on a line; they are the four keys of every line and
  the fields, which never have one of these keys (`keys_envelopeFields`).
* `IsObjectLine`: some bytes are one line with one object; `isObjectLine_encode`: so is a JSON line.
* **`encode_json_line`**: a JSON line is one line with one object, whose keys differ and which tells
  the time, the level, the target and the message of the record, whatever the fields are.
* `KeepsFields`: an object has some fields, and nothing else beside its four keys; `standing`: the
  fields with keys that no other one is moved to.
* **`keeps_fields_iff`**: a JSON line keeps the fields that stand, and so it keeps all fields exactly
  if none has the key that another one is moved to.
-/

namespace LogRouter

/-- What a record is like: the keys of its fields ascend, and the numbers in them are valid. -/
structure Record.IsValid (r : Record) : Prop where
  ascending : Json.Ascending r.fields
  valid : Json.MembersValid r.fields

namespace Encoder

open Json (keys member?)

/-! ## The keys of a line -/

theorem field_append_inj {k k' : String} (h : "field." ++ k = "field." ++ k') : k = k' := by
  have := congrArg String.toList h
  rw [String.toList_append, String.toList_append, List.append_cancel_left_eq] at this
  exact String.toList_inj.mp this

theorem fieldKey_notMem (key : String) : fieldKey key ∉ reservedKeys := by
  have hmoved : ∀ k ∈ reservedKeys, "field." ++ k ∉ reservedKeys := by decide
  unfold fieldKey
  split_ifs with h
  · exact hmoved key h
  · exact h

/-- The fields under the keys that they have on a line. -/
def moved (fields : Json.Members) : Json.Members := fields.map fun (k, v) => (fieldKey k, v)

theorem keys_moved (fields : Json.Members) : keys (moved fields) = (keys fields).map fieldKey := by
  unfold moved keys
  rw [List.map_map, List.map_map]
  rfl

/-- No field has one of the keys of every line. -/
def HasNoReserved (fields : Json.Members) : Prop := ∀ k ∈ keys fields, k ∉ reservedKeys

theorem moved_of_hasNoReserved {fields : Json.Members} (h : HasNoReserved fields) :
    moved fields = fields := by
  have hsame : ∀ m ∈ fields, (fieldKey m.1, m.2) = m := fun m hm => by
    rw [fieldKey, if_neg (h m.1 (List.mem_map_of_mem hm))]
  exact (List.map_congr_left hsame).trans (List.map_id' fields)

theorem envelopeFields_cases (fields : Json.Members) :
    (HasNoReserved fields ∧ envelopeFields fields = moved fields) ∨
      envelopeFields fields = Json.sortMembers (moved fields) := by
  unfold envelopeFields
  by_cases h : HasNoReserved fields
  · refine Or.inl ⟨h, ?_⟩
    rw [moved_of_hasNoReserved h, if_neg]
    rw [List.any_eq_true]
    rintro ⟨m, hm, hmem⟩
    exact h m.1 (List.mem_map_of_mem hm) (of_decide_eq_true hmem)
  · refine Or.inr (if_pos ?_)
    unfold HasNoReserved at h
    push Not at h
    obtain ⟨k, hk, hreserved⟩ := h
    obtain ⟨m, hm, rfl⟩ := List.mem_map.mp hk
    exact List.any_eq_true.mpr ⟨m, hm, decide_eq_true hreserved⟩

variable {fields : Json.Members}

/-- **The fields on a line never have one of its own keys.** -/
theorem keys_envelopeFields {k : String} (h : k ∈ keys (envelopeFields fields)) :
    k ∉ reservedKeys := by
  have hmoved : k ∈ keys (moved fields) := by
    rcases envelopeFields_cases fields with ⟨_, heq⟩ | heq
    · rwa [heq] at h
    · rwa [heq, Json.mem_keys_sortMembers] at h
  rw [keys_moved] at hmoved
  obtain ⟨key, _, rfl⟩ := List.mem_map.mp hmoved
  exact fieldKey_notMem key

theorem nodup_envelopeFields (h : Json.Ascending fields) :
    (keys (envelopeFields fields)).Nodup := by
  rcases envelopeFields_cases fields with ⟨hnone, heq⟩ | heq
  · rw [heq, moved_of_hasNoReserved hnone]
    exact h.nodup
  · rw [heq]
    exact (Json.ascending_sortMembers _).nodup

theorem valid_envelopeFields (h : Json.MembersValid fields) :
    Json.MembersValid (envelopeFields fields) := by
  rw [Json.membersValid_iff] at h ⊢
  intro m hm
  have hmoved : m ∈ moved fields := by
    rcases envelopeFields_cases fields with ⟨_, heq⟩ | heq
    · rwa [heq] at hm
    · exact Json.sortMembers_subset _ (heq ▸ hm)
  obtain ⟨m', hm', rfl⟩ := List.mem_map.mp hmoved
  exact h m' hm'

/-! ## Reading a line -/

/-- The members of the object on the line of a record. -/
def envelopeMembers (zone : Zone) (r : Record) : Json.Members :=
  [("timestamp", .string (String.ofList (timeText zone r.time))), ("level", .string r.severity.name),
    ("logger", .string r.target), ("message", .string r.message)] ++ envelopeFields r.fields

theorem nodup_envelopeMembers {r : Record} (hr : r.IsValid) (zone : Zone) :
    (keys (envelopeMembers zone r)).Nodup := by
  unfold envelopeMembers
  rw [Json.keys_append, List.nodup_append]
  refine ⟨(by decide : reservedKeys.Nodup), nodup_envelopeFields hr.ascending, ?_⟩
  rintro k hk k' hk' rfl
  exact keys_envelopeFields hk' hk

theorem valid_envelope {r : Record} (hr : r.IsValid) (zone : Zone) :
    (envelope zone r).IsValid :=
  ⟨trivial, trivial, trivial, trivial, valid_envelopeFields hr.valid⟩

/-- The bytes are one line, and what stands in front of its end is the text of a JSON object with
the given members. -/
def IsObjectLine (line : Bytes) (members : Json.Members) : Prop :=
  ∃ body text, line = body ++ [10] ∧ 10 ∉ body ∧ Utf8.decode? body = some text ∧
    Json.read? text = some (.object members)

theorem IsObjectLine.unique {line : Bytes} {members members' : Json.Members}
    (h : IsObjectLine line members) (h' : IsObjectLine line members') : members = members' := by
  obtain ⟨body, text, rfl, _, htext, hread⟩ := h
  obtain ⟨body', text', hline, _, htext', hread'⟩ := h'
  obtain rfl := List.append_cancel_right hline
  obtain rfl := Option.some.inj (htext.symm.trans htext')
  exact Json.object.inj (Option.some.inj (hread.symm.trans hread'))

/-- **A line is read back as its object.** -/
theorem isObjectLine_encode (zone : Zone) {r : Record} (hr : r.IsValid) :
    IsObjectLine (Encoder.json.encode zone r) (envelopeMembers zone r) := by
  refine ⟨Utf8.encode (envelope zone r).render, (envelope zone r).render, ?_, ?_,
    Utf8.decode?_encode _, Json.read?_render (valid_envelope hr zone)⟩
  · exact List.flatMap_append
  · rw [Utf8.newline_mem_encode_iff]
    exact newline_notMem (Json.noControl_render _)

theorem exists_renderItems?_time (m : Moment) : ∃ text, renderItems? m timeItems = some text :=
  ⟨_, rfl⟩

/-- **A JSON line is one line with one object**, whose keys differ and which tells the time, the
level, the target and the message of the record, whatever the fields are. -/
theorem encode_json_line (zone : Zone) {r : Record} (hr : r.IsValid) : ∃ members time,
    IsObjectLine (Encoder.json.encode zone r) members ∧ (keys members).Nodup ∧
    renderItems? (Moment.ofInstant zone r.time) timeItems = some time ∧
    member? "timestamp" members = some (.string (String.ofList time)) ∧
    member? "level" members = some (.string r.severity.name) ∧
    member? "logger" members = some (.string r.target) ∧
    member? "message" members = some (.string r.message) := by
  obtain ⟨time, htime⟩ := exists_renderItems?_time (Moment.ofInstant zone r.time)
  refine ⟨envelopeMembers zone r, time, isObjectLine_encode zone hr, nodup_envelopeMembers hr zone,
    htime, ?_, rfl, rfl, rfl⟩
  have htext : timeText zone r.time = time := by rw [timeText, htime, Option.getD_some]
  rw [← htext]
  rfl

theorem encode_json_line_with_reserved_field : ∃ members time,
    IsObjectLine (Encoder.json.encode .utc ⟨⟨1735830245, 0⟩, .info, "api", "a\nb",
      [("level", .string "\"\n"), ("path", .array [.number (.integer 1), .null])]⟩) members ∧
    (keys members).Nodup ∧
    renderItems? (Moment.ofInstant .utc ⟨1735830245, 0⟩) timeItems = some time ∧
    member? "timestamp" members = some (.string (String.ofList time)) ∧
    member? "level" members = some (.string "info") ∧
    member? "logger" members = some (.string "api") ∧
    member? "message" members = some (.string "a\nb") :=
  encode_json_line .utc ⟨by decide, trivial, ⟨⟨by decide, by decide⟩, trivial, trivial⟩, trivial⟩

/-! ## Fields that are lost -/

/-- The object has four keys and one for each field, and each field is under its own key, or under
the one that it is moved to. -/
def KeepsFields (members fields : Json.Members) : Prop :=
  members.length = 4 + fields.length ∧ ∀ k v, (k, v) ∈ fields →
    member? (if k ∈ reservedKeys then "field." ++ k else k) members = some v

/-- Some field is moved to the key. -/
def IsTaken (fields : Json.Members) (k : String) : Prop :=
  ∃ key ∈ keys fields, key ∈ reservedKeys ∧ k = "field." ++ key

instance (fields : Json.Members) (k : String) : Decidable (IsTaken fields k) :=
  inferInstanceAs (Decidable (∃ key ∈ keys fields, _))

/-- Some field has the key that another one is moved to. -/
def HasClash (fields : Json.Members) : Prop := ∃ k ∈ keys fields, IsTaken fields k

/-- The fields with keys that no other one is moved to. -/
def standing (fields : Json.Members) : Json.Members :=
  fields.filter fun (k, _) => decide (¬ IsTaken fields k)

theorem mem_standing_iff {k : String} {v : Json} :
    (k, v) ∈ standing fields ↔ (k, v) ∈ fields ∧ ¬ IsTaken fields k :=
  List.mem_filter.trans (and_congr_right fun _ => decide_eq_true_iff)

theorem mem_keys_standing_iff {k : String} :
    k ∈ keys (standing fields) ↔ k ∈ keys fields ∧ ¬ IsTaken fields k := by
  constructor
  · intro h
    obtain ⟨⟨k, v⟩, hm, rfl⟩ := List.mem_map.mp h
    obtain ⟨hm, hfree⟩ := mem_standing_iff.mp hm
    exact ⟨List.mem_map_of_mem hm, hfree⟩
  · rintro ⟨h, hfree⟩
    obtain ⟨⟨k, v⟩, hm, rfl⟩ := List.mem_map.mp h
    exact List.mem_map_of_mem (mem_standing_iff.mpr ⟨hm, hfree⟩)

theorem length_standing_eq_iff :
    (standing fields).length = fields.length ↔ ¬ HasClash fields := by
  rw [standing, List.length_filter_eq_length_iff]
  constructor
  · rintro h ⟨k, hk, htaken⟩
    obtain ⟨m, hm, rfl⟩ := List.mem_map.mp hk
    exact of_decide_eq_true (h m hm) htaken
  · intro h m hm
    exact decide_eq_true fun htaken => h ⟨m.1, List.mem_map_of_mem hm, htaken⟩

theorem standing_of_not_hasClash (h : ¬ HasClash fields) : standing fields = fields :=
  List.filter_sublist.eq_of_length (length_standing_eq_iff.mpr h)

theorem not_hasClash_of_hasNoReserved (h : HasNoReserved fields) : ¬ HasClash fields := by
  rintro ⟨_, _, key, hkey, hreserved, _⟩
  exact h key hkey hreserved

theorem not_isTaken_of_reserved {k : String} (h : k ∈ reservedKeys) : ¬ IsTaken fields k := by
  rintro ⟨key, _, hreserved, rfl⟩
  exact fieldKey_notMem key (by rwa [fieldKey, if_pos hreserved])

theorem fieldKey_of_isTaken {k : String} (h : IsTaken fields k) :
    ∃ key ∈ keys (standing fields), fieldKey key = fieldKey k := by
  have hk : k ∉ reservedKeys := fun hmem => not_isTaken_of_reserved hmem h
  obtain ⟨key, hkey, hreserved, rfl⟩ := h
  refine ⟨key, mem_keys_standing_iff.mpr ⟨hkey, not_isTaken_of_reserved hreserved⟩, ?_⟩
  rw [fieldKey, if_pos hreserved, fieldKey, if_neg hk]

/-- **A field that stands shares its key on a line at most with a smaller one that does not.** -/
theorem eq_or_lt_of_fieldKey_eq {k k' : String} (hk : k ∈ keys fields) (hk' : k' ∈ keys fields)
    (hfree : ¬ IsTaken fields k) (heq : fieldKey k' = fieldKey k) :
    k' = k ∨ IsTaken fields k' ∧ k' < k := by
  have hbelow : ∀ key ∈ reservedKeys, "field." ++ key < key := by decide
  unfold fieldKey at heq
  split_ifs at heq with hreserved' hreserved hreserved
  · exact Or.inl (field_append_inj heq)
  · exact absurd ⟨k', hk', hreserved', heq.symm⟩ hfree
  · exact Or.inr ⟨⟨k, hk, hreserved, heq⟩, heq ▸ hbelow k hreserved⟩
  · exact Or.inl heq

theorem nodup_keys_moved_standing (h : (keys fields).Nodup) :
    (keys (moved (standing fields))).Nodup := by
  have hstanding : (keys (standing fields)).Nodup := h.sublist (List.filter_sublist.map _)
  rw [keys_moved, List.nodup_map_iff_inj_on hstanding]
  intro k hk k' hk' heq
  obtain ⟨hmem, hfree⟩ := mem_keys_standing_iff.mp hk
  obtain ⟨hmem', hfree'⟩ := mem_keys_standing_iff.mp hk'
  exact (eq_or_lt_of_fieldKey_eq hmem' hmem hfree' heq).resolve_right fun h => hfree h.1

theorem mem_keys_moved_standing_iff {k : String} :
    k ∈ keys (moved (standing fields)) ↔ k ∈ keys (moved fields) := by
  rw [keys_moved, keys_moved, List.mem_map, List.mem_map]
  constructor
  · rintro ⟨key, hkey, rfl⟩
    exact ⟨key, (mem_keys_standing_iff.mp hkey).1, rfl⟩
  · rintro ⟨key, hkey, rfl⟩
    by_cases htaken : IsTaken fields key
    · exact fieldKey_of_isTaken htaken
    · exact ⟨key, mem_keys_standing_iff.mpr ⟨hkey, htaken⟩, rfl⟩

theorem length_envelopeFields (h : Json.Ascending fields) :
    (envelopeFields fields).length = (standing fields).length := by
  rcases envelopeFields_cases fields with ⟨hnone, heq⟩ | heq
  · rw [heq, moved_of_hasNoReserved hnone,
      standing_of_not_hasClash (not_hasClash_of_hasNoReserved hnone)]
  · have hkeys : (keys (moved fields)).toFinset = (keys (moved (standing fields))).toFinset := by
      ext k
      rw [List.mem_toFinset, List.mem_toFinset, mem_keys_moved_standing_iff]
    rw [heq, Json.length_sortMembers, hkeys,
      List.toFinset_card_of_nodup (nodup_keys_moved_standing h.nodup), keys_moved, List.length_map,
      keys, List.length_map]

theorem fieldKey_notMem_of_above {before after : Json.Members} {k : String} {v : Json}
    (h : Json.Ascending (before ++ (k, v) :: after))
    (hfree : ¬ IsTaken (before ++ (k, v) :: after) k) : fieldKey k ∉ keys (moved after) := by
  intro hmem
  rw [keys_moved] at hmem
  obtain ⟨k', hk', hsame⟩ := List.mem_map.mp hmem
  have hkeys : keys (before ++ (k, v) :: after) = keys before ++ k :: keys after :=
    Json.keys_append _ _
  have habove : k < k' := by
    rw [Json.Ascending, hkeys, List.pairwise_append, List.pairwise_cons] at h
    exact h.2.1.1 k' hk'
  have hfirst : k ∈ keys (before ++ (k, v) :: after) := by simp [hkeys]
  have hsecond : k' ∈ keys (before ++ (k, v) :: after) := by simp [hkeys, hk']
  rcases eq_or_lt_of_fieldKey_eq hfirst hsecond hfree hsame with rfl | ⟨_, hlt⟩
  · exact lt_irrefl _ habove
  · exact lt_asymm habove hlt

/-- **Of two fields that get one key the greater one is on the line.** -/
theorem member?_envelopeFields {k : String} {v : Json} (h : Json.Ascending fields)
    (hm : (k, v) ∈ standing fields) : member? (fieldKey k) (envelopeFields fields) = some v := by
  obtain ⟨hmem, hfree⟩ := mem_standing_iff.mp hm
  rcases envelopeFields_cases fields with ⟨hnone, heq⟩ | heq
  · have hnodup : (keys (moved fields)).Nodup := by
      rw [moved_of_hasNoReserved hnone]
      exact h.nodup
    rw [heq]
    exact Json.member?_of_mem hnodup (List.mem_map_of_mem hmem)
  · -- sorting keeps the last of several values, and no later field is under this key
    obtain ⟨before, after, rfl⟩ := List.append_of_mem hmem
    have hlater : fieldKey k ∉ keys (moved after).reverse := by
      rw [keys, List.map_reverse, List.mem_reverse]
      exact fieldKey_notMem_of_above h hfree
    have hsplit : (moved (before ++ (k, v) :: after)).reverse =
        (moved after).reverse ++ (fieldKey k, v) :: (moved before).reverse := by
      simp [moved]
    rw [heq, Json.member?_sortMembers, hsplit, Json.member?_append, Json.member?_eq_none hlater,
      Option.none_or, Json.member?_cons, if_pos rfl]

theorem length_envelopeMembers (zone : Zone) {r : Record} (hr : r.IsValid) :
    (envelopeMembers zone r).length = 4 + (standing r.fields).length := by
  rw [envelopeMembers, List.length_append, length_envelopeFields hr.ascending]
  rfl

/-- **The object keeps the fields that stand**, and nothing else. -/
theorem keepsFields_standing (zone : Zone) {r : Record} (hr : r.IsValid) :
    KeepsFields (envelopeMembers zone r) (standing r.fields) := by
  refine ⟨length_envelopeMembers zone hr, fun k v hm => ?_⟩
  change member? (fieldKey k) _ = some v
  rw [envelopeMembers, Json.member?_append, Json.member?_eq_none (fieldKey_notMem k),
    Option.none_or]
  exact member?_envelopeFields hr.ascending hm

theorem keepsFields_iff (zone : Zone) {r : Record} (hr : r.IsValid) :
    KeepsFields (envelopeMembers zone r) r.fields ↔ ¬ HasClash r.fields := by
  constructor
  · rintro ⟨hlength, _⟩
    rw [length_envelopeMembers zone hr, Nat.add_left_cancel_iff] at hlength
    exact length_standing_eq_iff.mp hlength
  · intro hclash
    have hkeeps := keepsFields_standing zone hr
    rwa [standing_of_not_hasClash hclash] at hkeeps

/-- **A JSON line keeps the fields with keys that no other one is moved to**, and so it keeps all of
them exactly if no field has the key that another one is moved to. -/
theorem keeps_fields_iff (zone : Zone) {r : Record} (hr : r.IsValid) : ∃ members,
    IsObjectLine (Encoder.json.encode zone r) members ∧ (keys members).Nodup ∧
    KeepsFields members (standing r.fields) ∧
    (KeepsFields members r.fields ↔ ¬ HasClash r.fields) :=
  ⟨envelopeMembers zone r, isObjectLine_encode zone hr, nodup_envelopeMembers hr zone,
    keepsFields_standing zone hr, keepsFields_iff zone hr⟩

theorem keeps_fields_with_reserved_field : ∃ members,
    IsObjectLine (Encoder.json.encode .utc
      ⟨⟨1735830245, 0⟩, .info, "api", "up", [("level", .number (.integer 1)), ("path", .null)]⟩)
      members ∧ (keys members).Nodup ∧
    KeepsFields members (standing [("level", .number (.integer 1)), ("path", .null)]) ∧
    (KeepsFields members [("level", .number (.integer 1)), ("path", .null)] ↔
      ¬ HasClash [("level", .number (.integer 1)), ("path", .null)]) :=
  keeps_fields_iff .utc ⟨by decide, ⟨⟨by decide, by decide⟩, trivial, trivial⟩⟩

/-- A line with five keys for a record with two fields. -/
theorem loses_field_with_moved_key : ∃ members,
    IsObjectLine (Encoder.json.encode .utc ⟨⟨1735830245, 0⟩, .info, "api", "up",
      [("field.level", .number (.integer 2)), ("level", .number (.integer 1))]⟩) members ∧
    members.length = 5 ∧ member? "field.level" members = some (.number (.integer 1)) ∧
    ¬ KeepsFields members
      [("field.level", .number (.integer 2)), ("level", .number (.integer 1))] := by
  let r : Record := ⟨⟨1735830245, 0⟩, .info, "api", "up",
    [("field.level", .number (.integer 2)), ("level", .number (.integer 1))]⟩
  have hr : r.IsValid :=
    ⟨by decide, ⟨⟨by decide, by decide⟩, ⟨by decide, by decide⟩, trivial⟩⟩
  have hclash : HasClash r.fields :=
    ⟨"field.level", by decide, "level", by decide, by decide, rfl⟩
  have hkeeps := keepsFields_standing .utc hr
  refine ⟨envelopeMembers .utc r, isObjectLine_encode .utc hr, hkeeps.1, ?_,
    fun h => (keepsFields_iff .utc hr).mp h hclash⟩
  exact hkeeps.2 "level" (.number (.integer 1))
    (mem_standing_iff.mpr ⟨List.mem_cons_of_mem _ List.mem_cons_self, by decide⟩)

end Encoder

end LogRouter
