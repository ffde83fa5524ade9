import LogRouter.Proofs.Json.RoundTrip
import LogRouter.Proofs.Record.JsonLine

/-!
# The fields of text lines

* `LiteralState`, `pieces`: a text is split at the spaces outside of the JSON literals of strings;
  `scan?`: the state behind a text that has no such space.
* `Json.scan?_render`: the text of a JSON value has no space outside of its literals, and ends outside
  of them; so does the value of a field (`scan?_fieldValue`).
* `readFields?`: reads keys and values from the pieces of a text, each at its first `=`.
* `readFields?_fieldsText`: the fields of a text line are read back.
* `string_eq_of_fieldValue`, `eq_of_fieldValue`: strings with one text are equal, and so are valid
  values of other kinds.
* **`text_fields_told_apart`**: what follows the message on a text line tells the fields of a record.
-/

namespace LogRouter

/-! ## Splitting outside of literals -/

/-- Where a reader of a text is: outside of the literals of strings, in one, or in one behind a
backslash. -/
inductive LiteralState where
  | outside
  | inside
  | escaped
  deriving DecidableEq

namespace LiteralState

/-- The state behind one more character. -/
def next : LiteralState → Char → LiteralState
  | outside, c => if c = '"' then inside else outside
  | inside, c => if c = '"' then outside else if c = '\\' then escaped else inside
  | escaped, _ => inside

/-- The character is a space outside of literals. -/
def Breaks (state : LiteralState) (c : Char) : Prop := state = outside ∧ c = ' '

instance (state : LiteralState) (c : Char) : Decidable (state.Breaks c) :=
  inferInstanceAs (Decidable (_ ∧ _))

end LiteralState

/-- Splits a text at the spaces outside of literals. -/
def pieces (state : LiteralState) : List Char → List (List Char)
  | [] => [[]]
  | c :: rest =>
    if state.Breaks c then [] :: pieces .outside rest
    else (pieces (state.next c) rest).modifyHead (c :: ·)

/-- The state behind a text without spaces outside of literals. -/
def scan? (state : LiteralState) : List Char → Option LiteralState
  | [] => some state
  | c :: rest => if state.Breaks c then none else scan? (state.next c) rest

theorem scan?_nil (state : LiteralState) : scan? state [] = some state := rfl

theorem scan?_append (state : LiteralState) (s t : List Char) :
    scan? state (s ++ t) = (scan? state s).bind (scan? · t) := by
  induction s generalizing state with
  | nil => rfl
  | cons c s ih =>
    rw [List.cons_append, scan?, scan?]
    split_ifs
    · rfl
    · exact ih _

section Scan

variable {state state' : LiteralState} {s : List Char}

theorem scan?_append_of_eq (h : scan? state s = some state') (t : List Char) :
    scan? state (s ++ t) = scan? state' t := by
  rw [scan?_append, h, Option.bind_some]

/-- **A text without spaces outside of literals stays in one piece.** -/
theorem pieces_append (h : scan? state s = some state') (rest : List Char) :
    pieces state (s ++ rest) = (pieces state' rest).modifyHead (s ++ ·) := by
  induction s generalizing state with
  | nil =>
    obtain rfl := Option.some.inj h
    exact (congrFun List.modifyHead_id _).symm
  | cons c s ih =>
    rw [scan?] at h
    split_ifs at h with hbreaks
    rw [List.cons_append, pieces, if_neg hbreaks, ih h, List.modifyHead_modifyHead]
    rfl

theorem pieces_space (rest : List Char) :
    pieces .outside (' ' :: rest) = [] :: pieces .outside rest := if_pos ⟨rfl, rfl⟩

theorem scan?_outside_cons {c : Char} (hspace : c ≠ ' ') (hquote : c ≠ '"') (s : List Char) :
    scan? .outside (c :: s) = scan? .outside s := by
  have hnext : LiteralState.outside.next c = .outside := if_neg hquote
  rw [scan?, if_neg fun hbreaks => hspace hbreaks.2, hnext]

theorem scan?_inside_cons (c : Char) (s : List Char) :
    scan? .inside (c :: s) = scan? (LiteralState.inside.next c) s := rfl

theorem scan?_outside (h : ∀ c ∈ s, c ≠ ' ' ∧ c ≠ '"') : scan? .outside s = some .outside := by
  induction s with
  | nil => rfl
  | cons c s ih =>
    rw [List.forall_mem_cons] at h
    rw [scan?_outside_cons h.1.1 h.1.2, ih h.2]

end Scan

/-! ## The texts of values -/

theorem scan?_escape (c : Char) : scan? .inside (Text.Quoted.escape c) = some .inside := by
  have hhex : ∀ n < 16, LiteralState.inside.next (Text.hexDigit n) = .inside := by decide
  rcases Json.escape_cases c with
    ⟨letter, -, h⟩ | ⟨a, ha, b, hb, h⟩ | ⟨h, -, hquote, hbackslash⟩ <;> rw [h]
  · rfl
  · change scan? .inside [Text.hexDigit a, Text.hexDigit b] = _
    rw [scan?_inside_cons, hhex a ha, scan?_inside_cons, hhex b hb, scan?_nil]
  · rw [scan?_inside_cons, LiteralState.next, if_neg hquote, if_neg hbackslash, scan?_nil]

theorem scan?_flatMap_escape (s : List Char) :
    scan? .inside (s.flatMap Text.Quoted.escape) = some .inside := by
  induction s with
  | nil => rfl
  | cons c s ih => rw [List.flatMap_cons, scan?_append_of_eq (scan?_escape c), ih]

namespace Json

theorem scan?_quote (s : String) : scan? .outside (quote s) = some .outside := by
  change scan? .inside (s.toList.flatMap Text.Quoted.escape ++ ['"']) = _
  rw [scan?_append_of_eq (scan?_flatMap_escape _)]
  rfl

theorem scan?_number (n : Number) : scan? .outside n.render = some .outside := by
  have hdigit : ∀ c : Char, c.isDigit = true → (c != ' ' && c != '"') = true := by
    intro c hc
    have hnot : ∀ other : Char, other.isDigit = false → c ≠ other := by
      rintro other hother rfl
      rw [hc] at hother
      cases hother
    simp [hnot ' ' rfl, hnot '"' rfl]
  refine scan?_outside fun c hc => ?_
  simpa using List.all_eq_true.mp (all_number hdigit (by simp) n) c hc

mutual

/-- **The text of a value has no space outside of its literals**, and ends outside of them. -/
theorem scan?_render : ∀ v : Json, scan? .outside (render v) = some .outside
  | .null => rfl
  | .bool true => rfl
  | .bool false => rfl
  | .number n => scan?_number n
  | .string s => scan?_quote s
  | .array items => by
    rw [render, scan?_outside_cons (by decide) (by decide),
      scan?_append_of_eq (scan?_renderItems items)]
    rfl
  | .object members => by
    rw [render, scan?_outside_cons (by decide) (by decide),
      scan?_append_of_eq (scan?_renderMembers members)]
    rfl

theorem scan?_renderItems : ∀ items : List Json, scan? .outside (renderItems items) = some .outside
  | [] => rfl
  | [v] => scan?_render v
  | v :: w :: rest => by
    rw [renderItems, scan?_append_of_eq (scan?_render v),
      scan?_outside_cons (by decide) (by decide), scan?_renderItems (w :: rest)]

theorem scan?_renderMembers : ∀ members : Members,
    scan? .outside (renderMembers members) = some .outside
  | [] => rfl
  | [(k, v)] => by
    rw [renderMembers, scan?_append_of_eq (scan?_quote k),
      scan?_outside_cons (by decide) (by decide), scan?_render v]
  | (k, v) :: m :: rest => by
    rw [renderMembers, scan?_append_of_eq (scan?_quote k),
      scan?_outside_cons (by decide) (by decide), scan?_append_of_eq (scan?_render v),
      scan?_outside_cons (by decide) (by decide), scan?_renderMembers (m :: rest)]

end

end Json

/-! ## Reading the fields -/

/-- Splits a text at its first `=`. -/
def atEquals? (piece : List Char) : Option (List Char × List Char) :=
  match piece.dropWhile (· != '=') with
  | _ :: value => some (piece.takeWhile (· != '='), value)
  | [] => none

/-- Reads keys and values from a text: from its pieces behind the first space, each at its first `=`.
In front of the first space there is nothing. -/
def readFields? (text : List Char) : Option (List (List Char × List Char)) :=
  match pieces .outside text with
  | [] :: fields => fields.mapM atEquals?
  | _ => none

theorem atEquals?_append {key : List Char} (h : '=' ∉ key) (value : List Char) :
    atEquals? (key ++ '=' :: value) = some (key, value) := by
  have hkey : ∀ c ∈ key, (c != '=') = true := fun c hc =>
    bne_iff_ne.mpr fun heq => h (heq ▸ hc)
  unfold atEquals?
  rw [List.dropWhile_append_of_pos hkey, List.takeWhile_append_of_pos hkey]
  simp

/-- The text is a word: it has no blank, no `=` and no quote. -/
def IsWord (s : List Char) : Prop := ∀ c ∈ s, Text.isBlank c = false ∧ c ≠ '=' ∧ c ≠ '"'

theorem IsWord.scan? {s : List Char} (h : IsWord s) : scan? .outside s = some .outside :=
  scan?_outside fun c hc => by
    obtain ⟨hblank, -, hquote⟩ := h c hc
    refine ⟨?_, hquote⟩
    rintro rfl
    cases hblank

theorem IsWord.equals_notMem {s : List Char} (h : IsWord s) : '=' ∉ s := fun hmem =>
  (h '=' hmem).2.1 rfl

namespace Encoder

open Json (keys)

theorem needsQuotes_eq_false_iff {s : List Char} : needsQuotes s = false ↔ s ≠ [] ∧ IsWord s := by
  unfold needsQuotes IsWord
  simp [and_assoc]

/-- **The value of a field** has no space outside of literals, and ends outside of them. -/
theorem scan?_fieldValue (v : Json) : scan? .outside (fieldValue v) = some .outside := by
  unfold fieldValue
  split
  · split_ifs with hquotes
    · exact Json.scan?_quote _
    · exact (needsQuotes_eq_false_iff.mp (Bool.eq_false_iff.mpr hquotes)).2.scan?
  · exact Json.scan?_render _

/-- The text of a field, without the space in front of it. -/
def fieldText (m : String × Json) : List Char := m.1.toList ++ '=' :: fieldValue m.2

/-- The key and the value of a field as they are written. -/
def written (m : String × Json) : List Char × List Char := (m.1.toList, fieldValue m.2)

theorem keys_written (fields : Json.Members) :
    (fields.map written).map (fun field => String.ofList field.1) = keys fields := by
  simp [written, keys]

theorem fieldsText_cons (m : String × Json) (fields : Json.Members) :
    fieldsText (m :: fields) = ' ' :: (fieldText m ++ fieldsText fields) := rfl

theorem scan?_fieldText {m : String × Json} (h : IsWord m.1.toList) :
    scan? .outside (fieldText m) = some .outside := by
  rw [fieldText, scan?_append_of_eq h.scan?, scan?_outside_cons (by decide) (by decide),
    scan?_fieldValue]

theorem pieces_fieldsText : ∀ {fields : Json.Members}, (∀ m ∈ fields, IsWord m.1.toList) →
    pieces .outside (fieldsText fields) = [] :: fields.map fieldText
  | [], _ => rfl
  | m :: fields, h => by
    rw [List.forall_mem_cons] at h
    rw [fieldsText_cons, pieces_space, pieces_append (scan?_fieldText h.1), pieces_fieldsText h.2,
      List.modifyHead_cons, List.append_nil, List.map_cons]

theorem mapM_atEquals? : ∀ {fields : Json.Members}, (∀ m ∈ fields, IsWord m.1.toList) →
    (fields.map fieldText).mapM atEquals? = some (fields.map written)
  | [], _ => rfl
  | m :: fields, h => by
    rw [List.forall_mem_cons] at h
    rw [List.map_cons, List.mapM_cons, fieldText, atEquals?_append h.1.equals_notMem,
      mapM_atEquals? h.2]
    rfl

/-- **The fields of a text line are read back**, where their keys are words. -/
theorem readFields?_fieldsText {fields : Json.Members} (h : ∀ m ∈ fields, IsWord m.1.toList) :
    readFields? (fieldsText fields) = some (fields.map written) := by
  unfold readFields?
  rw [pieces_fieldsText h]
  exact mapM_atEquals? h

example : readFields? " a=\" =\" b=[\"\\\" \"] c=1=2".toList =
    some [("a".toList, "\" =\"".toList), ("b".toList, "[\"\\\" \"]".toList),
      ("c".toList, "1=2".toList)] := by
  decide

/-! ## Values with one text -/

theorem quote_injective {s t : String} (h : Json.quote s = Json.quote t) : s = t := by
  have hread : ∀ s : String, Json.read? (Json.quote s) = some (.string s) := fun s =>
    Json.read?_render (v := .string s) trivial
  have hboth := (hread s).symm.trans ((congrArg Json.read? h).trans (hread t))
  exact Json.string.inj (Option.some.inj hboth)

theorem quote_ne_of_isWord {s : List Char} (h : IsWord s) (t : String) : Json.quote t ≠ s := by
  rintro rfl
  exact (h '"' List.mem_cons_self).2.2 rfl

/-- **Strings with one text are equal**, whether they stand bare or in quotes. -/
theorem string_eq_of_fieldValue {s t : String}
    (h : fieldValue (.string s) = fieldValue (.string t)) : s = t := by
  have hbare : ∀ {s : String}, ¬ needsQuotes s.toList = true → IsWord s.toList := fun hs =>
    (needsQuotes_eq_false_iff.mp (Bool.eq_false_iff.mpr hs)).2
  simp only [fieldValue] at h
  split_ifs at h with hs ht ht
  · exact quote_injective h
  · exact absurd h (quote_ne_of_isWord (hbare ht) s)
  · exact absurd h.symm (quote_ne_of_isWord (hbare hs) t)
  · exact String.toList_inj.mp h

theorem fieldValue_of_ne_string {v : Json} (h : ∀ s, v ≠ .string s) : fieldValue v = v.render := by
  unfold fieldValue
  split
  · exact absurd rfl (h _)
  · rfl

/-- **Valid values that are no strings and have one text are equal.** -/
theorem eq_of_fieldValue {v w : Json} (hv : v.IsValid) (hw : w.IsValid) (hv' : ∀ s, v ≠ .string s)
    (hw' : ∀ s, w ≠ .string s) (h : fieldValue v = fieldValue w) : v = w := by
  rw [fieldValue_of_ne_string hv', fieldValue_of_ne_string hw'] at h
  exact Option.some.inj ((Json.read?_render hv).symm.trans (h ▸ Json.read?_render hw))

/-! ## Text lines -/

theorem textLine_eq (zone : Zone) (color : Bool) (r : Record) : ∃ front,
    ∀ fields, textLine zone color { r with fields } =
      front ++ r.message.toList ++ fieldsText fields := by
  refine ⟨timeText zone r.time ++ ' ' :: (severityLabel color r.severity ++
    (targetText r.target ++ [' '])), fun fields => ?_⟩
  simp [textLine]

/-- **The fields of a text line are told apart.** What follows the message on the line of a record is
nothing but its fields. Where their keys have no blank, no `=` and no quote, it is read without
ambiguity: split at the spaces outside of string literals, and each piece at its first `=`, it gives
the keys in ascending order, each with the text of its value. This text tells a string from every other
string, and a value that is no string, such as a nested array or object, from every other one. -/
theorem text_fields_told_apart (zone : Zone) (color : Bool) {r : Record} (hr : r.IsValid)
    (hkeys : ∀ m ∈ r.fields, IsWord m.1.toList) :
    (∃ front fields,
      Utf8.decode? ((Encoder.text color).encode zone r) =
        some (front ++ r.message.toList ++ fields ++ ['\n']) ∧
      Utf8.decode? ((Encoder.text color).encode zone { r with fields := [] }) =
        some (front ++ r.message.toList ++ ['\n']) ∧
      readFields? fields = some (r.fields.map written) ∧
      ((r.fields.map written).map fun pair => String.ofList pair.1).Pairwise (· < ·)) ∧
    (∀ s t, fieldValue (.string s) = fieldValue (.string t) → s = t) ∧
    ∀ v w : Json, v.IsValid → w.IsValid → (∀ s, v ≠ .string s) → (∀ s, w ≠ .string s) →
      fieldValue v = fieldValue w → v = w := by
  refine ⟨?_, fun s t => string_eq_of_fieldValue, fun v w => eq_of_fieldValue⟩
  obtain ⟨front, hline⟩ := textLine_eq zone color r
  have hdecode : ∀ fields, Utf8.decode? ((Encoder.text color).encode zone { r with fields }) =
      some (front ++ r.message.toList ++ fieldsText fields ++ ['\n']) := fun fields => by
    rw [encode, Utf8.decode?_encode, line, hline]
  refine ⟨front, fieldsText r.fields, hdecode r.fields, ?_, readFields?_fieldsText hkeys, ?_⟩
  · rw [hdecode, fieldsText, List.flatMap_nil, List.append_nil]
  · rw [keys_written]
    exact hr.ascending

/-- A string of two words, one that is bare, and an object with blanks and quotes in it. -/
theorem text_fields_told_apart_with_nested_object :
    let fields : Json.Members := [("note", .string "two words"), ("path", .string "/users"),
      ("tree", .object [("a b", .array [.string "\" =", .number (.integer 1)])])]
    ∃ front text, Utf8.decode? ((Encoder.text false).encode .utc
        ⟨⟨1735830245, 0⟩, .info, "api", "up", fields⟩) =
      some (front ++ "up".toList ++ text ++ ['\n']) ∧
    readFields? text = some [("note".toList, "\"two words\"".toList),
      ("path".toList, "/users".toList), ("tree".toList, "\x7b\"a b\":[\"\\\" =\",1]\x7d".toList)] := by
  intro fields
  have hr : Record.IsValid ⟨⟨1735830245, 0⟩, .info, "api", "up", fields⟩ := by
    refine ⟨by decide, ?_⟩
    simp [fields, Json.MembersValid, Json.IsValid, Json.ItemsValid, Json.Number.IsValid]
  have hkeys : ∀ m ∈ fields, IsWord m.1.toList := by
    simp [fields, IsWord, Text.isBlank]
  obtain ⟨⟨front, text, hline, -, hread, -⟩, -⟩ := text_fields_told_apart .utc false hr hkeys
  exact ⟨front, text, hline, hread.trans (by decide)⟩

end Encoder

end LogRouter
