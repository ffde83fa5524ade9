import LogRouter.Proofs.Json.Members
import LogRouter.Proofs.Json.RoundTrip
import LogRouter.Proofs.Text.Utf8
import LogRouter.Record.Encoder

/-!
# Text lines

* `noControl_timeText`: the time of a record has no control characters.
* `newline_notMem_fieldValue`: nor is there a newline in the value of a field, which is quoted
  whenever it has one.
* `rawTexts`: the texts of a record that its text line takes over as they are.
* **`newlines_textLine`**: the newlines of a text line are those of the raw texts.
* **`text_is_one_line_iff`**: a record is one line of text exactly if its raw texts have no newline.
-/

namespace LogRouter

open Json (keys)

/-! ## The time -/

theorem noControl_decimalDigits (n : Nat) : noControl (decimalDigits n) = true :=
  Json.noControl_digitsOf n

theorem noControl_padded_zero (width : Nat) {sign : List Char} (n : Nat)
    (h : noControl sign = true) : noControl (padded .zero width sign n) = true := by
  simp [padded, h, Json.noControl_zeros, noControl_decimalDigits]

theorem noControl_renderYear_zero (year : Int) : noControl (renderYear .zero year) = true := by
  unfold renderYear
  split_ifs <;> exact noControl_padded_zero _ _ (by decide)

theorem noControl_renderByte_zero (n : Nat) : noControl (renderByte .zero n) = true := by
  have hdigit : ∀ n < 26, 32 ≤ (Char.ofNat (48 + n)).toNat := by decide
  simp [renderByte, hdigit (n % 256 / 10) (by omega), hdigit (n % 256 % 10) (by omega)]

theorem noControl_renderFraction_milli (nanos : Nat) :
    noControl (renderFraction nanos .milli) = true := by
  have hplaces : noControl (padded .zero 3 [] (nanos / 1000000)) = true :=
    noControl_padded_zero 3 _ rfl
  simp [renderFraction, renderPlaces, zeroPadded, hplaces]

namespace Encoder

theorem noControl_timeText (zone : Zone) (time : Instant) :
    noControl (timeText zone time) = true := by
  simp [timeText, timeItems, renderItems?, Item.render?, Item.zeroed, NumericField.render,
    TextField.render?, noControl_renderYear_zero, noControl_renderByte_zero,
    noControl_renderFraction_milli]

/-! ## The values of fields -/

/-- **A string that stands bare has no newline**, because a newline is a blank. -/
theorem newline_notMem_of_bare {s : List Char} (h : needsQuotes s = false) : '\n' ∉ s := by
  intro hmem
  have hblank : s.any (fun c => Text.isBlank c || c == '=' || c == '"') = true :=
    List.any_eq_true.mpr ⟨'\n', hmem, by decide⟩
  simp [needsQuotes, hblank] at h

theorem newline_notMem_fieldValue (v : Json) : '\n' ∉ fieldValue v := by
  unfold fieldValue
  split
  · split_ifs with hquotes
    · exact newline_notMem (Json.noControl_quote _)
    · exact newline_notMem_of_bare (Bool.eq_false_iff.mpr hquotes)
  · exact newline_notMem (Json.noControl_render _)

/-! ## Counting newlines -/

/-- The number of newlines in a text. -/
def newlines (s : List Char) : Nat := s.count '\n'

@[simp] theorem newlines_nil : newlines [] = 0 := rfl

@[simp] theorem newlines_append (s t : List Char) : newlines (s ++ t) = newlines s + newlines t :=
  List.count_append

@[simp] theorem newlines_cons_of_ne {c : Char} (h : c ≠ '\n') (s : List Char) :
    newlines (c :: s) = newlines s := List.count_cons_of_ne h

theorem newlines_eq_zero_iff {s : List Char} : newlines s = 0 ↔ '\n' ∉ s := List.count_eq_zero

theorem newlines_severityLabel (color : Bool) (severity : Severity) :
    newlines (severityLabel color severity) = 0 := by
  cases color <;> cases severity <;> decide

theorem newlines_targetText (target : String) :
    newlines (targetText target) = newlines target.toList := by
  unfold targetText
  split_ifs with h
  · rw [String.isEmpty_iff.mp h]
    rfl
  · exact newlines_cons_of_ne (by decide) _

theorem newlines_fieldsText (fields : Json.Members) :
    newlines (fieldsText fields) = ((keys fields).map fun k => newlines k.toList).sum := by
  induction fields with
  | nil => rfl
  | cons m fields ih =>
    obtain ⟨k, v⟩ := m
    have hvalue : newlines (fieldValue v) = 0 :=
      newlines_eq_zero_iff.mpr (newline_notMem_fieldValue v)
    have hfields : fieldsText ((k, v) :: fields) =
        (' ' :: (k.toList ++ '=' :: fieldValue v)) ++ fieldsText fields := rfl
    simp [hfields, ih, hvalue]

/-- The texts of a record that its text line takes over as they are: target, message and keys. -/
def rawTexts (r : Record) : List String := r.target :: r.message :: keys r.fields

/-- **The newlines of a text line are those of the raw texts.** -/
theorem newlines_textLine (zone : Zone) (color : Bool) (r : Record) :
    newlines (textLine zone color r) = ((rawTexts r).map fun s => newlines s.toList).sum := by
  have htime : newlines (timeText zone r.time) = 0 :=
    newlines_eq_zero_iff.mpr (newline_notMem (noControl_timeText zone r.time))
  simp [textLine, rawTexts, htime, newlines_severityLabel, newlines_targetText,
    newlines_fieldsText]

/-! ## Lines -/

/-- The bytes are one line with its end. -/
def IsOneLine (bytes : Bytes) : Prop := ∃ body, bytes = body ++ [10] ∧ 10 ∉ body

theorem isOneLine_append_iff {body : Bytes} : IsOneLine (body ++ [10]) ↔ body.count 10 = 0 := by
  rw [List.count_eq_zero]
  constructor
  · rintro ⟨body', hline, hmem⟩
    rwa [List.append_cancel_right hline]
  · exact fun h => ⟨body, rfl, h⟩

theorem encode_text (zone : Zone) (color : Bool) (r : Record) :
    (Encoder.text color).encode zone r = Utf8.encode (textLine zone color r) ++ [10] :=
  List.flatMap_append

/-- **A text line ends with a newline and has no other one exactly if no raw text of the record has
any.** Every newline of a raw text breaks the line once more. -/
theorem text_is_one_line_iff (zone : Zone) (color : Bool) (r : Record) :
    (∃ body, (Encoder.text color).encode zone r = body ++ [10] ∧
      body.count 10 = ((rawTexts r).map fun s => newlines s.toList).sum) ∧
    (IsOneLine ((Encoder.text color).encode zone r) ↔ ∀ s ∈ rawTexts r, '\n' ∉ s.toList) := by
  have hcount : (Utf8.encode (textLine zone color r)).count 10 =
      ((rawTexts r).map fun s => newlines s.toList).sum := by
    rw [Utf8.count_newline_encode]
    exact newlines_textLine zone color r
  refine ⟨⟨_, encode_text zone color r, hcount⟩, ?_⟩
  rw [encode_text, isOneLine_append_iff, hcount, List.sum_eq_zero_iff, List.forall_mem_map]
  simp only [newlines_eq_zero_iff]

/-- A message of two lines makes two lines of one record. -/
theorem splits_record_with_newline :
    (Encoder.text false).encode .utc ⟨⟨1735830245, 0⟩, .info, "api", "a\nb", []⟩ =
      Utf8.ofString "2025-01-02 15:04:05.000 [INFO] api a\n" ++ Utf8.ofString "b\n" ∧
    ¬ IsOneLine
      ((Encoder.text false).encode .utc ⟨⟨1735830245, 0⟩, .info, "api", "a\nb", []⟩) := by
  refine ⟨by decide, ?_⟩
  rw [encode_text, isOneLine_append_iff]
  decide

end Encoder

end LogRouter
