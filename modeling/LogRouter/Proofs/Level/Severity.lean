import LogRouter.Level.Severity
import Mathlib.Data.List.TakeWhile
import Mathlib.Tactic.Common

/-!
# Names of severities

* `Text.exists_trim`, `Text.trim_of_blanks`: what is trimmed off a text are the blanks at its ends.
* `Text.isBlank_toLower`: no letter is blank, in either case.
* **`Severity.ofName?_eq_some_iff`**: a name of a severity is one of its spellings in any case, with
  blanks around it.
-/

namespace LogRouter

namespace Text

/-! ## Trimming -/

theorem exists_trim (s : List Char) :
    ∃ before after, s = before ++ (trim s ++ after) ∧ allBlank before ∧ allBlank after := by
  have hfront : ∀ s : List Char, allBlank (s.takeWhile isBlank) := fun s =>
    List.all_eq_true.mpr fun c hc => List.mem_takeWhile_imp hc
  refine ⟨s.takeWhile isBlank, ((trimStart s).reverse.takeWhile isBlank).reverse, ?_, hfront s, ?_⟩
  · have hback : trim s ++ ((trimStart s).reverse.takeWhile isBlank).reverse = trimStart s := by
      rw [trim, ← List.reverse_append]
      unfold trimStart
      rw [List.takeWhile_append_dropWhile, List.reverse_reverse]
    rw [hback]
    exact List.takeWhile_append_dropWhile.symm
  · rw [allBlank, List.all_reverse]
    exact hfront _

theorem trimStart_of_blanks {before word : List Char} (hbefore : allBlank before)
    (hword : ∀ c ∈ word, isBlank c = false) (hne : word ≠ []) (after : List Char) :
    trimStart (before ++ (word ++ after)) = word ++ after := by
  unfold trimStart
  rw [List.dropWhile_append_of_pos (List.all_eq_true.mp hbefore)]
  cases word with
  | nil => exact absurd rfl hne
  | cons c word => exact List.dropWhile_cons_of_neg (by simp [hword c List.mem_cons_self])

theorem trim_of_blanks {before word after : List Char} (hbefore : allBlank before)
    (hafter : allBlank after) (hword : ∀ c ∈ word, isBlank c = false) (hne : word ≠ []) :
    trim (before ++ (word ++ after)) = word := by
  have hback := trimStart_of_blanks (by rwa [allBlank, List.all_reverse] : allBlank after.reverse)
    (fun c hc => hword c (List.mem_reverse.mp hc)) (mt List.reverse_eq_nil_iff.mp hne) []
  rw [List.append_nil] at hback
  rw [trim, trimStart_of_blanks hbefore hword hne, List.reverse_append, hback, List.reverse_reverse]

theorem isBlank_toLower (c : Char) : isBlank c.toLower = isBlank c := by
  by_cases h : c.val ≥ 'A'.val ∧ c.val ≤ 'Z'.val
  · have hfirst : 65 ≤ c.toNat := h.1
    have hlast : c.toNat ≤ 90 := h.2
    have hlower : c.toLower.toNat = c.toNat + 32 := by
      have hval : c.toLower.val = c.val + 32 := congrArg Char.val (dif_pos h)
      change c.toLower.val.toNat = c.toNat + 32
      rw [hval, UInt32.toNat_add]
      change (c.toNat + 32) % 4294967296 = c.toNat + 32
      omega
    have hletter : ∀ d : Char, 65 ≤ d.toNat → d.toNat ≤ 122 → isBlank d = false := by
      intro d hd hd'
      simp only [isBlank, Bool.or_eq_false_iff, Bool.and_eq_false_iff, beq_eq_false_iff_ne,
        decide_eq_false_iff_not]
      omega
    rw [hletter c hfirst (by omega), hletter _ (by omega) (by omega)]
  · have hsame : c.toLower = c := dif_neg h
    rw [hsame]

end Text

namespace Severity

/-! ## Spellings -/

/-- The spellings of a severity in lower case. -/
def spellings : Severity → List String
  | warn => ["warn", "warning"]
  | severity => [severity.name]

/-- The text is a spelling of the severity, in any case, with blanks around it. -/
def IsNamedBy (severity : Severity) (text : List Char) : Prop :=
  ∃ before word after, text = before ++ (word ++ after) ∧ Text.allBlank before ∧
    Text.allBlank after ∧ String.ofList (Text.lower word) ∈ severity.spellings

theorem not_blank_of_mem_spellings {severity : Severity} {spelling : String}
    (h : spelling ∈ severity.spellings) :
    spelling.toList ≠ [] ∧ ∀ c ∈ spelling.toList, Text.isBlank c = false := by
  have hword : spelling.toList ≠ [] ∧ spelling.toList.all (!Text.isBlank ·) = true := by
    revert spelling
    cases severity <;> decide
  exact ⟨hword.1, fun c hc => by simpa using List.all_eq_true.mp hword.2 c hc⟩

theorem ofName?_eq_some_iff_mem {name : String} {severity : Severity} :
    ofName? name = some severity ↔ Text.normalName name ∈ severity.spellings := by
  unfold ofName?
  split
  case h_8 =>
    refine iff_of_false (by simp) fun h => ?_
    cases severity <;> simp_all [spellings, Severity.name]
  all_goals
    rename_i h
    rw [h]
    cases severity <;> decide

/-- **A name of a severity** is one of its spellings in any case, with blanks around it. -/
theorem ofName?_eq_some_iff {name : String} {severity : Severity} :
    ofName? name = some severity ↔ severity.IsNamedBy name.toList := by
  rw [ofName?_eq_some_iff_mem]
  constructor
  · intro h
    obtain ⟨before, after, hsplit, hbefore, hafter⟩ := Text.exists_trim name.toList
    exact ⟨before, _, after, hsplit, hbefore, hafter, h⟩
  · rintro ⟨before, word, after, hsplit, hbefore, hafter, hmem⟩
    obtain ⟨hne, hletters⟩ := not_blank_of_mem_spellings hmem
    rw [String.toList_ofList] at hne hletters
    -- what is blank in lower case is blank, so the word has no blanks
    have hword : ∀ c ∈ word, Text.isBlank c = false := fun c hc => by
      rw [← Text.isBlank_toLower]
      exact hletters _ (List.mem_map_of_mem hc)
    have hnonempty : word ≠ [] := fun hnil => hne (by rw [hnil]; rfl)
    rw [Text.normalName, hsplit, Text.trim_of_blanks hbefore hafter hword hnonempty]
    exact hmem

end Severity

end LogRouter
