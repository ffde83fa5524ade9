import LogRouter.Proofs.Label.Letters
import LogRouter.Proofs.Path.Labelled

/-!
# Accepted patterns

* `isSome_renderItems?`: whether a label can be written does not depend on the moment.
* `mem_renderItems?_iff`, `exists_plain_label`: nor does it depend on the moment whether a path separator
  is in it.
* **`TimePattern.accepts_iff`**: the one sample that patterns are tried out on stands for all moments,
  and the files of an accepted pattern stand beside their base.
-/

namespace LogRouter

/-! ## What does not depend on the moment -/

theorem isSome_render? (item : Item) (m m' : Moment) :
    (item.render? m).isSome = (item.render? m').isSome := by
  cases item with
  | word field =>
    cases field with
    | offset style => cases style <;> rfl
    | _ => rfl
  | _ => rfl

/-- **A label that can be written** at one moment can be written at all. -/
theorem isSome_renderItems? (m m' : Moment) :
    ∀ items, (renderItems? m items).isSome = (renderItems? m' items).isSome
  | [] => rfl
  | item :: items => by
    have hitem := isSome_render? item m m'
    have hitems := isSome_renderItems? m m' items
    unfold renderItems?
    cases hfirst : item.render? m <;> cases hfirst' : item.render? m' <;>
      cases hrest : renderItems? m items <;> cases hrest' : renderItems? m' items <;> simp_all

/-- **A path separator in a label** comes from the literal text, whatever the moment is. -/
theorem mem_renderItems?_iff {c : Char} (hc : TimePattern.isSeparator c = true) {items : List Item}
    (hblanks : items.all Item.hasBlanks = true) {m : Moment} {label : List Char}
    (hlabel : renderItems? m items = some label) : c ∈ label ↔ c ∈ literalText items := by
  have hextraordinary : isOrdinary c = false := by
    rcases Bool.or_eq_true_iff.mp hc with h | h <;> rw [beq_iff_eq.mp h] <;> rfl
  rw [← List.count_pos_iff, count_renderItems? hextraordinary hblanks hlabel, List.count_pos_iff]

/-- **A label that can be written without a path separator** at one moment can be so at another. -/
theorem exists_plain_label {items : List Item} (hblanks : items.all Item.hasBlanks = true) {m : Moment}
    (h : ∃ label, renderItems? m items = some label ∧ '/' ∉ label ∧ '\\' ∉ label) (m' : Moment) :
    ∃ label, renderItems? m' items = some label ∧ '/' ∉ label ∧ '\\' ∉ label := by
  obtain ⟨label, hlabel, hslash, hbackslash⟩ := h
  have hsome := isSome_renderItems? m' m items
  rw [hlabel, Option.isSome_some] at hsome
  obtain ⟨label', hlabel'⟩ := Option.isSome_iff_exists.mp hsome
  have hplain : ∀ {c}, TimePattern.isSeparator c = true → c ∉ label → c ∉ label' := fun hc hnot => by
    rwa [mem_renderItems?_iff hc hblanks hlabel', ← mem_renderItems?_iff hc hblanks hlabel]
  exact ⟨label', hlabel', hplain rfl hslash, hplain rfl hbackslash⟩

namespace TimePattern

variable {text : String} {pattern : TimePattern} {items : List Item}

theorem any_isSeparator_eq_false_iff {label : List Char} :
    label.any isSeparator = false ↔ '/' ∉ label ∧ '\\' ∉ label := by
  rw [List.any_eq_false]
  constructor
  · exact fun h => ⟨fun hc => h _ hc rfl, fun hc => h _ hc rfl⟩
  · rintro ⟨hslash, hbackslash⟩ c hc hseparator
    rcases Bool.or_eq_true_iff.mp hseparator with h | h
    · exact hslash (beq_iff_eq.mp h ▸ hc)
    · exact hbackslash (beq_iff_eq.mp h ▸ hc)

theorem ofString_eq_ok_iff : ofString text = .ok pattern ↔ text ≠ "" ∧ pattern.text = text ∧
    Item.parse? text.toList = some pattern.items ∧
    ∃ label, renderItems? sample pattern.items = some label ∧ '/' ∉ label ∧ '\\' ∉ label := by
  constructor
  · intro h
    obtain ⟨htext, hparse, label, hlabel, hplain⟩ := text_of_ofString h
    refine ⟨?_, htext, hparse, label, hlabel, any_isSeparator_eq_false_iff.mp hplain⟩
    rintro rfl
    cases h
  · rintro ⟨hne, htext, hparse, label, hlabel, hplain⟩
    have hnonempty : text.isEmpty = false := by simpa using hne
    unfold ofString
    rw [if_neg (by simp [hnonempty])]
    simp only [hparse, hlabel]
    rw [if_neg (by simp [any_isSeparator_eq_false_iff.mpr hplain]), ← htext]

/-- **An accepted pattern can be written at every moment**, without a path separator. -/
theorem label_of_accepted (h : ofString text = .ok pattern) (m : Moment) :
    renderItems? m pattern.items = some (pattern.label m) ∧
      '/' ∉ pattern.label m ∧ '\\' ∉ pattern.label m := by
  obtain ⟨-, -, hparse, hsampled⟩ := ofString_eq_ok_iff.mp h
  obtain ⟨label, hlabel, hplain⟩ := exists_plain_label (Item.hasBlanks_parse? _ hparse) hsampled m
  have hwritten : pattern.label m = label := by rw [TimePattern.label, hlabel, Option.getD_some]
  rw [hwritten]
  exact ⟨hlabel, hplain⟩

/-- **One sample is enough.** A pattern is accepted exactly if it is not empty, all its fields are known,
and at every representable instant its label can be written where a clock is a fixed distance from
universal time, and holds no path separator. If it is accepted, its label can be written at every
moment whatever, and a file with this label is one part behind the directory of its base. -/
theorem accepts_iff (text : String) :
    ((∃ pattern, ofString text = .ok pattern) ↔ text ≠ "" ∧
      ∃ items, Item.parse? text.toList = some items ∧
        ∀ (offset : Int) (t : Instant), offset.natAbs < 86400 → t.Representable →
          t.nanos < 2 * Instant.nanosPerSecond →
          ∃ label, renderItems? (.ofInstant (.fixed offset) t) items = some label ∧
            '/' ∉ label ∧ '\\' ∉ label) ∧
    ∀ pattern, ofString text = .ok pattern → ∀ m : Moment,
      renderItems? m pattern.items = some (pattern.label m) ∧
      ∀ base : Path, base.labelled '.' (pattern.label m) =
          base.labelledParent.join ⟨base.labelledName '.' (pattern.label m)⟩ ∧
        '/' ∉ base.labelledName '.' (pattern.label m) ∧
        (base.fileName? ≠ none → (base.labelled '.' (pattern.label m)).parent? = base.parent?) := by
  refine ⟨⟨?_, ?_⟩, ?_⟩
  · rintro ⟨pattern, h⟩
    obtain ⟨hne, -, hparse, -⟩ := ofString_eq_ok_iff.mp h
    exact ⟨hne, pattern.items, hparse, fun _ _ _ _ _ => ⟨_, label_of_accepted h _⟩⟩
  · rintro ⟨hne, items, hparse, hall⟩
    -- the instant of the sample, where a clock shows universal time
    have hzero := hall 0 ⟨1735830245, 0⟩ (by decide) (by decide) (by decide)
    exact ⟨⟨text, items⟩, ofString_eq_ok_iff.mpr
      ⟨hne, rfl, hparse, exists_plain_label (Item.hasBlanks_parse? _ hparse) hzero sample⟩⟩
  · intro pattern h m
    obtain ⟨hlabel, hslash, -⟩ := label_of_accepted h m
    refine ⟨hlabel, fun base => ⟨Path.labelled_eq _ _ _, ?_, fun hname => ?_⟩⟩
    · exact (Path.isPart_labelledName (by decide) hslash).no_slash
    · obtain ⟨name, hname⟩ := Option.ne_none_iff_exists'.mp hname
      exact Path.parent?_labelled hname (by decide) hslash

/-- The century of the year 12345 is not written in digits and the zone is not that of the sample, and
still the file stands beside its base. -/
theorem accepts_century_and_zone : ∃ pattern, ofString "%C%Z" = .ok pattern ∧
    renderItems? (.ofInstant (.fixed 19800) ⟨327403382400, 0⟩) pattern.items =
      some "<3+05:30".toList ∧
    ((Path.ofString "logs/app.log").labelled '.' "<3+05:30".toList).parent? =
      some (Path.ofString "logs") := by
  obtain ⟨hiff, hfiles⟩ := accepts_iff "%C%Z"
  have hok : ofString "%C%Z" = .ok ⟨"%C%Z", [.zeroed .century, .word .zoneName]⟩ := by
    decide +kernel
  have hlabel : renderItems? (.ofInstant (.fixed 19800) ⟨327403382400, 0⟩)
      [.zeroed .century, .word .zoneName] = some "<3+05:30".toList := by decide +kernel
  obtain ⟨hwritten, hbeside⟩ := hfiles _ hok (.ofInstant (.fixed 19800) ⟨327403382400, 0⟩)
  have hsame := Option.some.inj (hwritten.symm.trans hlabel)
  have hparent := (hbeside (.ofString "logs/app.log")).2.2 (by decide +kernel)
  rw [hsame] at hparent
  exact ⟨_, hok, hlabel, hparent.trans (by decide +kernel)⟩

end TimePattern

end LogRouter
