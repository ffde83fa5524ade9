import LogRouter.Proofs.Json.Numerals

/-!
# Writing and reading JSON

* `noControl_render`: the text of a value has no control characters.
* **`readString?_escape`**: an escaped text is read back.
* `Json.IsValid`: all numbers in a value are valid.
* **`read?_render`**: a valid value is read back from its text.
-/

namespace LogRouter

/-! ## Control characters -/

/-- There are no control characters in a text. -/
def noControl (s : List Char) : Bool := s.all fun c => 32 ≤ c.toNat

@[simp] theorem noControl_nil : noControl [] = true := rfl

@[simp] theorem noControl_cons (c : Char) (s : List Char) :
    noControl (c :: s) = (decide (32 ≤ c.toNat) && noControl s) := rfl

@[simp] theorem noControl_append (s t : List Char) :
    noControl (s ++ t) = (noControl s && noControl t) := List.all_append

theorem newline_notMem {s : List Char} (h : noControl s = true) : '\n' ∉ s := fun hmem =>
  absurd (List.all_eq_true.mp h '\n' hmem) (by decide)

namespace Json

/-! ### Numbers -/

theorem pointed_subset (digits : List Char) : pointed digits ⊆ '.' :: digits := by
  unfold pointed
  split
  · simp
  · exact List.subset_cons_self _ _

section Numbers

variable {p : Char → Bool} (hdigit : ∀ c, c.isDigit = true → p c = true)

include hdigit

theorem all_digitsOf (n : Nat) : (digitsOf n).all p = true :=
  List.all_eq_true.mpr fun c hc => hdigit c (isDigit_of_mem_digitsOf hc)

theorem all_zeros (k : Nat) : (List.replicate k '0').all p = true :=
  List.all_eq_true.mpr fun _ hc => List.eq_of_mem_replicate hc ▸ hdigit '0' rfl

variable (hmark : ∀ c ∈ ['-', '+', '.', 'e'], p c = true)

include hmark

theorem all_decimalText (d : Decimal) : (decimalText d).all p = true := by
  have hdigits := all_digitsOf hdigit d.digits
  have hzeros := all_zeros hdigit
  have hzero := hdigit '0' rfl
  simp only [List.forall_mem_cons] at hmark
  obtain ⟨hminus, hplus, hpoint, hexponent, -⟩ := hmark
  unfold decimalText
  simp only
  generalize digitsOf d.digits = digits at hdigits
  have hsubset : ∀ {s : List Char}, s ⊆ '.' :: digits → s.all p = true := fun hs =>
    List.all_eq_true.mpr fun c hc => (List.mem_cons.mp (hs hc)).elim (· ▸ hpoint)
      (List.all_eq_true.mp hdigits c)
  have hpointed := hsubset (pointed_subset digits)
  have htake : ∀ k, (digits.take k).all p = true := fun k =>
    hsubset (List.subset_cons_of_subset _ (List.take_subset k digits))
  have hdrop : ∀ k, (digits.drop k).all p = true := fun k =>
    hsubset (List.subset_cons_of_subset _ (List.drop_subset k digits))
  split_ifs <;> simp only [List.all_append, List.all_cons, List.all_nil, hdigits, hpointed, htake,
    hdrop, hzeros, hzero, hminus, hplus, hpoint, hexponent, all_digitsOf hdigit, Bool.and_self]

/-- **A number has digits, signs, points and marks of exponents only.** -/
theorem all_number (n : Number) : n.render.all p = true := by
  have hminus : p '-' = true := hmark '-' List.mem_cons_self
  cases n with
  | integer n =>
    change (integerText n).all p = true
    unfold integerText
    split_ifs <;> simp only [List.all_cons, hminus, all_digitsOf hdigit, Bool.and_self]
  | real x =>
    change (realText x).all p = true
    have hzero : ['0', '.', '0'].all p = true := by
      simp [hdigit '0' rfl, hmark '.' (by decide)]
    have hdecimal := all_decimalText hdigit hmark x.shortest
    unfold realText
    split_ifs <;> simp only [List.all_cons, hminus, hzero, hdecimal, Bool.and_self]

end Numbers

theorem toNat_of_isDigit (c : Char) (h : c.isDigit = true) : decide (32 ≤ c.toNat) = true := by
  rw [Char.isDigit_iff_toNat] at h
  have hzero : '0'.toNat = 48 := rfl
  exact decide_eq_true (by omega)

@[simp] theorem noControl_digitsOf (n : Nat) : noControl (digitsOf n) = true :=
  all_digitsOf toNat_of_isDigit n

theorem noControl_zeros (k : Nat) : noControl (List.replicate k '0') = true :=
  all_zeros toNat_of_isDigit k

theorem noControl_number (n : Number) : noControl n.render = true :=
  all_number toNat_of_isDigit (by simp) n

theorem escape_cases (c : Char) :
    (∃ letter ∈ ['"', '\\', 'n', 'r', 't', 'b', 'f'], Text.Quoted.escape c = ['\\', letter]) ∨
    (∃ a < 16, ∃ b < 16,
      Text.Quoted.escape c = ['\\', 'u', '0', '0', Text.hexDigit a, Text.hexDigit b]) ∨
    (Text.Quoted.escape c = [c] ∧ 32 ≤ c.toNat ∧ c ≠ '"' ∧ c ≠ '\\') := by
  unfold Text.Quoted.escape
  repeat' split
  all_goals first
    | exact Or.inl ⟨_, by decide, rfl⟩
    | exact Or.inr (Or.inl ⟨_, by omega, _, by omega, rfl⟩)
    | exact Or.inr (Or.inr ⟨rfl, by omega, by simp_all⟩)

theorem noControl_escape (c : Char) : noControl (Text.Quoted.escape c) = true := by
  have hletters : ∀ letter ∈ ['"', '\\', 'n', 'r', 't', 'b', 'f'],
      noControl ['\\', letter] = true := by simp [noControl]
  have hhex : ∀ n < 16, decide (32 ≤ (Text.hexDigit n).toNat) = true := by decide
  rcases escape_cases c with ⟨letter, hletter, h⟩ | ⟨a, ha, b, hb, h⟩ | ⟨h, hplain, -, -⟩ <;> rw [h]
  · exact hletters letter hletter
  · simp [hhex a ha, hhex b hb]
  · simp [hplain]

theorem noControl_quote (s : String) : noControl (quote s) = true := by
  have hinside : noControl (s.toList.flatMap Text.Quoted.escape) = true :=
    List.all_eq_true.mpr fun c hc => by
      obtain ⟨c', _, hmem⟩ := List.mem_flatMap.mp hc
      exact List.all_eq_true.mp (noControl_escape c') c hmem
  simp [quote, Text.Quoted.encode, hinside]

mutual

/-- **The text of a value has no control characters.** -/
theorem noControl_render : ∀ v : Json, noControl (render v) = true
  | .null => rfl
  | .bool true => rfl
  | .bool false => rfl
  | .number n => noControl_number n
  | .string s => noControl_quote s
  | .array items => by simp [render, noControl_renderItems items]
  | .object members => by simp [render, noControl_renderMembers members]

theorem noControl_renderItems : ∀ items : List Json, noControl (renderItems items) = true
  | [] => rfl
  | [v] => noControl_render v
  | v :: w :: rest => by
    simp [renderItems, noControl_render v, noControl_renderItems (w :: rest)]

theorem noControl_renderMembers : ∀ members : Members, noControl (renderMembers members) = true
  | [] => rfl
  | [(k, v)] => by simp [renderMembers, noControl_quote k, noControl_render v]
  | (k, v) :: m :: rest => by
    simp [renderMembers, noControl_quote k, noControl_render v, noControl_renderMembers (m :: rest)]

end

/-! ## Strings -/

theorem hexNumber?_control {n : Nat} (h : n < 32) :
    Text.hexNumber? ['0', '0', Text.hexDigit (n / 16), Text.hexDigit (n % 16)] = some n := by
  have key : ∀ n < 32,
      Text.hexNumber? ['0', '0', Text.hexDigit (n / 16), Text.hexDigit (n % 16)] = some n := by
    decide
  exact key n h

/-- **An escaped character is read back.** -/
theorem readString?_escape (c : Char) (acc rest : List Char) :
    readString? acc (Text.Quoted.escape c ++ rest) = readString? (c :: acc) rest := by
  have hchar : ∀ n, (c.toNat == n) = true → c = Char.ofNat n := fun n h => by
    rw [← beq_iff_eq.mp h, Char.ofNat_toNat]
  unfold Text.Quoted.escape
  split_ifs with hquote hbackslash hnewline hreturn htab hback hform hcontrol
  · rw [beq_iff_eq.mp hquote]
    simp [readString?, shortEscape?]
  · rw [beq_iff_eq.mp hbackslash]
    simp [readString?, shortEscape?]
  · rw [beq_iff_eq.mp hnewline]
    simp [readString?, shortEscape?]
  · rw [beq_iff_eq.mp hreturn]
    simp [readString?, shortEscape?]
  · rw [beq_iff_eq.mp htab]
    simp [readString?, shortEscape?]
  · rw [hchar 8 hback]
    simp [readString?, shortEscape?]
  · rw [hchar 12 hform]
    simp [readString?, shortEscape?]
  · have hvalid : c.toNat.isValidChar := c.valid
    have hscalar : scalar? c.toNat = some c := by
      rw [scalar?, if_pos hvalid, Char.ofNat_toNat]
    have hnot : ¬ (0xD800 ≤ c.toNat ∧ c.toNat < 0xDC00) := by omega
    change readString? acc ('\\' :: 'u' :: '0' :: '0' :: Text.hexDigit (c.toNat / 16) ::
      Text.hexDigit (c.toNat % 16) :: rest) = _
    simp only [readString?, hexNumber?_control hcontrol, if_neg hnot, hscalar]
  · have hplain : (decide (c.toNat < 32) || c == '\\') = false := by simp_all
    have hquote : c ≠ '"' := by simpa using hquote
    have hbackslash : c ≠ '\\' := by simpa using hbackslash
    change readString? acc (c :: rest) = _
    rw [readString?.eq_5 _ _ _ hquote (fun _ _ _ _ _ h => absurd h hbackslash)
      (fun _ _ h => absurd h hbackslash), hplain, if_neg Bool.false_ne_true]

/-- **The inside of a string is read back.** -/
theorem readString?_inside (s acc rest : List Char) :
    readString? acc (s.flatMap Text.Quoted.escape ++ '"' :: rest) = some (acc.reverse ++ s, rest) := by
  induction s generalizing acc with
  | nil => simp [readString?]
  | cons c s ih =>
    rw [List.flatMap_cons, List.append_assoc, readString?_escape, ih]
    simp

/-! ## Values -/

mutual

/-- All numbers in a value are valid. -/
def IsValid : Json → Prop
  | .number n => n.IsValid
  | .array items => ItemsValid items
  | .object members => MembersValid members
  | _ => True

/-- All numbers in the items are valid. -/
def ItemsValid : List Json → Prop
  | [] => True
  | v :: rest => IsValid v ∧ ItemsValid rest

/-- All numbers in the members are valid. -/
def MembersValid : Members → Prop
  | [] => True
  | (_, v) :: rest => IsValid v ∧ MembersValid rest

end

theorem membersValid_iff {members : Members} :
    MembersValid members ↔ ∀ m ∈ members, IsValid m.2 := by
  induction members with
  | nil => simp [MembersValid]
  | cons m members ih =>
    rw [List.forall_mem_cons, ← ih]
    rfl

theorem skipSpace_cons {c : Char} (h : isSpace c = false) (rest : List Char) :
    skipSpace (c :: rest) = c :: rest := by
  rw [skipSpace, List.dropWhile_cons, if_neg (by simp [h])]

/-! ### How values begin -/

theorem exists_cons_digitsOf (n : Nat) : ∃ c tail, digitsOf n = c :: tail ∧ c.isDigit = true := by
  obtain ⟨c, tail, h⟩ := List.exists_cons_of_ne_nil (digitsOf_ne_nil n)
  exact ⟨c, tail, h, isDigit_of_mem_digitsOf (h ▸ List.mem_cons_self)⟩

theorem exists_cons_decimalText (d : Decimal) :
    ∃ c tail, decimalText d = c :: tail ∧ c.isDigit = true := by
  obtain ⟨c, tail, hdigits, hc⟩ := exists_cons_digitsOf d.digits
  unfold decimalText
  rw [hdigits]
  simp only
  split_ifs
  · cases tail <;> exact ⟨c, _, rfl, hc⟩
  · cases tail <;> exact ⟨c, _, rfl, hc⟩
  · exact ⟨'0', _, rfl, rfl⟩
  · exact ⟨c, _, rfl, hc⟩
  · exact ⟨c, _, rfl, hc⟩

theorem exists_cons_number (n : Number) : ∃ c tail, n.render = c :: tail ∧
    (c = '-' ∨ c.isDigit = true) := by
  cases n with
  | integer n =>
    change ∃ c tail, integerText n = c :: tail ∧ _
    unfold integerText
    split_ifs
    · exact ⟨'-', _, rfl, Or.inl rfl⟩
    · obtain ⟨c, tail, h, hc⟩ := exists_cons_digitsOf n.natAbs
      exact ⟨c, tail, h, Or.inr hc⟩
  | real x =>
    change ∃ c tail, realText x = c :: tail ∧ _
    unfold realText
    simp only
    by_cases hneg : x.negative = true
    · exact ⟨'-', _, if_pos hneg, Or.inl rfl⟩
    rw [if_neg hneg]
    by_cases hm : x.mantissa = 0
    · exact ⟨'0', _, if_pos hm, Or.inr rfl⟩
    · obtain ⟨c, tail, h, hc⟩ := exists_cons_decimalText x.shortest
      exact ⟨c, tail, (if_neg hm).trans h, Or.inr hc⟩

/-- The character can begin a value: it is neither a blank nor a closing bracket. -/
def Begins (c : Char) : Prop := isSpace c = false ∧ c ≠ ']' ∧ c ≠ '\x7d'

instance (c : Char) : Decidable (Begins c) := inferInstanceAs (Decidable (_ ∧ _))

theorem begins_of_number {c : Char} (h : c = '-' ∨ c.isDigit = true) : Begins c := by
  rcases h with rfl | h
  · decide
  · have hnot : ∀ c', c'.isDigit = false → c ≠ c' := fun c' hc' heq => by
      rw [heq, hc'] at h
      cases h
    simp [Begins, isSpace, hnot ' ' rfl, hnot '\n' rfl, hnot '\r' rfl, hnot '\t' rfl,
      hnot ']' rfl, hnot '\x7d' rfl]

theorem exists_cons_render (v : Json) : ∃ c tail, render v = c :: tail ∧ Begins c := by
  cases v with
  | null => exact ⟨'n', _, rfl, by decide⟩
  | bool b => cases b <;> exact ⟨_, _, rfl, by decide⟩
  | number n =>
    obtain ⟨c, tail, h, hc⟩ := exists_cons_number n
    exact ⟨c, tail, h, begins_of_number hc⟩
  | string s => exact ⟨'"', _, rfl, by decide⟩
  | array items => exact ⟨'[', _, rfl, by decide⟩
  | object members => exact ⟨'\x7b', _, rfl, by decide⟩

theorem exists_cons_renderItems {items : List Json} (h : items ≠ []) :
    ∃ c tail, renderItems items = c :: tail ∧ Begins c := by
  obtain ⟨v, rest, rfl⟩ := List.exists_cons_of_ne_nil h
  obtain ⟨c, tail, hv, hc⟩ := exists_cons_render v
  cases rest with
  | nil => exact ⟨c, tail, hv, hc⟩
  | cons w rest => exact ⟨c, _, by rw [renderItems, hv]; rfl, hc⟩

theorem exists_cons_renderMembers {members : Members} (h : members ≠ []) :
    ∃ tail, renderMembers members = '"' :: tail := by
  obtain ⟨⟨k, v⟩, rest, rfl⟩ := List.exists_cons_of_ne_nil h
  cases rest with
  | nil => exact ⟨_, rfl⟩
  | cons m rest => exact ⟨_, rfl⟩

/-! ### What the reader does with the beginning of a text -/

theorem quote_append (k : String) (tail : List Char) :
    quote k ++ tail = '"' :: (k.toList.flatMap Text.Quoted.escape ++ '"' :: tail) := by
  simp [quote, Text.Quoted.encode]

section Steps

variable (real? : Bool → Decimal → Option Binary64) (fuel : Nat)

theorem readValue?_number {c : Char} (hc : c = '-' ∨ c.isDigit = true) (tail : List Char) :
    readValue? real? (fuel + 1) (c :: tail) =
      (readNumber? real? (c :: tail)).map fun (n, rest) => (.number n, rest) := by
  rw [readValue?, skipSpace_cons (begins_of_number hc).1]
  split
  case h_7 => rfl
  all_goals
    rename_i heq
    obtain ⟨rfl, -⟩ := List.cons.inj heq
    exact absurd hc (by decide)

theorem readValue?_array {c : Char} (hc : Begins c) (tail : List Char) :
    readValue? real? (fuel + 1) ('[' :: c :: tail) =
      (readItems? real? fuel [] (c :: tail)).map fun (items, rest) => (.array items, rest) := by
  rw [readValue?, skipSpace_cons rfl]
  simp only [skipSpace_cons hc.1]
  split
  · rename_i heq
    exact absurd (List.cons.inj heq).1 hc.2.1
  · rfl

theorem readValue?_object (tail : List Char) :
    readValue? real? (fuel + 1) ('\x7b' :: '"' :: tail) =
      (readMembers? real? fuel [] ('"' :: tail)).map fun (members, rest) => (.object members, rest) :=
  rfl

theorem readValue?_string (s rest : List Char) :
    readValue? real? (fuel + 1) ('"' :: (s.flatMap Text.Quoted.escape ++ '"' :: rest)) =
      some (.string (String.ofList s), rest) := by
  change (readString? [] _).map _ = _
  rw [readString?_inside]
  rfl

variable {fuel} {v : Json} {tail rest : List Char}

theorem readItems?_last (acc : List Json)
    (h : readValue? real? fuel tail = some (v, ']' :: rest)) :
    readItems? real? (fuel + 1) acc tail = some ((v :: acc).reverse, rest) := by
  rw [readItems?, h]
  rfl

theorem readItems?_more (acc : List Json)
    (h : readValue? real? fuel tail = some (v, ',' :: rest)) :
    readItems? real? (fuel + 1) acc tail = readItems? real? fuel (v :: acc) rest := by
  rw [readItems?, h]
  rfl

theorem readMembers?_last (acc : Members) (k : String)
    (h : readValue? real? fuel tail = some (v, '\x7d' :: rest)) :
    readMembers? real? (fuel + 1) acc (quote k ++ ':' :: tail) =
      some (((k, v) :: acc).reverse, rest) := by
  rw [quote_append, readMembers?, skipSpace_cons rfl]
  simp only [readString?_inside, skipSpace_cons (c := ':') rfl, h]
  rw [List.reverse_nil, List.nil_append, String.ofList_toList]
  rfl

theorem readMembers?_more (acc : Members) (k : String)
    (h : readValue? real? fuel tail = some (v, ',' :: rest)) :
    readMembers? real? (fuel + 1) acc (quote k ++ ':' :: tail) =
      readMembers? real? fuel ((k, v) :: acc) rest := by
  rw [quote_append, readMembers?, skipSpace_cons rfl]
  simp only [readString?_inside, skipSpace_cons (c := ':') rfl, h]
  rw [List.reverse_nil, List.nil_append, String.ofList_toList]
  rfl

end Steps

/-! ### Reading back -/

/-- What can be read with so much fuel: all valid values that are no longer. -/
structure ReadsBack (fuel : Nat) : Prop where
  value : ∀ v rest, IsValid v → Follows rest → (render v).length ≤ fuel →
    readValue? Binary64.ofDecimal? fuel (render v ++ rest) = some (v, rest)
  items : ∀ items acc rest, items ≠ [] → ItemsValid items → (renderItems items).length < fuel →
    readItems? Binary64.ofDecimal? fuel acc (renderItems items ++ ']' :: rest) =
      some (acc.reverse ++ items, rest)
  members : ∀ members acc rest, members ≠ [] → MembersValid members →
    (renderMembers members).length < fuel →
    readMembers? Binary64.ofDecimal? fuel acc (renderMembers members ++ '\x7d' :: rest) =
      some (acc.reverse ++ members, rest)

variable {fuel : Nat}

theorem ReadsBack.value_succ (h : ReadsBack fuel) {v : Json} {rest : List Char} (hv : IsValid v)
    (hrest : Follows rest) (hlength : (render v).length ≤ fuel + 1) :
    readValue? Binary64.ofDecimal? (fuel + 1) (render v ++ rest) = some (v, rest) := by
  cases v with
  | null => rfl
  | bool b => cases b <;> rfl
  | number n =>
    obtain ⟨c, tail, hrender, hc⟩ := exists_cons_number n
    have hread := readNumber?_render (n := n) hv hrest
    change readValue? _ _ (n.render ++ rest) = _
    rw [hrender] at hread ⊢
    rw [List.cons_append, readValue?_number _ _ hc, ← List.cons_append, hread]
    rfl
  | string s =>
    change readValue? _ _ (quote s ++ rest) = _
    rw [quote_append, readValue?_string, String.ofList_toList]
  | array items =>
    by_cases hne : items = []
    · rw [hne]
      rfl
    have htext : render (.array items) ++ rest = '[' :: (renderItems items ++ ']' :: rest) := by
      simp [render]
    have hshort : (renderItems items).length < fuel := by
      simp [render] at hlength
      omega
    have hitems := h.items items [] rest hne hv hshort
    obtain ⟨c, tail, hbegin, hc⟩ := exists_cons_renderItems hne
    rw [hbegin] at hitems
    rw [htext, hbegin, List.cons_append, readValue?_array _ _ hc, ← List.cons_append, hitems]
    rfl
  | object members =>
    by_cases hne : members = []
    · rw [hne]
      rfl
    have htext : render (.object members) ++ rest =
        '\x7b' :: (renderMembers members ++ '\x7d' :: rest) := by
      simp [render]
    have hshort : (renderMembers members).length < fuel := by
      simp [render] at hlength
      omega
    have hmembers := h.members members [] rest hne hv hshort
    obtain ⟨tail, hbegin⟩ := exists_cons_renderMembers hne
    rw [hbegin] at hmembers
    rw [htext, hbegin, List.cons_append, readValue?_object, ← List.cons_append, hmembers]
    rfl

theorem ReadsBack.items_succ (h : ReadsBack fuel) {items acc : List Json} {rest : List Char}
    (hne : items ≠ []) (hvalid : ItemsValid items) (hlength : (renderItems items).length < fuel + 1) :
    readItems? Binary64.ofDecimal? (fuel + 1) acc (renderItems items ++ ']' :: rest) =
      some (acc.reverse ++ items, rest) := by
  obtain ⟨v, more, rfl⟩ := List.exists_cons_of_ne_nil hne
  obtain ⟨hv, hmore⟩ := hvalid
  cases more with
  | nil =>
    rw [renderItems] at hlength ⊢
    rw [readItems?_last _ acc (h.value v _ hv (follows_cons (by decide) _) (by omega)),
      List.reverse_cons]
  | cons w more =>
    rw [renderItems, List.length_append, List.length_cons] at hlength
    have htext : renderItems (v :: w :: more) ++ ']' :: rest =
        render v ++ ',' :: (renderItems (w :: more) ++ ']' :: rest) := by
      simp [renderItems]
    rw [htext, readItems?_more _ acc (h.value v _ hv (follows_cons (by decide) _) (by omega)),
      h.items (w :: more) _ _ (List.cons_ne_nil _ _) hmore (by omega)]
    simp

theorem ReadsBack.members_succ (h : ReadsBack fuel) {members acc : Members} {rest : List Char}
    (hne : members ≠ []) (hvalid : MembersValid members)
    (hlength : (renderMembers members).length < fuel + 1) :
    readMembers? Binary64.ofDecimal? (fuel + 1) acc (renderMembers members ++ '\x7d' :: rest) =
      some (acc.reverse ++ members, rest) := by
  obtain ⟨⟨k, v⟩, more, rfl⟩ := List.exists_cons_of_ne_nil hne
  obtain ⟨hv, hmore⟩ := hvalid
  cases more with
  | nil =>
    rw [renderMembers, List.length_append, List.length_cons] at hlength
    have htext : renderMembers [(k, v)] ++ '\x7d' :: rest =
        quote k ++ ':' :: (render v ++ '\x7d' :: rest) := by
      simp [renderMembers]
    rw [htext, readMembers?_last _ acc k (h.value v _ hv (follows_cons (by decide) _) (by omega)),
      List.reverse_cons]
  | cons m more =>
    rw [renderMembers, List.length_append, List.length_cons, List.length_append, List.length_cons]
      at hlength
    have htext : renderMembers ((k, v) :: m :: more) ++ '\x7d' :: rest =
        quote k ++ ':' :: (render v ++ ',' :: (renderMembers (m :: more) ++ '\x7d' :: rest)) := by
      simp [renderMembers]
    rw [htext, readMembers?_more _ acc k (h.value v _ hv (follows_cons (by decide) _) (by omega)),
      h.members (m :: more) _ _ (List.cons_ne_nil _ _) hmore (by omega)]
    simp

theorem readsBack (fuel : Nat) : ReadsBack fuel := by
  induction fuel with
  | zero =>
    refine ⟨fun v rest _ _ hlength => ?_, fun _ _ _ _ _ h => absurd h (Nat.not_lt_zero _),
      fun _ _ _ _ _ h => absurd h (Nat.not_lt_zero _)⟩
    obtain ⟨c, tail, hrender, _⟩ := exists_cons_render v
    rw [hrender] at hlength
    cases hlength
  | succ fuel ih =>
    exact ⟨fun _ _ => ih.value_succ, fun _ _ _ => ih.items_succ, fun _ _ _ => ih.members_succ⟩

/-- **A valid value is read back from its text.** -/
theorem read?_render {v : Json} (hv : IsValid v) : read? (render v) = some v := by
  have hread := (readsBack ((render v).length + 1)).value v [] hv follows_nil (by omega)
  rw [List.append_nil] at hread
  rw [read?, readWith?, hread]
  rfl

end Json

end LogRouter
