import QueryGate.Text.Characters
import QueryGate.Text.Lowercase

/-! The lower case of a character consists of characters that are their own lower case, and none of
them is white space unless the character is. The table is checked range against range. -/

namespace QueryGate.Text

namespace CaseRange

/-- The last of the images. They all lie between the target and this one. -/
def lastImage (r : CaseRange) : Nat :=
  r.image r.last

/-- The images of `r` are not in `s`. They lie before it or behind it, or the steps of `s` leave them out. -/
def misses (r s : CaseRange) : Bool :=
  Nat.blt r.lastImage s.first || Nat.blt s.last r.target ||
    ((r.first == r.last || r.step % s.step == 0) && r.target % s.step != s.first % s.step)

/-- The images are visible characters, none of them the dotted capital I. -/
structure IsVisible (r : CaseRange) : Prop where
  blocks : ∀ block ∈ blankBlocks, r.lastImage < block.1 ∨ block.2 < r.target
  dotted : r.lastImage < 0x130 ∨ 0x130 < r.target
  valid : r.lastImage < 0xD800 ∨ 0xDFFF < r.target ∧ r.lastImage < 0x110000

instance (r : CaseRange) : Decidable r.IsVisible :=
  decidable_of_iff (_ ∧ _ ∧ _)
    ⟨fun ⟨blocks, dotted, valid⟩ => ⟨blocks, dotted, valid⟩,
      fun visible => ⟨visible.blocks, visible.dotted, visible.valid⟩⟩

variable {r s : CaseRange} {n : Nat}

theorem le_image (r : CaseRange) (n : Nat) : r.target ≤ r.image n :=
  Nat.le_add_right _ _

theorem holds_iff : r.holds n = true ↔ r.first ≤ n ∧ n ≤ r.last ∧ (n - r.first) % r.step = 0 := by
  simp [holds, and_assoc]

theorem image_le_lastImage (held : r.holds n = true) : r.image n ≤ r.lastImage := by
  obtain ⟨-, within, -⟩ := holds_iff.mp held
  unfold lastImage image
  omega

/-- Where both steps agree, the images keep their distance from the target modulo the step. -/
theorem image_mod (aligned : r.first = r.last ∨ r.step % s.step = 0) (held : r.holds n = true) :
    r.image n % s.step = r.target % s.step := by
  obtain ⟨after, before, stepped⟩ := holds_iff.mp held
  have whole : (n - r.first) % s.step = 0 := by
    rcases aligned with single | multiple
    · have here : n - r.first = 0 := by omega
      rw [here]
      exact Nat.zero_mod _
    · have divides : s.step ∣ n - r.first :=
        Nat.dvd_trans (Nat.dvd_of_mod_eq_zero multiple) (Nat.dvd_of_mod_eq_zero stepped)
      exact Nat.mod_eq_zero_of_dvd divides
  rw [image, Nat.add_mod, whole, Nat.add_zero, Nat.mod_mod]

theorem not_holds_image (missed : r.misses s = true) (held : r.holds n = true) :
    s.holds (r.image n) = false := by
  have lower := r.le_image n
  have upper := image_le_lastImage held
  refine Bool.eq_false_iff.mpr fun hit => ?_
  obtain ⟨after, before, stepped⟩ := holds_iff.mp hit
  simp only [misses, Bool.or_eq_true, Nat.blt_eq, Bool.and_eq_true, beq_iff_eq, bne_iff_ne] at missed
  rcases missed with (below | above) | ⟨aligned, apart⟩
  · omega
  · omega
  · apply apart
    rw [← image_mod aligned held]
    obtain ⟨steps, distance⟩ := Nat.dvd_of_mod_eq_zero stepped
    have placed : r.image n = s.first + s.step * steps := by omega
    rw [placed, Nat.add_mul_mod_self_left]

theorem misses_of_mem (first : r ∈ lowercaseRanges) (second : s ∈ lowercaseRanges) : r.misses s = true := by
  have all : (lowercaseRanges.all fun r => lowercaseRanges.all fun s => r.misses s) = true := by
    decide +kernel
  exact List.all_eq_true.mp (List.all_eq_true.mp all r first) s second

theorem isVisible_of_mem : ∀ r ∈ lowercaseRanges, r.IsVisible := by
  decide +kernel

end CaseRange

open CaseRange

theorem isBlank_eq_false {c : Char} :
    isBlank c = false ↔ ∀ block ∈ blankBlocks, c.toNat < block.1 ∨ block.2 < c.toNat := by
  simp only [isBlank, List.any_eq_false, Bool.and_eq_true, decide_eq_true_eq, Classical.not_and_iff_not_or_not,
    Nat.not_le]

/-- A visible character that is its own lower case. -/
structure IsSettled (c : Char) : Prop where
  visible : isBlank c = false
  lowercase : lowercase c = [c]

theorem isSettled_of_unmapped {c : Char} (visible : isBlank c = false) (undotted : c.toNat ≠ 0x130)
    (unmapped : ∀ r ∈ lowercaseRanges, r.holds c.toNat = false) : IsSettled c := by
  have none : lowercaseRanges.find? (·.holds c.toNat) = none := by
    refine List.find?_eq_none.mpr fun r listed => ?_
    rw [unmapped r listed]
    exact Bool.false_ne_true
  refine ⟨visible, ?_⟩
  rw [lowercase, if_neg undotted, none]

theorem isSettled_image {r : CaseRange} {n : Nat} (listed : r ∈ lowercaseRanges) (held : r.holds n = true) :
    IsSettled (Char.ofNat (r.image n)) := by
  have lower := r.le_image n
  have upper := image_le_lastImage held
  obtain ⟨blocks, dotted, valid⟩ := isVisible_of_mem r listed
  have placed : (Char.ofNat (r.image n)).toNat = r.image n := by
    have point : (r.image n).isValidChar := by
      unfold Nat.isValidChar
      omega
    rw [Char.ofNat, dif_pos point]
    rfl
  apply isSettled_of_unmapped
  · refine isBlank_eq_false.mpr fun block member => ?_
    rw [placed]
    have outside := blocks block member
    omega
  · omega
  · intro s other
    rw [placed]
    exact not_holds_image (misses_of_mem listed other) held

/-- The letter and the dot that the dotted capital I is mapped to. -/
theorem isSettled_dotted {d : Char} (member : d ∈ ['i', Char.ofNat 0x307]) : IsSettled d := by
  have unmapped : (lowercaseRanges.all fun r => !r.holds 0x69 && !r.holds 0x307) = true := by
    decide +kernel
  have apart : ∀ r ∈ lowercaseRanges, r.holds 0x69 = false ∧ r.holds 0x307 = false := by
    simpa using unmapped
  rcases List.mem_cons.mp member with rfl | second
  · exact isSettled_of_unmapped (by decide) (by decide) fun r listed => (apart r listed).1
  · rw [List.mem_singleton.mp second]
    exact isSettled_of_unmapped (by decide) (by decide) fun r listed => (apart r listed).2

/-- The images of a visible character are settled. -/
theorem isSettled_of_mem_lowercase {c d : Char} (visible : isBlank c = false) (member : d ∈ lowercase c) :
    IsSettled d := by
  unfold lowercase at member
  split at member
  case isTrue dotted => exact isSettled_dotted member
  case isFalse undotted =>
    split at member
    case h_1 r found =>
      rw [List.mem_singleton.mp member]
      have held := List.find?_some found
      exact isSettled_image (List.mem_of_find?_eq_some found) held
    case h_2 unmapped =>
      rw [List.mem_singleton.mp member]
      refine isSettled_of_unmapped visible undotted fun r listed => ?_
      simpa using List.find?_eq_none.mp unmapped r listed

theorem toLower_cases (c : Char) :
    c.toLower = c ∨ isBlank c = false ∧ lowercase c = [c.toLower] := by
  have letters : ∀ n < 0x5B, 0x41 ≤ n →
      isBlank (Char.ofNat n) = false ∧ lowercase (Char.ofNat n) = [(Char.ofNat n).toLower] := by
    decide
  by_cases upper : 'A'.val ≤ c.val ∧ c.val ≤ 'Z'.val
  · have lettered := letters c.toNat (Nat.lt_succ_of_le upper.2) upper.1
    rw [Char.ofNat_toNat] at lettered
    exact .inr lettered
  · exact .inl (dif_neg upper)

theorem isSettled_toLower {c : Char} (visible : isBlank c = false) (mapped : lowercase c = [c.toLower]) :
    IsSettled c.toLower := by
  have member : c.toLower ∈ lowercase c := by
    rw [mapped]
    exact List.mem_singleton_self _
  exact isSettled_of_mem_lowercase visible member

theorem lowercase_toLower (c : Char) : lowercase c.toLower = lowercase c := by
  rcases toLower_cases c with same | ⟨visible, mapped⟩
  · rw [same]
  · rw [mapped, (isSettled_toLower visible mapped).lowercase]

theorem isBlank_toLower (c : Char) : isBlank c.toLower = isBlank c := by
  rcases toLower_cases c with same | ⟨visible, mapped⟩
  · rw [same]
  · rw [visible, (isSettled_toLower visible mapped).visible]

end QueryGate.Text
