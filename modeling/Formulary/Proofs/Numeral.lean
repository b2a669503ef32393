import Formulary.Decimal.Layout

namespace Formulary

namespace Text

/-- An ASCII letter that shows. -/
def isGraphic (letter : Char) : Bool := 0x20 < letter.toNat && letter.toNat < 0x7F

theorem isGraphic_iff {letter : Char} :
    isGraphic letter = true ↔ 0x20 < letter.toNat ∧ letter.toNat < 0x7F := by
  simp [isGraphic]

/-- A text that is not empty and shows in full. -/
def IsSolid (text : String) : Prop :=
  text.toList ≠ [] ∧ ∀ letter ∈ text.toList, isGraphic letter = true

instance : DecidablePred IsSolid := fun text =>
  decidable_of_iff (text.toList ≠ [] ∧ text.toList.all isGraphic = true) (by simp [IsSolid])

theorem isGraphic_of_mem_toDigits {number : Nat} {letter : Char}
    (member : letter ∈ Nat.toDigits 10 number) : isGraphic letter = true := by
  have digit := Nat.isDigit_of_mem_toDigits (by decide) (by decide) member
  have range : 48 ≤ letter.toNat ∧ letter.toNat ≤ 57 := Char.isDigit_iff_toNat.mp digit
  exact isGraphic_iff.mpr ⟨by omega, by omega⟩

theorem isSolid_number (number : Nat) : IsSolid (toString number) := by
  rw [IsSolid, Nat.toString_eq_ofList_toDigits, String.toList_ofList]
  exact ⟨Nat.toDigits_ne_nil, fun letter member => isGraphic_of_mem_toDigits member⟩

theorem IsSolid.append {first second : String} (graphic : first.toList.all isGraphic = true)
    (solid : IsSolid second) : IsSolid (first ++ second) := by
  rw [IsSolid, String.toList_append]
  refine ⟨fun empty => solid.1 (List.append_eq_nil_iff.mp empty).2, fun letter member => ?_⟩
  rcases List.mem_append.mp member with before | after
  · exact List.all_eq_true.mp graphic letter before
  · exact solid.2 letter after

theorem isSolid_integer (number : Int) : IsSolid (toString number) := by
  cases number with
  | ofNat number => exact isSolid_number number
  | negSucc number => exact IsSolid.append (by decide) (isSolid_number (number + 1))

end Text

namespace Decimal

open Text

/-- Digits, zeros to fill up, and at most one point. -/
theorem unsigned_isSolid (x : Shortest) : IsSolid (String.ofList (plain.unsigned x)) := by
  have zeros : ∀ count, ∀ letter ∈ Layout.zeros count, isGraphic letter = true := by
    intro count letter member
    rw [List.eq_of_mem_replicate member]
    decide
  rw [IsSolid, String.toList_ofList]
  simp only [Layout.unsigned, plain, if_true]
  split
  · refine ⟨by simp, fun letter member => ?_⟩
    simp only [Bool.false_eq_true, if_false, List.append_nil, List.mem_append] at member
    exact member.elim isGraphic_of_mem_toDigits (zeros _ letter)
  · split
    · refine ⟨by simp, fun letter member => ?_⟩
      simp only [List.mem_append, List.mem_cons] at member
      rcases member with before | rfl | after
      · exact isGraphic_of_mem_toDigits (List.mem_of_mem_take before)
      · decide
      · exact isGraphic_of_mem_toDigits (List.mem_of_mem_drop after)
    · refine ⟨by simp, fun letter member => ?_⟩
      simp only [List.cons_append, List.mem_cons, List.mem_append] at member
      rcases member with rfl | rfl | filled | after
      · decide
      · decide
      · exact zeros _ letter filled
      · exact isGraphic_of_mem_toDigits after

theorem plain_isSolid (x : Float) : IsSolid (plain.text x) := by
  unfold Layout.text
  split
  · decide
  · refine IsSolid.append ?_ ?_
    · split <;> decide
    · unfold Layout.magnitude
      split
      · exact unsigned_isSolid _
      · split <;> decide

end Decimal

end Formulary
