import Formulary.Evaluation
import Formulary.Proofs.Numeral
import Formulary.Proofs.Text
import Formulary.Proofs.Typing
import Formulary.Session

namespace Formulary

theorem Text.isPlain_of_isGraphic {letter : Char} (graphic : isGraphic letter = true) :
    IsPlain letter := by
  refine ⟨Nat.lt_succ_of_lt (isGraphic_iff.mp graphic).2, ?_, ?_⟩
  · rintro rfl
    exact absurd graphic (by decide)
  · rintro rfl
    exact absurd graphic (by decide)

theorem Value.cell_isSolid (value : Value) : Text.IsSolid value.cell := by
  cases value with
  | bool value => cases value <;> decide
  | int value => exact Text.isSolid_integer value.toInt
  | real value => exact Decimal.plain_isSolid value
  | bitVec bits _ => exact Text.isSolid_number bits.toNat

theorem Value.cell_plain (value : Value) : ∀ letter ∈ value.cell.toList, Text.IsPlain letter :=
  fun letter member => Text.isPlain_of_isGraphic (value.cell_isSolid.2 letter member)

namespace Session

/-- What an evaluator leaves for rows with these values. -/
def resultFile (values : List Value) : Text.Bytes := .ofText (Text.page (values.map Value.cell))

theorem lines_resultFile (values : List Value) :
    (resultFile values).lines = values.map fun value => .ofText value.cell := by
  rw [resultFile, Text.lines_page, List.map_map]
  · rfl
  · intro line member
    obtain ⟨value, _, rfl⟩ := List.mem_map.mp member
    exact value.cell_plain

theorem text?_cell (value : Value) : (Text.Bytes.ofText value.cell).text? = some value.cell :=
  Text.text?_ofText fun letter member => (value.cell_plain letter member).1

/-- The cells are read back. -/
theorem linesOf_resultFile (path : Path) (values : List Value) :
    linesOf path (resultFile values) = .ok (values.map Value.cell) := by
  rw [linesOf, lines_resultFile]
  induction values with
  | nil => rfl
  | cons value rest ih =>
    rw [List.map_cons, List.mapM_cons, ih, text?_cell]
    rfl

theorem allTruthy_of_linesOf {path : Path} {content : Text.Bytes} {lines : List String}
    (listed : linesOf path content = .ok lines) :
    allTruthy path content.lines = .ok (lines.all fun line => line = truthy) := by
  unfold linesOf at listed
  have texts := mapM_ok.mp listed
  clear listed
  generalize content.lines = raw at texts ⊢
  induction texts with
  | nil => rfl
  | @cons line text rest texts here _ ih =>
    split at here
    · rename_i decoded
      cases here
      rw [allTruthy, decoded, List.all_cons]
      by_cases one : text = truthy
      · simp only [one, if_true, ih, decide_true, Bool.true_and]
      · simp only [one, if_false, decide_false, Bool.false_and]
    · cases here

theorem allTruthy_resultFile (path : Path) (values : List Value) :
    allTruthy path (resultFile values).lines =
      .ok (values.all fun value => value.cell = truthy) := by
  rw [allTruthy_of_linesOf (linesOf_resultFile path values), List.all_map]
  rfl

end Session

end Formulary
