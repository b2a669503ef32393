import Formulary.Pattern
import Formulary.Proofs.Numeral
import Formulary.Proofs.Typing
import Formulary.Text.Blank

namespace Formulary

theorem Row.cell_ok {row : Row} {index : Nat} {column : Column} {cell : String}
    (encoded : row.cell index column = .ok cell) :
    ∃ literal, row.get? column.name = some literal ∧ literal.sort.native = .ok column.type ∧
      cell = literal.cell := by
  unfold Row.cell at encoded
  split at encoded
  · cases encoded
  · rename_i literal stored
    split at encoded
    · cases encoded
    · cases encoded
    · rename_i type native
      split at encoded
      · rename_i same
        cases encoded
        exact ⟨literal, stored, same ▸ native, rfl⟩
      · cases encoded

/-- Encoded rows are encoded one by one, each under its own number. -/
theorem encodeRows_ok {columns : Columns} {base : Nat} {rows : List Row}
    {lines : List (List String)} (encoded : encodeRows columns base rows = .ok lines) :
    List.Forall₂ (fun row line => ∃ index, row.cells index columns = .ok line) rows lines := by
  induction rows generalizing base lines with
  | nil =>
    cases encoded
    exact .nil
  | cons row rest ih =>
    rw [encodeRows] at encoded
    cases here : row.cells base columns with
    | error error => simp [here, bind, Except.bind] at encoded
    | ok line =>
      cases later : encodeRows columns (base + 1) rest with
      | error error => simp [here, later, bind, Except.bind] at encoded
      | ok more =>
        simp only [here, later, bind, Except.bind] at encoded
        cases encoded
        exact .cons ⟨base, here⟩ (ih later)

namespace Text

/-- What stands between the blanks of a text. -/
def tokens (letters : List Char) : List String :=
  ((letters.splitOnP isBlank).filter (· ≠ [])).map String.ofList

def IsToken (text : String) : Prop :=
  text.toList ≠ [] ∧ ∀ letter ∈ text.toList, isBlank letter = false

instance : DecidablePred IsToken := fun text =>
  decidable_of_iff (text.toList ≠ [] ∧ text.toList.any isBlank = false) (by simp [IsToken])

theorem tokens_blank {letter : Char} (blank : isBlank letter = true) (rest : List Char) :
    tokens (letter :: rest) = tokens rest := by
  have split : (letter :: rest).splitOnP isBlank = [] :: rest.splitOnP isBlank := by
    simp [List.splitOnP_cons_eq_if_modifyHead, blank]
  simp [tokens, split]

theorem tokens_token {text : String} (token : IsToken text) {letter : Char}
    (blank : isBlank letter = true) (rest : List Char) :
    tokens (text.toList ++ letter :: rest) = text :: tokens rest := by
  have split := List.splitOnP_append_cons_of_forall_mem token.2 letter blank rest
  simp [tokens, split, token.1]

/-- A line ends with a blank, so its last token does not run into the next line. -/
theorem tokens_line {line : List String} (each : ∀ cell ∈ line, IsToken cell)
    (rest : List Char) :
    tokens ((String.intercalate " " line ++ "\n").toList ++ rest) = line ++ tokens rest := by
  have newline : isBlank '\n' = true := by decide
  have space : isBlank ' ' = true := by decide
  simp only [String.toList_append, String.toList_intercalate, List.append_assoc]
  induction line with
  | nil => exact tokens_blank newline rest
  | cons first line ih =>
    have here := each first List.mem_cons_self
    have later := ih fun cell member => each cell (List.mem_cons_of_mem first member)
    cases line with
    | nil =>
      rw [List.map_cons, List.map_nil, List.intercalate_singleton]
      exact tokens_token here newline rest
    | cons second line =>
      simp only [List.map_cons, List.intercalate_cons_cons, List.append_assoc] at later ⊢
      exact (tokens_token here space _).trans (congrArg (first :: ·) later)

theorem tokens_lines {lines : List (List String)}
    (each : ∀ line ∈ lines, ∀ cell ∈ line, IsToken cell) :
    tokens (String.join (lines.map fun line => String.intercalate " " line ++ "\n")).toList =
      lines.flatten := by
  rw [String.toList_join]
  induction lines with
  | nil => rfl
  | cons line rest ih =>
    rw [List.map_cons, List.flatMap_cons, tokens_line (each line List.mem_cons_self),
      ih fun other member => each other (List.mem_cons_of_mem line member), List.flatten_cons]

theorem isBlank_of_isGraphic {letter : Char} (graphic : isGraphic letter = true) :
    isBlank letter = false := by
  have apart : ∀ blanks ∈ blankRanges, blanks.2 ≤ 0x20 ∨ 0x7F ≤ blanks.1 := by decide
  obtain ⟨above, below⟩ := isGraphic_iff.mp graphic
  rw [isBlank, List.any_eq_false]
  intro blanks member
  have := apart blanks member
  simp only [Bool.and_eq_true, decide_eq_true_eq]
  omega

theorem IsSolid.isToken {text : String} (solid : IsSolid text) : IsToken text :=
  ⟨solid.1, fun letter member => isBlank_of_isGraphic (solid.2 letter member)⟩

end Text

theorem Literal.cell_isToken (literal : Literal) : Text.IsToken literal.cell := by
  cases literal with
  | bool value => cases value <;> decide
  | int value => exact (Text.isSolid_integer value.toInt).isToken
  | real value => exact (Decimal.plain_isSolid value.toFloat).isToken
  | bitVec bits _ => exact (Text.isSolid_number bits.toNat).isToken

theorem tokens_text {columns : Columns} {base : Nat} {rows : List Row}
    {lines : List (List String)} (encoded : encodeRows columns base rows = .ok lines) :
    Text.tokens (Batch.text ⟨lines⟩).toList = toString rows.length :: lines.flatten := by
  have newline : Text.isBlank '\n' = true := by decide
  have each : ∀ line ∈ lines, ∀ cell ∈ line, Text.IsToken cell := by
    intro line inLines cell inLine
    obtain ⟨row, index, made⟩ := related_of_mem (encodeRows_ok encoded).flip inLines
    obtain ⟨column, fine⟩ := related_of_mem (mapM_ok.mp made).flip inLine
    obtain ⟨literal, _, _, rfl⟩ := Row.cell_ok fine
    exact literal.cell_isToken
  rw [Batch.text, Batch.size, ← (encodeRows_ok encoded).length_eq, String.toList_append,
    String.toList_append, List.append_assoc]
  exact (Text.tokens_token (Text.isSolid_number rows.length).isToken newline _).trans
    (congrArg _ (Text.tokens_lines each))

end Formulary
