import Formulary.Code.Program
import Formulary.Proofs.Code.Refusal
import Formulary.Proofs.Pattern

namespace Formulary

section Renumbering

variable {row : Row} {first : Nat}

theorem Row.cells_renumber {columns : Columns} {line : List String}
    (encoded : row.cells first columns = .ok line) (second : Nat) :
    row.cells second columns = .ok line := by
  refine mapM_ok.mpr ((mapM_ok.mp encoded).imp fun column cell fine => ?_)
  obtain ⟨literal, stored, native, rfl⟩ := Row.cell_ok fine
  simp [Row.cell, stored, native]

theorem Node.typedValue_renumber {node : Node} {arguments : List Value} {value : Value}
    (computed : node.typedValue row first arguments = .ok value) (second : Nat) :
    node.typedValue row second arguments = .ok value := by
  unfold Node.typedValue Node.value Row.value at computed ⊢
  split at computed
  · cases computed
  · split at computed
    · split at computed
      · cases computed
      · split at computed
        · rename_i same
          simpa [same] using computed
        · cases computed
    · exact computed

theorem Arena.valueAt_renumber {arena : Arena} {ordered : arena.Ordered} {id : NodeId}
    {value : Value} (computed : arena.valueAt ordered row first id = .ok value) (second : Nat) :
    arena.valueAt ordered row second id = .ok value := by
  -- Children stand before their parents, so they have the same values already.
  induction id using NodeId.strongRecOn generalizing value with
  | ind id ih =>
    cases found : arena.node? id with
    | none =>
      rw [Arena.valueAt, Pass.descend_missing found] at computed
      cases computed
    | some node =>
      rw [Arena.valueAt_found found] at computed ⊢
      cases entered : node.admit with
      | error error => simp [entered, bind, Except.bind] at computed
      | ok entrance =>
        cases below : node.children.mapM (arena.valueAt ordered row first) with
        | error error => simp [entered, below, bind, Except.bind] at computed
        | ok arguments =>
          have same : node.children.mapM (arena.valueAt ordered row second) =
              node.children.mapM (arena.valueAt ordered row first) := by
            refine mapM_congr fun child member => ?_
            obtain ⟨result, valued⟩ := related_of_mem (mapM_ok.mp below) member
            rw [valued, ih child (ordered id node found child member) valued]
          rw [entered, below] at computed
          rw [same, below]
          exact Node.typedValue_renumber computed second

theorem Formula.evaluateAt_renumber {formula : Formula} {value : Value}
    (computed : formula.evaluateAt row first = .ok value) (second : Nat) :
    formula.evaluateAt row second = .ok value := by
  rw [formula.evaluateAt_eq] at computed ⊢
  exact Arena.valueAt_renumber computed second

end Renumbering

theorem Row.cells_refused {row : Row} {index : Nat} {columns : Columns} {error : Error}
    (refused : row.cells index columns = .error error) :
    ∃ name fault, error = .cell index name fault := by
  obtain ⟨column, failed⟩ := mapM_error refused
  unfold Row.cell at failed
  split at failed
  · cases failed
    exact ⟨_, _, rfl⟩
  · split at failed
    · cases failed
      exact ⟨_, _, rfl⟩
    · rename_i other unresolved
      obtain ⟨fault, rfl⟩ := TermSort.native_error unresolved
      exact (other _ fault rfl).elim
    · split at failed
      · cases failed
      · cases failed
        exact ⟨_, _, rfl⟩

def Columns.Accept (columns : Columns) (row : Row) : Prop :=
  ∃ index line, row.cells index columns = .ok line

theorem Columns.Accept.cells {columns : Columns} {row : Row} (accepted : columns.Accept row)
    (index : Nat) : ∃ line, row.cells index columns = .ok line := by
  obtain ⟨first, line, encoded⟩ := accepted
  exact ⟨line, Row.cells_renumber encoded index⟩

theorem encodeRows_accepted {columns : Columns} {rows : List Row} (base : Nat)
    (accepted : ∀ row ∈ rows, columns.Accept row) :
    ∃ lines, encodeRows columns base rows = .ok lines := by
  induction rows generalizing base with
  | nil => exact ⟨[], rfl⟩
  | cons row rest ih =>
    obtain ⟨line, here⟩ := (accepted row List.mem_cons_self).cells base
    obtain ⟨lines, later⟩ := ih (base + 1) fun other member =>
      accepted other (List.mem_cons_of_mem row member)
    refine ⟨line :: lines, ?_⟩
    rw [encodeRows, here, later]
    rfl

theorem accept_of_encodeRows {columns : Columns} {base : Nat} {rows : List Row}
    {lines : List (List String)} (encoded : encodeRows columns base rows = .ok lines) :
    ∀ row ∈ rows, columns.Accept row := by
  intro row member
  obtain ⟨line, index, cells⟩ := related_of_mem (encodeRows_ok encoded) member
  exact ⟨index, line, cells⟩

theorem encodeRows_refused {columns : Columns} {rows : List Row} {base : Nat} {error : Error}
    (refused : encodeRows columns base rows = .error error) :
    ∃ before row after, rows = before ++ row :: after ∧
      (∀ earlier ∈ before, columns.Accept earlier) ∧ ¬ columns.Accept row ∧
      row.cells (base + before.length) columns = .error error := by
  induction rows generalizing base with
  | nil => cases refused
  | cons row rest ih =>
    rw [encodeRows] at refused
    cases here : row.cells base columns with
    | error found =>
      rw [here] at refused
      cases refused
      refine ⟨[], row, rest, rfl, by simp, fun accepted => ?_, here⟩
      obtain ⟨line, encoded⟩ := accepted.cells base
      rw [here] at encoded
      cases encoded
    | ok line =>
      cases later : encodeRows columns (base + 1) rest with
      | ok more =>
        rw [here, later] at refused
        cases refused
      | error found =>
        rw [here, later] at refused
        cases refused
        obtain ⟨before, failing, after, rfl, accepted, unaccepted, failed⟩ := ih later
        refine ⟨row :: before, failing, after, rfl, ?_, unaccepted, ?_⟩
        · rintro other (_ | ⟨_, member⟩)
          · exact ⟨base, line, here⟩
          · exact accepted other member
        · rwa [List.length_cons, Nat.add_comm before.length, ← Nat.add_assoc]

/-- Rows are evaluated one by one, each under its own number. -/
theorem Formula.evaluateFrom_ok {formula : Formula} {base : Nat} {rows : List Row}
    {values : List Value} (evaluated : formula.evaluateFrom base rows = .ok values) :
    List.Forall₂ (fun row value => formula.evaluate row = .ok value) rows values := by
  induction rows generalizing base values with
  | nil =>
    cases evaluated
    exact .nil
  | cons row rest ih =>
    rw [Formula.evaluateFrom] at evaluated
    cases here : formula.evaluateAt row base with
    | error error => simp [here, bind, Except.bind] at evaluated
    | ok value =>
      cases later : formula.evaluateFrom (base + 1) rest with
      | error error => simp [here, later, bind, Except.bind] at evaluated
      | ok more =>
        simp only [here, later, bind, Except.bind] at evaluated
        cases evaluated
        exact .cons (Formula.evaluateAt_renumber here 0) (ih later)

section Truths

variable {formula : Formula} {function : Code.Function}

theorem Formula.program_ok {program : Code.Program} (made : formula.program = .ok program) :
    ∃ function, formula.lower = .ok function ∧ program.columns = function.columns := by
  unfold Formula.program at made
  cases lowered : formula.lower with
  | error error =>
    rw [lowered] at made
    cases made
  | ok function =>
    rw [lowered] at made
    cases made
    exact ⟨function, rfl, rfl⟩

theorem Code.accepted_value {row : Row} (sorted : formula.WellSorted)
    (lowered : formula.lower = .ok function) (accepted : function.columns.Accept row) :
    ∃ value root, formula.evaluate row = .ok value ∧
      formula.arena.node? formula.root = some root ∧ value.HasSort root.sort := by
  obtain ⟨passage, result, same, known, alike⟩ := root_refused sorted lowered
  obtain ⟨line, encoded⟩ := accepted.cells 0
  obtain ⟨root, found⟩ := Arena.Reaches.root.found formula.ordered formula.rooted
  obtain ⟨value, valued, held⟩ :=
    (alike.suited line (same ▸ encoded)).valued formula.root result known root found
  exact ⟨value, root, (formula.evaluateAt_eq row 0).trans valued, found, held⟩

theorem Code.accepted_truth {row : Row} (sorted : formula.WellSorted)
    (boolean : formula.arena.sortOf formula.root = .ok .bool)
    (lowered : formula.lower = .ok function) (accepted : function.columns.Accept row) :
    ∃ truth, formula.evaluate row = .ok (.bool truth) ∧ formula.satisfies row = .ok truth := by
  obtain ⟨value, root, evaluated, found, held⟩ := accepted_value sorted lowered accepted
  have isBool : root.sort = .bool := by
    rw [Arena.sortOf, found] at boolean
    exact Except.ok.inj boolean
  rw [isBool] at held
  cases held with
  | bool truth =>
    refine ⟨truth, evaluated, ?_⟩
    rw [Formula.satisfies, evaluated]
    rfl

theorem Code.accepted_truths {rows : List Row} (sorted : formula.WellSorted)
    (boolean : formula.arena.sortOf formula.root = .ok .bool)
    (lowered : formula.lower = .ok function) (base : Nat)
    (accepted : ∀ row ∈ rows, function.columns.Accept row) :
    ∃ truths, formula.evaluateFrom base rows = .ok (truths.map Value.bool) ∧
      List.Forall₂ (fun row truth => formula.satisfies row = .ok truth) rows truths := by
  induction rows generalizing base with
  | nil => exact ⟨[], rfl, .nil⟩
  | cons row rest ih =>
    obtain ⟨truth, evaluated, satisfied⟩ :=
      accepted_truth sorted boolean lowered (accepted row List.mem_cons_self)
    obtain ⟨truths, later, remaining⟩ := ih (base + 1) fun other member =>
      accepted other (List.mem_cons_of_mem row member)
    refine ⟨truth :: truths, ?_, .cons satisfied remaining⟩
    rw [Formula.evaluateFrom, Formula.evaluateAt_renumber evaluated base, later]
    rfl

end Truths

end Formulary
