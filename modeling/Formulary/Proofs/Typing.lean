import Formulary.Arena.Construction
import Formulary.Proofs.Traversal
import Formulary.Proofs.Word
import Formulary.Row
import Mathlib.Tactic.FinCases

namespace Formulary

/-- Integers or doubles. -/
def TermSort.Numeric (sort : TermSort) : Prop := sort = .int ∨ sort = .real

/-- Bit-vectors fit a machine word. -/
def TermSort.Narrow : TermSort → Prop
  | bitVec width => 1 ≤ width ∧ width ≤ NativeType.maxWidth
  | _ => True

instance : DecidablePred TermSort.Narrow
  | .bitVec width => inferInstanceAs (Decidable (1 ≤ width ∧ width ≤ NativeType.maxWidth))
  | .bool | .int | .real | .array .. | .function .. | .uninterpreted _ => isTrue trivial

/-- The sorts that an operator takes, and the sort of its value. Only operators with a
meaning have signatures. -/
inductive Operator.Signature : Operator → List TermSort → TermSort → Prop where
  | symbol (name : String) (sort : TermSort) : Signature (.symbol name) [] sort
  | constant (value : Literal) : Signature (.constant value) [] value.sort
  | not : Signature .not [.bool] .bool
  | junction {operator : Operator} (member : operator ∈ [.and, .or]) (more : Nat) :
      Signature operator (List.replicate (more + 1) .bool) .bool
  | connective {operator : Operator} (member : operator ∈ [.implies, .iff]) :
      Signature operator [.bool, .bool] .bool
  | equals (sort : TermSort) : Signature .equals [sort, sort] .bool
  | ite (sort : TermSort) : Signature .ite [.bool, sort, sort] sort
  | arithmetic {operator : Operator} (member : operator ∈ [.plus, .minus, .times, .div])
      {sort : TermSort} (numeric : sort.Numeric) (more : Nat) :
      Signature operator (List.replicate (more + 1) sort) sort
  | pow {sort : TermSort} (numeric : sort.Numeric) : Signature .pow [sort, sort] sort
  | comparison {operator : Operator} (member : operator ∈ [.le, .lt])
      {sort : TermSort} (numeric : sort.Numeric) : Signature operator [sort, sort] .bool
  | inversion {operator : Operator} (member : operator ∈ [.bvNot, .bvNeg]) (width : Nat) :
      Signature operator [.bitVec width] (.bitVec width)
  | bitwise {operator : Operator} (member : operator ∈ [.bvAnd, .bvOr, .bvXor])
      (width more : Nat) :
      Signature operator (List.replicate (more + 1) (.bitVec width)) (.bitVec width)
  | word {operator : Operator}
      (member : operator ∈
        [.bvShl, .bvLShr, .bvAShr, .bvAdd, .bvSub, .bvMul, .bvUDiv, .bvSDiv])
      (width : Nat) : Signature operator [.bitVec width, .bitVec width] (.bitVec width)
  | order {operator : Operator} (member : operator ∈ [.bvULt, .bvULe, .bvSLt, .bvSLe])
      (width : Nat) : Signature operator [.bitVec width, .bitVec width] .bool
  | bvComp (width : Nat) : Signature .bvComp [.bitVec width, .bitVec width] (.bitVec 1)
  | bvExtract {low high width : Nat} (forward : low ≤ high) (inside : high < width) :
      Signature (.bvExtract low high) [.bitVec width] (.bitVec (high - low + 1))
  | bvConcat (high low : Nat) :
      Signature .bvConcat [.bitVec high, .bitVec low] (.bitVec (high + low))

/-- A node whose children suit its operator, and whose sort is the one that typed
construction gives it. A symbol brings its own sort. -/
structure Arena.WellSorted (arena : Arena) (node : Node) : Prop where
  suited : ∃ sorts sort, node.children.mapM arena.sortOf = .ok sorts ∧
    node.operator.Signature sorts sort
  built : node.symbol? = none →
    arena.resultSort node.operator node.children = .ok node.sort
  narrow : node.sort.Narrow

/-- Every node that the root depends on is well-sorted. -/
def Formula.WellSorted (formula : Formula) : Prop :=
  ∀ id node, formula.arena.Reaches formula.root id → formula.arena.node? id = some node →
    formula.arena.WellSorted node

/-- The row gives every symbol that the root depends on a value of the symbol's sort. -/
def Formula.BoundBy (formula : Formula) (row : Row) : Prop :=
  ∀ id node name, formula.arena.Reaches formula.root id → formula.arena.node? id = some node →
    node.operator = .symbol name →
    ∃ value, row.get? name = some value ∧ value.sort = node.sort

theorem eq_ok_of_toOption {ε α : Type} {result : Except ε α} {value : α}
    (done : result.toOption = some value) : result = .ok value := by
  cases result with
  | error _ => cases done
  | ok _ => rw [Option.some.inj done]

theorem mapM_ok {α β : Type} {f : α → Except Error β} {list : List α} {results : List β} :
    list.mapM f = .ok results ↔
      List.Forall₂ (fun element result => f element = .ok result) list results := by
  induction list generalizing results with
  | nil =>
    constructor
    · intro done
      cases done
      exact .nil
    · intro done
      cases done
      rfl
  | cons element rest ih =>
    rw [List.mapM_cons]
    constructor
    · intro done
      cases first : f element with
      | error error => simp [first, bind, Except.bind] at done
      | ok result =>
        cases others : rest.mapM f with
        | error error => simp [first, others, bind, Except.bind] at done
        | ok remaining =>
          simp only [first, others, bind, Except.bind, pure, Except.pure,
            Except.ok.injEq] at done
          subst results
          exact .cons first (ih.mp others)
    · intro done
      cases done with
      | cons first others => simp [first, ih.mpr others, bind, Except.bind, pure, Except.pure]

theorem mapM_error {α β : Type} {f : α → Except Error β} {list : List α} {error : Error}
    (failed : list.mapM f = .error error) : ∃ element, f element = .error error := by
  induction list with
  | nil => cases failed
  | cons element rest ih =>
    rw [List.mapM_cons] at failed
    cases here : f element with
    | error first =>
      rw [here] at failed
      cases failed
      exact ⟨element, here⟩
    | ok result =>
      cases later : rest.mapM f with
      | error second =>
        rw [here, later] at failed
        cases failed
        exact ih later
      | ok results =>
        rw [here, later] at failed
        cases failed

theorem mapM_total {α β : Type} {f : α → Except Error β} {list : List α}
    (each : ∀ element ∈ list, ∃ result, f element = .ok result) :
    ∃ results, list.mapM f = .ok results := by
  induction list with
  | nil => exact ⟨[], rfl⟩
  | cons element rest ih =>
    obtain ⟨result, first⟩ := each element List.mem_cons_self
    obtain ⟨results, others⟩ := ih fun other member => each other (List.mem_cons_of_mem _ member)
    exact ⟨result :: results, by rw [List.mapM_cons, first, others]; rfl⟩

theorem mapM_congr {α β : Type} {f g : α → Except Error β} {list : List α}
    (same : ∀ element ∈ list, f element = g element) : list.mapM f = list.mapM g := by
  induction list with
  | nil => rfl
  | cons element rest ih =>
    rw [List.mapM_cons, List.mapM_cons, same element List.mem_cons_self,
      ih fun other member => same other (List.mem_cons_of_mem element member)]

theorem Arena.vectorSort_eq {width : Nat} {sort : TermSort}
    (formed : vectorSort width = .ok sort) : vectorSort width = .ok (.bitVec width) := by
  unfold vectorSort at formed ⊢
  split at formed
  · rename_i small
    exact if_pos small
  · cases formed

namespace Operator.Signature

variable {operator : Operator} {sorts : List TermSort} {sort : TermSort}

theorem supported (signature : operator.Signature sorts sort) :
    operator.unsupported = false := by
  cases signature with
  | junction member | connective member | arithmetic member | comparison member
  | inversion member | bitwise member | word member | order member =>
    fin_cases member <;> rfl
  | _ => rfl

theorem symbol_takes {name : String}
    (signature : (Operator.symbol name).Signature sorts sort) : sorts = [] := by
  cases signature with
  | symbol => rfl
  | junction member | connective member | arithmetic member | comparison member
  | inversion member | bitwise member | word member | order member => simp at member

/-- Typed construction gives an application the sort of its signature, if any. -/
theorem resultSort_eq {arena : Arena} {children : List NodeId} {result : TermSort}
    (signature : operator.Signature sorts sort) (applied : ∀ name, operator ≠ .symbol name)
    (sorted : children.mapM arena.sortOf = .ok sorts)
    (built : arena.resultSort operator children = .ok result) : result = sort := by
  suffices computed : arena.resultSort operator children = .ok sort by
    rw [computed] at built
    exact (Except.ok.inj built).symm
  have sorted := mapM_ok.mp sorted
  cases signature with
  | symbol name sort => exact absurd rfl (applied name)
  | constant | not | equals | bvComp => rfl
  | junction member | connective member | comparison member | order member =>
    fin_cases member <;> rfl
  | ite sort =>
    obtain _ | ⟨_, _ | ⟨chosen, _⟩⟩ := sorted
    exact chosen
  | pow numeric =>
    obtain _ | ⟨first, _⟩ := sorted
    exact first
  | arithmetic member | inversion member | bitwise member | word member =>
    obtain _ | ⟨first, _⟩ := sorted
    fin_cases member <;> exact first
  | bvExtract forward inside => exact Arena.vectorSort_eq built
  | bvConcat high low =>
    obtain _ | ⟨first, _ | ⟨second, _ | _⟩⟩ := sorted
    simp only [Arena.resultSort, first, second, bind, Except.bind, TermSort.width?,
      Option.getD_some] at built ⊢
    exact Arena.vectorSort_eq built

end Operator.Signature

theorem Arena.WellSorted.signature {arena : Arena} {node : Node}
    (sorted : arena.WellSorted node) :
    ∃ sorts, List.Forall₂ (fun child sort => arena.sortOf child = .ok sort) node.children sorts ∧
      node.operator.Signature sorts node.sort := by
  obtain ⟨sorts, sort, children, signature⟩ := sorted.suited
  refine ⟨sorts, mapM_ok.mp children, ?_⟩
  cases introduced : node.symbol? with
  | some binding =>
    obtain ⟨name, named⟩ : ∃ name, node.operator = .symbol name := by
      unfold Node.symbol? at introduced
      split at introduced
      · rename_i name named
        exact ⟨name, named⟩
      · cases introduced
    rw [named] at signature ⊢
    rw [signature.symbol_takes]
    exact .symbol name node.sort
  | none =>
    have applied : ∀ name, node.operator ≠ .symbol name := by
      intro name named
      simp [Node.symbol?, named] at introduced
    rw [signature.resultSort_eq applied children (sorted.built introduced)]
    exact signature

end Formulary
