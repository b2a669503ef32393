import Formulary.Proofs.Evaluation.Soundness
import Mathlib.Algebra.BigOperators.Group.List.Basic
import Mathlib.Data.Int.ModEq

/-! Integer arithmetic without bounds. Machine integers wrap at every step of an evaluation;
the value of a formula is nevertheless its number without bounds, modulo two to the 64. -/
namespace Formulary

def Literal.number? : Literal → Option Int
  | .int value => some value.toInt
  | _ => none

/-- The number of an operator on numbers without bounds. One number is negated by a
difference, more are subtracted from the left. -/
def Operator.number? : Operator → List Int → Option Int
  | .constant literal, _ => literal.number?
  | .plus, first :: rest => some (first :: rest).sum
  | .minus, [only] => some (-only)
  | .minus, first :: rest => some (rest.foldl (· - ·) first)
  | .times, first :: rest => some (first :: rest).prod
  | _, _ => none

/-- The number of a node, given its children's; a row gives a symbol its number. -/
def Node.number? (node : Node) (row : Row) (arguments : List Int) : Option Int :=
  match node.operator with
  | .symbol name => (row.get? name).bind Literal.number?
  | operator => operator.number? arguments

/-- Computes numbers without bounds, and refuses every operator that has none. -/
def calculation (row : Row) : Pass Unit Int where
  enter _ := .ok ()
  leave node arguments _ :=
    match node.number? row arguments with
    | some number => .ok (number, ())
    | none => .error (.unsupported node.operator)
  childMissing id _ child := .graph (.childNotEvaluated child id)
  rootMissing root := .graph (.rootNotEvaluated root)

def Arena.numberAt (arena : Arena) (ordered : arena.Ordered) (row : Row) :
    NodeId → Except Error Int :=
  (calculation row).descend ordered

def Formula.number (formula : Formula) (row : Row) : Except Error Int :=
  formula.arena.numberAt formula.ordered row formula.root

/-- Symbols and constants of integers, and sums, differences and products. -/
def Node.Polynomial (node : Node) : Prop :=
  match node.operator with
  | .symbol _ => node.sort = .int
  | .constant literal => literal.sort = .int
  | operator => operator ∈ [.plus, .minus, .times]

/-- Every node that the root depends on belongs in a polynomial. -/
def Formula.Polynomial (formula : Formula) : Prop :=
  ∀ id node, formula.arena.Reaches formula.root id → formula.arena.node? id = some node →
    node.Polynomial

def Formula.subformula (formula : Formula) (id : NodeId) (inside : id < formula.arena.size) :
    Formula :=
  ⟨formula.arena, id, formula.ordered, inside⟩

namespace Word

theorem modEq_iff (word : Int64) (number : Int) :
    word.toInt ≡ number [ZMOD 2 ^ 64] ↔ word = Int64.ofInt number := by
  constructor
  · intro congruent
    symm
    rw [Int64.ofInt_eq_iff_bmod_eq_toInt, ← Int.emod_bmod]
    have same : number % ((2 ^ 64 : Nat) : Int) = word.toInt % ((2 ^ 64 : Nat) : Int) :=
      congruent.symm
    rw [same, Int.emod_bmod]
    exact Int64.toInt_bmod word
  · rintro rfl
    rw [Int64.toInt_ofInt]
    exact Int.bmod_emod

theorem foldl_ofInt {step : Int → Int → Int} {wrapped : Int64 → Int64 → Int64}
    (commutes : ∀ a b, wrapped (.ofInt a) (.ofInt b) = .ofInt (step a b))
    (first : Int) (rest : List Int) :
    (rest.map Int64.ofInt).foldl wrapped (.ofInt first) = .ofInt (rest.foldl step first) := by
  rw [List.foldl_map]
  exact List.foldl_hom Int64.ofInt commutes

theorem sum_ofInt (first : Int) (rest : List Int) :
    (rest.map Int64.ofInt).foldl (· + ·) (.ofInt first) = .ofInt (first :: rest).sum := by
  rw [foldl_ofInt fun a b => (Int64.ofInt_add a b).symm, List.sum_eq_foldl, List.foldl_cons,
    zero_add]

theorem difference_ofInt (first : Int) (rest : List Int) :
    (rest.map Int64.ofInt).foldl (· - ·) (.ofInt first) = .ofInt (rest.foldl (· - ·) first) :=
  foldl_ofInt (fun a b => (Int64.ofInt_sub a b).symm) first rest

theorem product_ofInt (first : Int) (rest : List Int) :
    (rest.map Int64.ofInt).foldl (· * ·) (.ofInt first) = .ofInt (first :: rest).prod := by
  rw [foldl_ofInt fun a b => (Int64.ofInt_mul a b).symm, List.prod_eq_foldl, List.foldl_cons,
    one_mul]

/-- An exponent in the low half of a word is taken as it is. -/
theorem power_ofInt (base exponent : Int64) (positive : 0 ≤ exponent.toInt)
    (small : exponent.toInt < 2 ^ 32) :
    power base exponent = .ofInt (base.toInt ^ exponent.toInt.toNat) := by
  have unsigned : exponent.toUInt64.toNat = exponent.toInt.toNat :=
    Int64.toNat_toUInt64_of_le (Int64.le_iff_toInt_le.mpr positive)
  have kept : exponent.toInt.toNat % halfSize = exponent.toInt.toNat := by
    apply Nat.mod_eq_of_lt
    change exponent.toInt.toNat < 2 ^ 32
    omega
  rw [power, unsigned, kept, ← powerNat_ofInt, Int64.ofInt_toInt]

end Word

/-- The machine integer of a number. -/
def Value.ofNumber (number : Int) : Value := .int (.ofInt number)

theorem Value.map_ofNumber (numbers : List Int) :
    numbers.map ofNumber = (numbers.map Int64.ofInt).map .int := by
  rw [List.map_map]
  rfl

theorem Literal.number_value {literal : Literal} (integer : literal.sort = .int) :
    ∃ number, literal.number? = some number ∧ Value.ofLiteral literal = .ofNumber number := by
  cases literal with
  | int value => exact ⟨value.toInt, rfl, by rw [Value.ofNumber, Int64.ofInt_toInt]; rfl⟩
  | bool | real | bitVec => cases integer

namespace Operator

/-- A sum, difference or product of wrapped numbers is the wrapped sum, difference or
product. -/
theorem number_value {operator : Operator} (member : operator ∈ [.plus, .minus, .times])
    (first : Int) (rest : List Int) :
    ∃ number, operator.number? (first :: rest) = some number ∧
      Application.value ⟨operator, (first :: rest).map Value.ofNumber⟩ =
        .ok (.ofNumber number) := by
  rw [Value.map_ofNumber, List.map_cons]
  fin_cases member
  · refine ⟨_, rfl, ?_⟩
    rw [Value.ofNumber, ← Word.sum_ofInt]
    exact Application.arithmetic_ints .plus _ _ _ _
  · cases rest with
    | nil =>
      refine ⟨-first, rfl, ?_⟩
      rw [Value.ofNumber, Int64.ofInt_neg]
      rfl
    | cons second rest =>
      refine ⟨_, rfl, ?_⟩
      rw [Value.ofNumber, ← Word.difference_ofInt]
      exact Application.arithmetic_ints .minus _ _ _ (_ :: _)
  · refine ⟨_, rfl, ?_⟩
    rw [Value.ofNumber, ← Word.product_ofInt]
    exact Application.arithmetic_ints .times _ _ _ _

/-- An operator of arithmetic takes at least one argument. -/
theorem Accepts.nonempty {operator : Operator} (member : operator ∈ [.plus, .minus, .times])
    {sorts : List TermSort} {sort : TermSort} {arguments : List Value}
    (accepts : operator.Accepts sorts sort arguments) : arguments ≠ [] := by
  rintro rfl
  obtain ⟨signature, typed, -, -⟩ := accepts
  cases typed
  fin_cases member <;> cases signature

end Operator

/-- A node whose children have the machine integers of their numbers has the machine integer
of its own. -/
theorem Node.number_value {node : Node} {row : Row} {sorts : List TermSort}
    {arguments : List Int} (index : Nat) (polynomial : node.Polynomial)
    (accepts : node.operator.Accepts sorts node.sort (arguments.map Value.ofNumber))
    (bound : ∀ name, node.operator = .symbol name →
      ∃ literal, row.get? name = some literal ∧ literal.sort = node.sort) :
    ∃ number, node.number? row arguments = some number ∧
      node.value row index (arguments.map Value.ofNumber) = .ok (.ofNumber number) := by
  obtain ⟨operator, children, sort⟩ := node
  unfold Node.Polynomial at polynomial
  split at polynomial
  · rename_i name named
    obtain ⟨literal, stored, same⟩ := bound name named
    cases named
    obtain ⟨number, known, valued⟩ := Literal.number_value (same.trans polynomial)
    refine ⟨number, ?_, ?_⟩
    · simp [Node.number?, stored, known]
    · simp [Node.value, Row.value, stored, same, valued]
  · rename_i literal stored
    cases stored
    obtain ⟨number, known, valued⟩ := Literal.number_value polynomial
    exact ⟨number, known, congrArg Except.ok valued⟩
  · rename_i applied _
    have nonempty := accepts.nonempty polynomial
    cases arguments with
    | nil => exact absurd rfl nonempty
    | cons first rest =>
      obtain ⟨number, known, valued⟩ := Operator.number_value polynomial first rest
      refine ⟨number, ?_, ?_⟩
      · unfold Node.number?
        split
        · rename_i name named
          exact absurd named (applied name)
        · exact known
      · rw [Node.value_applied applied]
        exact valued

theorem Arena.numberAt_found {arena : Arena} {ordered : arena.Ordered} {row : Row}
    {id : NodeId} {node : Node} {arguments : List Int} {number : Int}
    (found : arena.node? id = some node)
    (children : node.children.mapM (arena.numberAt ordered row) = .ok arguments)
    (known : node.number? row arguments = some number) :
    arena.numberAt ordered row id = .ok number := by
  have recursion : arena.numberAt ordered row id = _ := Pass.descend_found found
  rw [recursion]
  change (do
    let arguments ← node.children.mapM (arena.numberAt ordered row)
    let (number, _) ← (calculation row).leave node arguments ()
    pure number) = _
  rw [children]
  simp [calculation, known, bind, Except.bind, pure, Except.pure]

theorem mapM_linked {α β γ : Type} {f : α → Except Error β} {g : α → Except Error γ}
    {link : β → γ} {list : List α}
    (each : ∀ element ∈ list, ∃ result, f element = .ok result ∧ g element = .ok (link result)) :
    ∃ results, list.mapM f = .ok results ∧ list.mapM g = .ok (results.map link) := by
  induction list with
  | nil => exact ⟨[], rfl, rfl⟩
  | cons element rest ih =>
    obtain ⟨result, first, second⟩ := each element List.mem_cons_self
    obtain ⟨results, firsts, seconds⟩ := ih fun other member =>
      each other (List.mem_cons_of_mem _ member)
    refine ⟨result :: results, ?_, ?_⟩
    · simp [first, firsts, bind, Except.bind, pure, Except.pure]
    · simp [second, seconds, bind, Except.bind, pure, Except.pure]

namespace Formula

variable {formula : Formula} {row : Row} {index : Nat}

theorem valueAt_of_value (sorted : formula.WellSorted) (bound : formula.BoundBy row)
    {id : NodeId} {node : Node} {values : List Value} {value : Value}
    (reached : formula.arena.Reaches formula.root id)
    (found : formula.arena.node? id = some node)
    (children : node.children.mapM (formula.arena.valueAt formula.ordered row index) = .ok values)
    (valued : node.value row index values = .ok value) :
    formula.arena.valueAt formula.ordered row index id = .ok value := by
  obtain ⟨sorts, taken, computed, accepts⟩ := children_sound sorted bound reached found
  rw [children] at computed
  cases computed
  obtain ⟨again, typed, _⟩ := Node.typedValue_sound index accepts (bound id node · reached found)
  rw [Arena.valueAt_found found, Node.enters accepts.signature.supported, children]
  change node.typedValue row index values = _
  unfold Node.typedValue at typed ⊢
  split at typed
  · cases typed
  · exact valued

theorem numberAt_sound (sorted : formula.WellSorted) (polynomial : formula.Polynomial)
    (bound : formula.BoundBy row) {id : NodeId} {node : Node}
    (reached : formula.arena.Reaches formula.root id)
    (found : formula.arena.node? id = some node) :
    ∃ number, formula.arena.numberAt formula.ordered row id = .ok number ∧
      formula.arena.valueAt formula.ordered row index id = .ok (.ofNumber number) := by
  -- Shared nodes are met again at each use; the induction is on positions, not on paths.
  induction id using NodeId.strongRecOn generalizing node with
  | ind id ih =>
    obtain ⟨numbers, calculated, evaluated⟩ : ∃ numbers,
        node.children.mapM (formula.arena.numberAt formula.ordered row) = .ok numbers ∧
          node.children.mapM (formula.arena.valueAt formula.ordered row index) =
            .ok (numbers.map Value.ofNumber) := by
      refine mapM_linked fun child member => ?_
      have path := reached.child found member
      obtain ⟨childNode, childFound⟩ := path.found formula.ordered formula.rooted
      exact ih child (formula.ordered id node found child member) path childFound
    obtain ⟨sorts, values, computed, accepts⟩ := children_sound sorted bound reached found
    rw [evaluated] at computed
    cases computed
    obtain ⟨number, known, valued⟩ := Node.number_value index (polynomial id node reached found)
      accepts (bound id node · reached found)
    exact ⟨number, Arena.numberAt_found found calculated known,
      valueAt_of_value sorted bound reached found evaluated valued⟩

/-- A power of machine integers is wrapped once. -/
theorem evaluate_power {base exponent : NodeId} {sort : TermSort} {type : NativeType}
    {baseInside : base < formula.arena.size} {exponentInside : exponent < formula.arena.size}
    {a b : Int64}
    (found : formula.arena.node? formula.root = some ⟨.pow, [base, exponent], sort⟩)
    (native : sort.native = .ok type)
    (first : (formula.subformula base baseInside).evaluate row = .ok (.int a))
    (second : (formula.subformula exponent exponentInside).evaluate row = .ok (.int b))
    (positive : 0 ≤ b.toInt) (small : b.toInt < 2 ^ 32) :
    formula.evaluate row = .ok (.ofNumber (a.toInt ^ b.toInt.toNat)) := by
  have firstValue : formula.arena.valueAt formula.ordered row 0 base = .ok (.int a) :=
    (evaluateAt_eq _ row 0).symm.trans first
  have secondValue : formula.arena.valueAt formula.ordered row 0 exponent = .ok (.int b) :=
    (evaluateAt_eq _ row 0).symm.trans second
  have recursion : formula.evaluate row = _ := formula.evaluateAt_eq row 0
  rw [recursion, Arena.valueAt_found found, Node.enters rfl, Value.ofNumber,
    ← Word.power_ofInt a b positive small]
  simp only [List.mapM_cons, List.mapM_nil, firstValue, secondValue, Node.typedValue, native]
  rfl

end Formula

/-- A well-sorted polynomial of integers evaluates, under every row that binds its symbols, to
the one word congruent to its number without bounds. A power of two values, with an exponent
below two to the 32, is the one word congruent to the power without bounds. -/
theorem integers_exact_modulo (formula : Formula) (row : Row) :
    (formula.WellSorted → formula.Polynomial → formula.BoundBy row →
      ∃ number word, formula.number row = .ok number ∧
        formula.evaluate row = .ok (.int word) ∧
        ∀ other : Int64, other.toInt ≡ number [ZMOD 2 ^ 64] ↔ other = word) ∧
    ∀ (base exponent : NodeId) (baseInside : base < formula.arena.size)
      (exponentInside : exponent < formula.arena.size) (sort : TermSort) (type : NativeType)
      (a b : Int64),
      formula.arena.node? formula.root = some ⟨.pow, [base, exponent], sort⟩ →
      sort.native = .ok type →
      (formula.subformula base baseInside).evaluate row = .ok (.int a) →
      (formula.subformula exponent exponentInside).evaluate row = .ok (.int b) →
      0 ≤ b.toInt → b.toInt < 2 ^ 32 →
      ∃ word, formula.evaluate row = .ok (.int word) ∧
        ∀ other : Int64, other.toInt ≡ a.toInt ^ b.toInt.toNat [ZMOD 2 ^ 64] ↔ other = word := by
  constructor
  · intro sorted polynomial bound
    obtain ⟨root, found⟩ := Arena.Reaches.root.found formula.ordered formula.rooted
    obtain ⟨number, known, valued⟩ :=
      Formula.numberAt_sound sorted polynomial bound .root found
    exact ⟨number, .ofInt number, known, (formula.evaluateAt_eq row 0).trans valued,
      (Word.modEq_iff · number)⟩
  · intro base exponent baseInside exponentInside sort type a b found native first second
      positive small
    exact ⟨_, Formula.evaluate_power found native first second positive small,
      (Word.modEq_iff · _)⟩

/-- The opposite of a cube, less its root and the cube again. -/
def cubeTwice : Formula where
  arena := .ofNodes #[⟨.symbol "x", [], .int⟩, ⟨.times, [0, 0, 0], .int⟩, ⟨.minus, [1], .int⟩,
    ⟨.minus, [2, 0, 1], .int⟩]
  root := 3
  ordered := by decide
  rooted := by decide

theorem cubeTwice_wellSorted : cubeTwice.WellSorted := by
  intro id node _ found
  have member := Arena.mem_nodes found
  simp only [cubeTwice, Arena.ofNodes, List.mem_cons, List.not_mem_nil, or_false] at member
  rcases member with rfl | rfl | rfl | rfl
  · exact ⟨⟨[], _, rfl, .symbol "x" .int⟩, fun absent => (by cases absent), trivial⟩
  · exact ⟨⟨[.int, .int, .int], _, rfl, .arithmetic (by simp) (.inl rfl) 2⟩, fun _ => rfl, trivial⟩
  · exact ⟨⟨[.int], _, rfl, .arithmetic (by simp) (.inl rfl) 0⟩, fun _ => rfl, trivial⟩
  · exact ⟨⟨[.int, .int, .int], _, rfl, .arithmetic (by simp) (.inl rfl) 2⟩, fun _ => rfl, trivial⟩

theorem cubeTwice_polynomial : cubeTwice.Polynomial := by
  intro id node _ found
  have member := Arena.mem_nodes found
  simp only [cubeTwice, Arena.ofNodes, List.mem_cons, List.not_mem_nil, or_false] at member
  rcases member with rfl | rfl | rfl | rfl <;> simp [Node.Polynomial]

def symbolPower : Formula where
  arena := .ofNodes #[⟨.symbol "x", [], .int⟩, ⟨.symbol "n", [], .int⟩, ⟨.pow, [0, 1], .int⟩]
  root := 2
  ordered := by decide
  rooted := by decide

/-- Neither the cube nor the power fits a word. -/
theorem integers_exact_modulo_cubeTwice :
    let row := Row.empty.insert "x" (.int 5000000000)
    let powers := (Row.empty.insert "x" (.int 3)).insert "n" (.int 41)
    cubeTwice.WellSorted ∧ cubeTwice.Polynomial ∧ cubeTwice.BoundBy row ∧
      cubeTwice.number row = .ok (-250000000000000000005000000000) ∧
      cubeTwice.evaluate row = .ok (.int (-1269236072576315904)) ∧
      (symbolPower.subformula 0 (by decide)).evaluate powers = .ok (.int 3) ∧
      (symbolPower.subformula 1 (by decide)).evaluate powers = .ok (.int 41) ∧
      symbolPower.evaluate powers = .ok (.int (-420491770248316829)) := by
  intro row powers
  have bound : cubeTwice.BoundBy row := by
    intro id node name _ found named
    have member := Arena.mem_nodes found
    simp only [cubeTwice, Arena.ofNodes, List.mem_cons, List.not_mem_nil, or_false] at member
    rcases member with rfl | rfl | rfl | rfl
    · cases named
      exact ⟨.int 5000000000, rfl, rfl⟩
    all_goals cases named
  have exactly : cubeTwice.number row = .ok (-250000000000000000005000000000) :=
    eq_ok_of_toOption (by decide +kernel)
  have base : (symbolPower.subformula 0 (by decide)).evaluate powers = .ok (.int 3) :=
    (Formula.evaluateAt_eq _ powers 0).trans (eq_ok_of_toOption (by decide +kernel))
  have exponent : (symbolPower.subformula 1 (by decide)).evaluate powers = .ok (.int 41) :=
    (Formula.evaluateAt_eq _ powers 0).trans (eq_ok_of_toOption (by decide +kernel))
  obtain ⟨number, word, known, evaluated, unique⟩ := (integers_exact_modulo cubeTwice row).1
    cubeTwice_wellSorted cubeTwice_polynomial bound
  rw [exactly] at known
  cases known
  obtain rfl := (unique (-1269236072576315904)).mp (by decide)
  obtain ⟨power, raised, uniquePower⟩ := (integers_exact_modulo symbolPower powers).2 0 1
    (by decide) (by decide) .int .int 3 41 rfl rfl base exponent (by decide) (by decide)
  obtain rfl := (uniquePower (-420491770248316829)).mp (by decide)
  exact ⟨cubeTwice_wellSorted, cubeTwice_polynomial, bound, exactly, evaluated, base, exponent,
    raised⟩

end Formulary
