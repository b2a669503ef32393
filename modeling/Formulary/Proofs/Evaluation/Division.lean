import Formulary.Proofs.Code.Words
import Formulary.Proofs.Evaluation.Arithmetic

namespace Formulary

namespace Word

/-- What is left of a number, once a divisor has been taken from it that many times, is not
negative and below the divisor. -/
def IsQuotient (number divisor : Int64) (quotient : Int) : Prop :=
  ∃ remainder : Int, number.toInt = divisor.toInt * quotient + remainder ∧
    0 ≤ remainder ∧ remainder < |divisor.toInt|

variable {number divisor : Int64}

theorem toInt_ne_zero (nonzero : divisor ≠ 0) : divisor.toInt ≠ 0 :=
  fun zero => nonzero (Int64.toInt_inj.mp zero)

/-- There is one such number, which rounds down for a positive divisor and up for a negative. -/
theorem isQuotient_iff (nonzero : divisor ≠ 0) (quotient : Int) :
    IsQuotient number divisor quotient ↔ quotient = number.toInt / divisor.toInt := by
  have different := toInt_ne_zero nonzero
  constructor
  · rintro ⟨remainder, split, positive, small⟩
    rw [split, add_comm, Int.add_mul_ediv_left _ _ different,
      Int.ediv_eq_zero_of_lt_abs positive small, zero_add]
  · rintro rfl
    exact ⟨number.toInt % divisor.toInt, (Int.mul_ediv_add_emod _ _).symm,
      Int.emod_nonneg _ different, Int.emod_lt_abs _ different⟩

theorem divEuclid_zero (number : Int64) : divEuclid number 0 = 0 := if_pos (.inl rfl)

theorem divEuclid_least : divEuclid Int64.minValue (-1) = 0 := if_pos (.inr ⟨rfl, rfl⟩)

/-- But for one pair of words the quotient is a word. -/
theorem toInt_divEuclid (nonzero : divisor ≠ 0)
    (inRange : ¬(number = Int64.minValue ∧ divisor = -1)) :
    (divEuclid number divisor).toInt = number.toInt / divisor.toInt := by
  have exceptional : ¬(divisor = 0 ∨ number = Int64.minValue ∧ divisor = -1) := by
    rintro (zero | least)
    · exact nonzero zero
    · exact inRange least
  obtain ⟨low, high⟩ := Code.Machine.quotient_inRange nonzero inRange
  rw [divEuclid, if_neg exceptional]
  exact Int64.toInt_ofInt_of_le low (Int.lt_add_one_of_le high)

end Word

namespace Formula

variable {formula : Formula} {row : Row}

/-- A node of integers that is a quotient has the quotients of its operands, taken from the
left. -/
theorem evaluate_division {id : NodeId} {inside : id < formula.arena.size}
    {children : List NodeId} {sort : TermSort} {type : NativeType} {first : Int64}
    {rest : List Int64} (found : formula.arena.node? id = some ⟨.div, children, sort⟩)
    (native : sort.native = .ok type)
    (operands : List.Forall₂ (fun child word => ∃ within,
      (formula.subformula child within).evaluate row = .ok (.int word)) children (first :: rest)) :
    (formula.subformula id inside).evaluate row =
      .ok (.int (rest.foldl Word.divEuclid first)) := by
  have values : children.mapM (formula.arena.valueAt formula.ordered row 0) =
      .ok ((first :: rest).map .int) := by
    refine mapM_ok.mpr (List.forall₂_map_right_iff.mpr (operands.imp ?_))
    rintro child word ⟨within, evaluated⟩
    exact (evaluateAt_eq (formula.subformula child within) row 0).symm.trans evaluated
  have recursion : (formula.subformula id inside).evaluate row =
      formula.arena.valueAt formula.ordered row 0 id := evaluateAt_eq _ row 0
  rw [recursion, Arena.valueAt_found found, Node.enters rfl, values]
  change Node.typedValue ⟨.div, children, sort⟩ row 0 _ = _
  rw [Node.typedValue, native]
  exact Application.arithmetic_ints .div Word.divEuclid _ first rest

end Formula

/-- A quotient of integers evaluates to what a step gives, from the left. By zero the step gives
zero. By any other integer it gives the one word that is congruent to the Euclidean quotient, and
no wrapping is needed for that; but the least integer by minus one gives zero as well. -/
theorem division_euclidean (formula : Formula) (row : Row) (id : NodeId)
    (inside : id < formula.arena.size) (children : List NodeId) (sort : TermSort)
    (type : NativeType) (first : Int64) (rest : List Int64)
    (found : formula.arena.node? id = some ⟨.div, children, sort⟩)
    (native : sort.native = .ok type)
    (operands : List.Forall₂ (fun child word => ∃ within,
      (formula.subformula child within).evaluate row = .ok (.int word)) children (first :: rest)) :
    ∃ step : Int64 → Int64 → Int64,
      (formula.subformula id inside).evaluate row = .ok (.int (rest.foldl step first)) ∧
      (∀ number, step number 0 = 0) ∧ step Int64.minValue (-1) = 0 ∧
      ∀ number divisor, divisor ≠ 0 → ¬(number = Int64.minValue ∧ divisor = -1) →
        ∃ quotient, Word.IsQuotient number divisor quotient ∧
          (step number divisor).toInt = quotient ∧
          ∀ word : Int64, word.toInt ≡ quotient [ZMOD 2 ^ 64] ↔ word = step number divisor := by
  refine ⟨Word.divEuclid, Formula.evaluate_division found native operands, Word.divEuclid_zero,
    Word.divEuclid_least, fun number divisor nonzero inRange => ?_⟩
  have fits := Word.toInt_divEuclid nonzero inRange
  refine ⟨_, (Word.isQuotient_iff nonzero _).mpr rfl, fits, fun word => ?_⟩
  rw [Word.modEq_iff, ← fits, Int64.ofInt_toInt]

/-- A number, divided by a second and then by a third. -/
def dividedTwice : Formula where
  arena := .ofNodes #[⟨.symbol "x", [], .int⟩, ⟨.symbol "y", [], .int⟩, ⟨.symbol "z", [], .int⟩,
    ⟨.div, [0, 1, 2], .int⟩]
  root := 3
  ordered := by decide
  rooted := by decide

/-- Minus seven by two leaves one and gives minus four; minus four by minus three leaves two and
gives two. -/
theorem division_euclidean_dividedTwice :
    let row := ((Row.empty.insert "x" (.int (-7))).insert "y" (.int 2)).insert "z" (.int (-3))
    List.Forall₂ (fun child word => ∃ within,
        (dividedTwice.subformula child within).evaluate row = .ok (.int word)) [0, 1, 2]
          [-7, 2, -3] ∧
      Word.IsQuotient (-7) 2 (-4) ∧ Word.IsQuotient (-4) (-3) 2 ∧
      (dividedTwice.subformula 3 (by decide)).evaluate row = .ok (.int 2) := by
  intro row
  have leaf (child : NodeId) {word : Int64} (within : child < dividedTwice.arena.size)
      (valued : (dividedTwice.arena.valueAt dividedTwice.ordered row 0 child).toOption =
        some (.int word)) :
      ∃ within, (dividedTwice.subformula child within).evaluate row = .ok (.int word) :=
    ⟨within, (Formula.evaluateAt_eq _ row 0).trans (eq_ok_of_toOption valued)⟩
  have operands : List.Forall₂ (fun child word => ∃ within,
      (dividedTwice.subformula child within).evaluate row = .ok (.int word)) [0, 1, 2]
        [-7, 2, -3] :=
    .cons (leaf 0 (by decide) (by decide +kernel)) (.cons (leaf 1 (by decide) (by decide +kernel))
      (.cons (leaf 2 (by decide) (by decide +kernel)) .nil))
  have first : Word.IsQuotient (-7) 2 (-4) := ⟨1, by decide⟩
  have second : Word.IsQuotient (-4) (-3) 2 := ⟨2, by decide⟩
  obtain ⟨step, evaluated, _, _, every⟩ := division_euclidean dividedTwice row 3 (by decide)
    [0, 1, 2] .int .int (-7) [2, -3] rfl rfl operands
  obtain ⟨quotient, isQuotient, same, _⟩ := every (-7) 2 (by decide) (by decide)
  have once : step (-7) 2 = -4 := by
    rw [← Int64.toInt_inj, same, (Word.isQuotient_iff (by decide) _).mp isQuotient]
    rfl
  obtain ⟨other, isOther, again, _⟩ := every (-4) (-3) (by decide) (by decide)
  have twice : step (-4) (-3) = 2 := by
    rw [← Int64.toInt_inj, again, (Word.isQuotient_iff (by decide) _).mp isOther]
    rfl
  rw [List.foldl_cons, List.foldl_cons, List.foldl_nil, once, twice] at evaluated
  exact ⟨operands, first, second, evaluated⟩

def dividedOnce : Formula where
  arena := .ofNodes #[⟨.symbol "x", [], .int⟩, ⟨.symbol "y", [], .int⟩, ⟨.div, [0, 1], .int⟩]
  root := 2
  ordered := by decide
  rooted := by decide

/-- The least integer by minus one gives zero, which is not congruent to the quotient. -/
theorem least_quotient_lost :
    let row := (Row.empty.insert "x" (.int Int64.minValue)).insert "y" (.int (-1))
    dividedOnce.evaluate row = .ok (.int 0) ∧
      ¬ ∃ quotient, Word.IsQuotient Int64.minValue (-1) quotient ∧
        (0 : Int64).toInt ≡ quotient [ZMOD 2 ^ 64] := by
  refine ⟨(Formula.evaluateAt_eq _ _ 0).trans (eq_ok_of_toOption (by decide +kernel)), ?_⟩
  rintro ⟨quotient, isQuotient, congruent⟩
  rw [(Word.isQuotient_iff (by decide) _).mp isQuotient] at congruent
  exact absurd congruent (by decide)

end Formulary
