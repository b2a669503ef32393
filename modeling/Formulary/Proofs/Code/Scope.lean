import Formulary.Proofs.Code.Machine
import Mathlib.Data.List.Basic

namespace Formulary.Code

theorem toDigits_injective {m n : Nat} (same : Nat.toDigits 10 m = Nat.toDigits 10 n) :
    m = n := by
  have read := congrArg (Nat.ofDigitChars 10 · 0) same
  simpa using read

namespace Temporary

theorem name_injective {left right : Temporary} (same : left.name = right.name) :
    left = right := by
  obtain ⟨leftType, leftNumber⟩ := left
  obtain ⟨rightType, rightNumber⟩ := right
  have letters := congrArg String.toList same
  cases leftType <;> cases rightType <;>
    simp [name, NativeType.temporaryStem] at letters ⊢
  · exact toDigits_injective letters
  · exact toDigits_injective letters
  · exact toDigits_injective letters
  · -- An underscore ends the width, and no digit is one.
    rw [List.append_cons_inj_of_notMem Nat.underscore_not_in_toDigits
      Nat.underscore_not_in_toDigits] at letters
    exact ⟨toDigits_injective letters.1, toDigits_injective letters.2.2⟩

theorem name_ne_identifierOf (temporary : Temporary) (name : String) :
    temporary.name ≠ identifierOf name := by
  intro same
  have letters := congrArg String.toList same
  cases type : temporary.type <;>
    simp [Temporary.name, type, NativeType.temporaryStem, identifierOf] at letters

end Temporary

namespace Environment

theorem Extends.cons {before after : Environment} (extended : before.Extends after)
    (name : String) (value : Value) :
    Extends ((name, value) :: before) ((name, value) :: after) := by
  intro found held known
  rw [List.lookup_cons] at known ⊢
  split at known
  · exact known
  · exact extended found held known

/-- A name that is new hides nothing. -/
theorem extends_cons {environment : Environment} {name : String}
    (fresh : environment.lookup name = none) (value : Value) :
    environment.Extends ((name, value) :: environment) := by
  intro found held known
  rw [List.lookup_cons]
  split
  · rename_i same
    rw [beq_iff_eq.mp same, fresh] at known
    cases known
  · exact known

/-- What comes last is hidden by all else. -/
theorem extends_append (environment more : Environment) :
    environment.Extends (environment ++ more) := by
  intro name value known
  rw [List.lookup_append, known]
  rfl

end Environment

theorem executeAll_cons (statement : Statement) (rest : List Statement)
    (environment : Environment) :
    executeAll (statement :: rest) environment =
      (statement.execute environment).bind (executeAll rest) :=
  List.foldlM_cons

theorem executeAll_append (first second : List Statement) (environment : Environment) :
    executeAll (first ++ second) environment =
      (executeAll first environment).bind (executeAll second) :=
  List.foldlM_append

theorem Statement.execute_ok {statement : Statement} {before after : Environment}
    (executed : statement.execute before = some after) :
    ∃ value, statement.value.value before = some value ∧
      value.native = statement.target.type ∧
      after = (statement.target.name, value) :: before := by
  obtain ⟨value, computed, declared⟩ := Option.bind_eq_some_iff.mp executed
  split at declared
  · rename_i typed
    exact ⟨value, computed, typed, (Option.some.inj declared).symm⟩
  · cases declared

theorem executeAll_extends {statements : List Statement} {before after done : Environment}
    (extended : before.Extends after) (executed : executeAll statements before = some done) :
    ∃ more, executeAll statements after = some more ∧ done.Extends more := by
  induction statements generalizing before after with
  | nil =>
    cases executed
    exact ⟨after, rfl, extended⟩
  | cons statement rest ih =>
    rw [executeAll_cons] at executed
    obtain ⟨middle, first, others⟩ := Option.bind_eq_some_iff.mp executed
    obtain ⟨value, computed, typed, rfl⟩ := statement.execute_ok first
    obtain ⟨more, remaining, kept⟩ := ih (extended.cons statement.target.name value) others
    refine ⟨more, ?_, kept⟩
    have again := Expression.value_extends extended statement.value value computed
    simp [executeAll_cons, Statement.execute, again, typed, remaining]

/-- Declarations leave every other name as it is. -/
theorem executeAll_lookup {statements : List Statement} {before done : Environment}
    (executed : executeAll statements before = some done) {name : String}
    (other : ∀ statement ∈ statements, statement.target.name ≠ name) :
    done.lookup name = before.lookup name := by
  induction statements generalizing before with
  | nil =>
    cases executed
    rfl
  | cons statement rest ih =>
    rw [executeAll_cons] at executed
    obtain ⟨middle, first, others⟩ := Option.bind_eq_some_iff.mp executed
    obtain ⟨value, computed, typed, rfl⟩ := statement.execute_ok first
    have different : (name == statement.target.name) = false :=
      beq_eq_false_iff_ne.mpr (other statement List.mem_cons_self).symm
    rw [ih others fun later member => other later (List.mem_cons_of_mem _ member),
      List.lookup_cons, different]

end Formulary.Code
