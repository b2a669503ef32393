import Formulary.Proofs.Ratio
import Formulary.Proofs.Row
import Formulary.Sampling.Random

/-! Drawn rows. Whatever words a stream holds, an integer between two bounds stays between them:
the scaled word is below the size of the range, a carry can only come where there is room for it,
and adding the lower bound does not wrap around. So every drawn row can be encoded. -/
namespace Formulary.Sampling

/-- A property of what is drawn, from whichever place of whichever stream. -/
def Gives {α : Type} (draw : Draw α) (Right : α → Prop) : Prop :=
  ∀ stream, Right (draw stream).1

namespace Gives

variable {α β : Type} {Right : α → Prop} {Next : β → Prop}

theorem any (draw : Draw α) : Gives draw fun _ => True := fun _ => trivial

theorem pure {value : α} (right : Right value) : Gives (pure value) Right := fun _ => right

theorem bind {draw : Draw α} {next : α → Draw β} (first : Gives draw Right)
    (second : ∀ value, Right value → Gives (next value) Next) : Gives (draw >>= next) Next :=
  fun stream => second _ (first stream) _

end Gives

section Bounds

variable {word span : Nat}

theorem scaled_lt (small : word < Word.size) (positive : 0 < span) :
    word * span / Word.size < span :=
  Nat.div_lt_of_lt_mul (Nat.mul_lt_mul_of_pos_right small positive)

/-- Where the part that is cut off is so large, the scaled word is not the last of the range. -/
theorem scaled_succ_lt (small : word < Word.size)
    (high : Word.size - span < word * span % Word.size) : word * span / Word.size + 1 < span := by
  by_contra full
  have product := Nat.div_add_mod (word * span) Word.size
  -- the product falls short of the whole range by a span at least, so in the last place of the
  -- range there is no such remainder
  have last : Word.size * span ≤ Word.size * (word * span / Word.size + 1) :=
    Nat.mul_le_mul_left _ (Nat.not_lt.mp full)
  have bounded : (word + 1) * span ≤ Word.size * span := Nat.mul_le_mul_right _ small
  rw [Nat.mul_succ] at last
  rw [Nat.succ_mul] at bounded
  omega

end Bounds

variable {least greatest : Int64}

/-- The size of a range as a word: it is exact but for the range of all integers, whose size is
one too large for a word. -/
theorem span_cases (ordered : least ≤ greatest) :
    ((greatest - least + 1).toUInt64 = 0 ∧ least.toInt = -2 ^ 63 ∧ greatest.toInt = 2 ^ 63 - 1) ∨
      (0 < (greatest - least + 1).toUInt64.toNat ∧
        ((greatest - least + 1).toUInt64.toNat : Int) = greatest.toInt - least.toInt + 1) := by
  have exact : greatest - least + 1 = Int64.ofInt (greatest.toInt - least.toInt + 1) := by
    simp [Int64.ofInt_add, Int64.ofInt_sub]
  have wrapped : (greatest - least + 1).toUInt64.toNat =
      ((greatest.toInt - least.toInt + 1) % (2 ^ 64 : Nat)).toNat := by
    rw [exact]
    exact BitVec.toNat_ofInt _
  have order := Int64.le_iff_toInt_le.mp ordered
  have low := least.le_toInt
  have high := greatest.toInt_lt
  by_cases zero : (greatest - least + 1).toUInt64 = 0
  · rw [zero, UInt64.toNat_zero] at wrapped
    exact .inl ⟨zero, by omega⟩
  · have positive : (greatest - least + 1).toUInt64.toNat ≠ 0 := fun none =>
      zero (UInt64.toNat_inj.mp none)
    exact .inr (by omega)

/-- An offset that stays inside the range does not make the sum wrap around. -/
theorem toInt_add_offset {offset : Nat} (inside : least.toInt + offset ≤ greatest.toInt) :
    (least + (UInt64.ofNat offset).toInt64).toInt = least.toInt + offset := by
  have low := least.le_toInt
  have high := greatest.toInt_lt
  have exact : least + (UInt64.ofNat offset).toInt64 = Int64.ofInt (least.toInt + offset) := by
    rw [Int64.ofInt_add, Int64.ofInt_toInt, UInt64.toInt64_ofNat', Int64.ofInt_eq_ofNat]
  rw [exact, Int64.toInt_ofInt_of_le (by omega) (by omega)]

/-- Integers between two bounds are drawn from between them. -/
theorem between_gives (ordered : least ≤ greatest) :
    Gives (between least greatest) fun value => least ≤ value ∧ value ≤ greatest := by
  have spans := span_cases ordered
  rw [between]
  generalize (greatest - least + 1).toUInt64 = span at spans ⊢
  simp only [Int64.le_iff_toInt_le]
  refine .bind (.any draw64) fun word _ => ?_
  rcases spans with ⟨zero, lowest, highest⟩ | ⟨positive, exact⟩
  · rw [if_pos zero]
    have above := word.toInt64.le_toInt
    have below := word.toInt64.toInt_lt
    exact .pure (by omega)
  · have nonzero : span ≠ 0 := fun zero => positive.ne' (congrArg UInt64.toNat zero)
    have small : word.toNat < Word.size := word.toNat_lt
    have scaled := scaled_lt small positive
    -- whichever way an offset is found, it is enough that it is below the span
    have placed : ∀ offset, offset < span.toNat →
        Gives (pure (least + (UInt64.ofNat offset).toInt64)) fun value =>
          least.toInt ≤ value.toInt ∧ value.toInt ≤ greatest.toInt := by
      intro offset inside
      have sum : (least + (UInt64.ofNat offset).toInt64).toInt = least.toInt + offset :=
        toInt_add_offset (by omega : least.toInt + offset ≤ greatest.toInt)
      exact .pure (by omega)
    rw [if_neg nonzero]
    split
    · rename_i room
      refine .bind (.any draw64) fun more _ => .bind (.pure ?_) placed
      split
      · exact scaled_succ_lt small room
      · exact scaled
    · exact .bind (.pure scaled) placed

/-- What may be drawn for a column of a type: any truth value, an integer in the range, a quotient
of one by a denominator that is not too large, in lowest terms, and any vector of the width. -/
inductive RandomConfig.Drawn (config : RandomConfig) : NativeType → Literal → Prop where
  | bool (value : Bool) : Drawn config .bool (.bool value)
  | int {value : Int64} (above : config.least ≤ value) (below : value ≤ config.greatest) :
      Drawn config .int (.int value)
  | real {q : Ratio} {numerator denominator : Int}
      (above : config.least.toInt ≤ numerator) (below : numerator ≤ config.greatest.toInt)
      (atLeast : 1 ≤ denominator) (atMost : denominator ≤ max 1 config.maxDenominator.toInt)
      (equal : q.number = numerator / denominator)
      (positive : 0 < q.denominator.toInt)
      (lowest : Int.gcd q.numerator.toInt q.denominator.toInt = 1) : Drawn config .real (.real q)
  | bitVec {bits : UInt64} {width : Nat} (fits : bits.toNat < 2 ^ width) :
      Drawn config (.bitVec width) (.bitVec bits width)

variable {config : RandomConfig}

theorem RandomConfig.Drawn.native {type : NativeType} {literal : Literal}
    (drawn : config.Drawn type literal) (narrow : type.Narrow) :
    literal.sort.native = .ok type := by
  cases drawn with
  | bool | int | real => rfl
  | bitVec => exact if_pos narrow

/-- The largest denominator is raised to one. -/
theorem toInt_max_one (limit : Int64) : (max limit 1).toInt = max 1 limit.toInt := by
  change (if limit ≤ 1 then 1 else limit).toInt = _
  split
  · rename_i small
    exact (Int.max_eq_left (Int64.le_iff_toInt_le.mp small)).symm
  · rename_i large
    rw [Int64.le_iff_toInt_le] at large
    exact (Int.max_eq_right (Int.le_of_lt (Int.not_le.mp large))).symm

theorem literal_gives (ordered : config.least ≤ config.greatest) {type : NativeType}
    (narrow : type.Narrow) : Gives (literal config type) (config.Drawn type) := by
  cases type with
  | bool => exact .bind (.any draw32) fun word _ => .pure (.bool _)
  | int => exact .bind (between_gives ordered) fun value ⟨above, below⟩ => .pure (.int above below)
  | real =>
    have limits : (1 : Int64) ≤ max config.maxDenominator 1 := by
      rw [Int64.le_iff_toInt_le, toInt_max_one]
      exact le_max_left _ _
    refine .bind (between_gives limits) fun denominator inside => ?_
    refine .bind (between_gives ordered) fun numerator between => .pure ?_
    simp only [Int64.le_iff_toInt_le, toInt_max_one] at inside between
    have atLeast : 1 ≤ denominator.toInt := inside.1
    obtain ⟨q, quotient, equal, positive, lowest⟩ := Ratio.lowest?_of_pos numerator atLeast
    rw [quotient, Option.getD_some]
    exact .real between.1 between.2 atLeast inside.2 equal positive lowest
  | bitVec width =>
    refine .bind (.any draw64) fun word _ => .pure (.bitVec ?_)
    rw [toNat_and_lowBits word narrow.2]
    exact Nat.mod_lt _ (Nat.two_pow_pos width)

theorem bindings_gives (ordered : config.least ≤ config.greatest) {columns : List Column}
    (narrow : ∀ column ∈ columns, column.type.Narrow) :
    Gives (bindings config columns) (List.Forall₂ (fun column binding =>
      binding.1 = column.name ∧ config.Drawn column.type binding.2) columns) := by
  induction columns with
  | nil => exact .pure .nil
  | cons column rest ih =>
    obtain ⟨here, others⟩ := List.forall_mem_cons.mp narrow
    refine .bind (literal_gives ordered here) fun value drawn => ?_
    exact .bind (ih others) fun more related => .pure (.cons ⟨rfl, drawn⟩ related)

theorem rows_gives (ordered : config.least ≤ config.greatest) {columns : List Column}
    (distinct : (columns.map (·.name)).Nodup) (narrow : ∀ column ∈ columns, column.type.Narrow)
    (count : Nat) :
    Gives (rows config columns count) fun rows =>
      rows.length = count ∧ ∀ row ∈ rows, row.Fills columns config.Drawn := by
  induction count with
  | zero => exact .pure ⟨rfl, by simp⟩
  | succ count ih =>
    refine .bind (bindings_gives ordered narrow) fun bindings related => ?_
    refine .bind ih fun more ⟨length, filled⟩ => .pure ⟨congrArg (· + 1) length, ?_⟩
    exact List.forall_mem_cons.mpr ⟨Row.fills_ofList distinct related, filled⟩

/-- Drawn rows can be used: there are as many as were asked for, each binds the names of the columns
and no others, each literal is in the range of its type, and every row has cells for the columns. -/
theorem random_rows_usable (config : RandomConfig) (columns : List Column) (key : Key)
    (ordered : config.least ≤ config.greatest) (distinct : (columns.map (·.name)).Nodup)
    (narrow : ∀ column ∈ columns, column.type.Narrow) :
    (randomRows config columns key).length = config.count ∧
      ∀ row ∈ randomRows config columns key, row.Fills columns config.Drawn ∧
        ∀ index, ∃ cells, row.cells index ⟨columns⟩ = .ok cells := by
  obtain ⟨length, filled⟩ := rows_gives ordered distinct narrow config.count ⟨key, 0⟩
  refine ⟨length, fun row drawn => ⟨filled row drawn, ?_⟩⟩
  exact (filled row drawn).cells fun column listed literal right =>
    right.native (narrow column listed)

/-- A column of each type, the last one as wide as a word. -/
def mixedColumns : List Column :=
  [⟨"p", "v_p", .bool⟩, ⟨"n", "v_n", .int⟩, ⟨"x", "v_x", .real⟩, ⟨"v", "v_v", .bitVec 64⟩]

/-- Two rows of integers from the whole range, where no denominator but one is allowed. -/
theorem random_rows_usable_mixedColumns :
    let config : RandomConfig := ⟨2, Int64.minValue, Int64.maxValue, -5⟩
    config.least ≤ config.greatest ∧ (mixedColumns.map (·.name)).Nodup ∧
      (∀ column ∈ mixedColumns, column.type.Narrow) ∧
      (randomRows config mixedColumns (.ofSeed 7)).length = 2 ∧
      ∀ row ∈ randomRows config mixedColumns (.ofSeed 7), row.Fills mixedColumns config.Drawn ∧
        ∀ index, ∃ cells, row.cells index ⟨mixedColumns⟩ = .ok cells := by
  intro config
  have ordered : config.least ≤ config.greatest := by decide
  have distinct : (mixedColumns.map (·.name)).Nodup := by decide
  have narrow : ∀ column ∈ mixedColumns, column.type.Narrow := by decide
  exact ⟨ordered, distinct, narrow,
    random_rows_usable config mixedColumns (.ofSeed 7) ordered distinct narrow⟩

end Formulary.Sampling
