import Formulary.Proofs.Sampling.Coverage

/-! Rows of boundary values that stand twice. Rows of pairs are added only if they are new, but the
rows of the slots are not compared, and of equal values only neighbours are dropped: a vector of one
or two bits keeps a value twice. So rows are repeated exactly where every other column happens to
come round to its old value as well. -/
namespace Formulary.Sampling

section Additions

variable {start rows : List Row} {added : Row}

theorem addRow_apart (apart : start.Pairwise fun left right => left.same right = false) :
    (addRow start added).Pairwise fun left right => left.same right = false := by
  rw [addRow]
  split
  · exact apart
  · rename_i new
    refine List.pairwise_append.mpr ⟨apart, List.pairwise_singleton _ _, ?_⟩
    intro old there _ last
    rw [List.mem_singleton.mp last, Bool.eq_false_iff]
    exact fun same => new (List.any_eq_true.mpr ⟨old, there, same⟩)

theorem foldl_addRow_apart (apart : start.Pairwise fun left right => left.same right = false) :
    (rows.foldl addRow start).Pairwise fun left right => left.same right = false := by
  induction rows generalizing start with
  | nil => exact apart
  | cons added rest ih => exact ih (addRow_apart apart)

end Additions

def Alike (columns : List Column) (one other : Nat) : Prop :=
  ∀ column ∈ columns, edgeAt column.type one = edgeAt column.type other

theorem Alike.slotRow_eq {columns : List Column} {one other : Nat}
    (alike : Alike columns one other) : slotRow columns one = slotRow columns other :=
  congrArg Row.ofList (List.filterMap_congr fun column listed =>
    congrArg (Option.map (column.name, ·)) (alike column listed))

section Rows

variable {columns : List Column} (distinct : (columns.map (·.name)).Nodup)
  (narrow : ∀ column ∈ columns, column.type.Narrow)
include distinct narrow

theorem slotRow_same_iff {one other : Nat} :
    (slotRow columns one).same (slotRow columns other) = true ↔ Alike columns one other := by
  constructor
  · intro same column listed
    have equal := edges_eq_of_same narrow (slotRow_fills_edges distinct narrow one)
      (slotRow_fills_edges distinct narrow other) same
    rw [← get?_slotRow distinct narrow one listed, equal, get?_slotRow distinct narrow other listed]
  · intro alike
    rw [alike.slotRow_eq]
    exact Row.same_refl _

theorem edgeRows_apart_iff :
    (edgeRows columns).Pairwise (fun left right => left.same right = false) ↔
      ∀ one other, one < other → other < slotCount columns → ¬ Alike columns one other := by
  have slots : ((List.range (slotCount columns)).map (slotRow columns)).Pairwise
      (fun left right => left.same right = false) ↔
        ∀ one other, one < other → other < slotCount columns → ¬ Alike columns one other := by
    simp only [← slotRow_same_iff distinct narrow, Bool.not_eq_true]
    rw [List.pairwise_map, List.pairwise_iff_getElem]
    simp only [List.length_range, List.getElem_range]
    constructor
    · intro apart one other less inside
      exact apart one other (by omega) inside less
    · intro apart one other _ inside less
      exact apart one other less inside
  rw [← slots]
  constructor
  · exact fun apart => apart.sublist (prefix_foldl_addRow _ _).sublist
  · exact foldl_addRow_apart

end Rows

theorem dropRepeats_of_nodup {α : Type} [DecidableEq α] {list : List α} (distinct : list.Nodup) :
    dropRepeats list = list := by
  fun_induction dropRepeats list with
  | case1 first rest ih => simp at distinct
  | case2 first second rest different ih => rw [ih (List.nodup_cons.mp distinct).2]
  | case3 short notLong => rfl

/-- The boundary values of a vector of three bits or more differ. -/
theorem vectorBits_nodup {width : Nat} (wide : 3 ≤ width) (narrow : width ≤ 64) :
    (vectorBits width).Nodup := by
  refine List.Nodup.of_map UInt64.toNat ?_
  rw [vectorBits_toNat (by omega) narrow]
  have large : 2 ^ 2 ≤ 2 ^ (width - 1) := Nat.pow_le_pow_right Nat.two_pos (by omega)
  have double : 2 ^ (width - 1) * 2 = 2 ^ width := Nat.two_pow_pred_mul_two (by omega)
  simp only [List.nodup_cons, List.mem_cons, List.not_mem_nil, List.nodup_nil, or_false,
    not_false_eq_true, and_true]
  omega

theorem wide_edgeValues {width : Nat} (wide : 3 ≤ width) (narrow : width ≤ 64) :
    edgeValues (.bitVec width) = (vectorBits width).map fun bits => .bitVec bits width := by
  rw [edgeValues, vectorEdges_eq (by omega) narrow,
    dropRepeats_of_nodup (vectorBits_nodup wide narrow)]

theorem wide_edgeValues_nodup {width : Nat} (wide : 3 ≤ width) (narrow : width ≤ 64) :
    (edgeValues (.bitVec width)).Nodup := by
  rw [wide_edgeValues wide narrow]
  refine (vectorBits_nodup wide narrow).map fun one other same => ?_
  injection same

def valueCount : NativeType → Nat
  | .bool => 2
  | .real => 4
  | .bitVec 1 => 3
  | _ => 5

theorem valueCount_le (type : NativeType) : valueCount type ≤ 5 := by
  unfold valueCount
  split <;> decide

/-- A vector has one bit, two bits, or three and more. -/
theorem width_cases {width : Nat} (positive : 1 ≤ width) :
    width = 1 ∨ width = 2 ∨ ∃ more, width = more + 3 := by
  rcases (by omega : width = 1 ∨ width = 2 ∨ 3 ≤ width) with one | two | wide
  · exact .inl one
  · exact .inr (.inl two)
  · exact .inr (.inr (Nat.exists_eq_add_of_le' wide))

theorem edgeValues_length {type : NativeType} (narrow : type.Narrow) :
    (edgeValues type).length = valueCount type := by
  cases type with
  | bool | int | real => rfl
  | bitVec width =>
    obtain ⟨positive, small⟩ := narrow
    rcases width_cases positive with rfl | rfl | ⟨more, rfl⟩
    · decide
    · decide
    · rw [wide_edgeValues (by omega) small]
      rfl

/-- The pairs among the first five slots in which a type has the same value, the earlier slot
first. -/
def repeatedSlots : NativeType → List (Nat × Nat)
  | .bool => [(0, 2), (0, 4), (1, 3), (2, 4)]
  | .real => [(0, 4)]
  | .bitVec 1 => [(0, 2), (0, 3), (1, 4), (2, 3)]
  | .bitVec 2 => [(1, 4)]
  | _ => []

theorem edgeAt_ne {type : NativeType} (distinct : (edgeValues type).Nodup) {one other : Nat}
    (less : one < other) (inside : other < (edgeValues type).length) :
    edgeAt type one ≠ edgeAt type other := by
  rw [edgeAt_of_lt (by omega), edgeAt_of_lt inside]
  intro same
  exact less.ne ((List.getElem?_inj (by omega) distinct).mp same)

theorem edgeAt_eq_iff {type : NativeType} (narrow : type.Narrow) {one other : Nat}
    (less : one < other) (inside : other < 5) :
    edgeAt type one = edgeAt type other ↔ (one, other) ∈ repeatedSlots type := by
  have table : ∀ type ∈ [NativeType.bool, .int, .real, .bitVec 1, .bitVec 2], ∀ other < 5,
      ∀ one < other,
        edgeAt type one = edgeAt type other ↔ (one, other) ∈ repeatedSlots type := by decide
  cases type with
  | bool => exact table .bool (by decide) other inside one less
  | int => exact table .int (by decide) other inside one less
  | real => exact table .real (by decide) other inside one less
  | bitVec width =>
    obtain ⟨positive, small⟩ := narrow
    rcases width_cases positive with rfl | rfl | ⟨more, rfl⟩
    · exact table (.bitVec 1) (by decide) other inside one less
    · exact table (.bitVec 2) (by decide) other inside one less
    · have distinct := wide_edgeValues_nodup (by omega) small
      have long : (edgeValues (.bitVec (more + 3))).length = 5 :=
        edgeValues_length ⟨positive, small⟩
      exact iff_of_false (edgeAt_ne distinct less (long ▸ inside)) List.not_mem_nil

theorem first_third_repeated {type : NativeType} :
    (0, 2) ∈ repeatedSlots type ↔ type = .bool ∨ type = .bitVec 1 := by
  unfold repeatedSlots
  split <;> simp_all

theorem second_fifth_repeated {type : NativeType} :
    (1, 4) ∈ repeatedSlots type ↔ type = .bitVec 1 ∨ type = .bitVec 2 := by
  unfold repeatedSlots
  split <;> simp_all

/-- Within its own values, a type repeats one only if it is a vector of one or two bits. -/
theorem repeated_within {type : NativeType} {one other : Nat}
    (repeated : (one, other) ∈ repeatedSlots type) (inside : other < valueCount type) :
    type = .bitVec 1 ∧ one = 0 ∧ other = 2 ∨ type = .bitVec 2 ∧ one = 1 ∧ other = 4 := by
  cases type with
  | bool =>
    have early : other < 2 := inside
    simp only [repeatedSlots, List.mem_cons, Prod.mk.injEq, List.not_mem_nil, or_false] at repeated
    omega
  | int => cases repeated
  | real =>
    have early : other < 4 := inside
    simp only [repeatedSlots, List.mem_cons, Prod.mk.injEq, List.not_mem_nil, or_false] at repeated
    omega
  | bitVec width =>
    rcases width with _ | _ | _ | more
    · cases repeated
    · have early : other < 3 := inside
      simp only [repeatedSlots, List.mem_cons, Prod.mk.injEq, List.not_mem_nil, or_false]
        at repeated
      exact .inl ⟨rfl, by omega⟩
    · have last := List.mem_singleton.mp repeated
      exact .inr ⟨rfl, Prod.mk.inj last⟩
    · cases repeated

/-- Columns that all come round to their old values: single bits, with or without truth values, in
the third slot, and vectors of two bits, with or without single bits, in the fifth. -/
def Repeats (columns : List Column) : Prop :=
  (∃ column ∈ columns, column.type = .bitVec 1) ∧
      (∀ column ∈ columns, column.type = .bool ∨ column.type = .bitVec 1) ∨
    (∃ column ∈ columns, column.type = .bitVec 2) ∧
      ∀ column ∈ columns, column.type = .bitVec 1 ∨ column.type = .bitVec 2

instance (columns : List Column) : Decidable (Repeats columns) :=
  inferInstanceAs (Decidable (_ ∨ _))

theorem exists_alike_iff {columns : List Column}
    (narrow : ∀ column ∈ columns, column.type.Narrow) :
    (∃ one other, one < other ∧ other < slotCount columns ∧ Alike columns one other) ↔
      Repeats columns := by
  constructor
  · rintro ⟨one, other, less, inside, alike⟩
    -- a column with that many values repeats one among its own, which leaves two pairs of slots
    obtain ⟨longest, listed, long⟩ := lt_slotCount.mp inside
    rw [edgeValues_length (narrow longest listed)] at long
    have five : other < 5 := Nat.lt_of_lt_of_le long (valueCount_le _)
    have repeated : ∀ column ∈ columns, (one, other) ∈ repeatedSlots column.type :=
      fun column member => (edgeAt_eq_iff (narrow column member) less five).mp (alike column member)
    rcases repeated_within (repeated longest listed) long with
      ⟨single, rfl, rfl⟩ | ⟨double, rfl, rfl⟩
    · exact .inl ⟨⟨longest, listed, single⟩, fun column member =>
        first_third_repeated.mp (repeated column member)⟩
    · exact .inr ⟨⟨longest, listed, double⟩, fun column member =>
        second_fifth_repeated.mp (repeated column member)⟩
  · rintro (⟨⟨longest, listed, single⟩, all⟩ | ⟨⟨longest, listed, double⟩, all⟩)
    · refine ⟨0, 2, by decide, lt_slotCount.mpr ⟨longest, listed, ?_⟩, fun column member => ?_⟩
      · rw [single]
        decide
      · exact (edgeAt_eq_iff (narrow column member) (by decide) (by decide)).mpr
          (first_third_repeated.mpr (all column member))
    · refine ⟨1, 4, by decide, lt_slotCount.mpr ⟨longest, listed, ?_⟩, fun column member => ?_⟩
      · rw [double]
        decide
      · exact (edgeAt_eq_iff (narrow column member) (by decide) (by decide)).mpr
          (second_fifth_repeated.mpr (all column member))

/-- Rows of boundary values are repeated in two cases only: all columns are single bits or truth
values, and not all of them truth values; or all are vectors of one or two bits, and not all of them
single bits. -/
theorem edge_rows_distinct_iff (columns : List Column) (distinct : (columns.map (·.name)).Nodup)
    (narrow : ∀ column ∈ columns, column.type.Narrow) :
    (edgeRows columns).Pairwise (fun left right => left.same right = false) ↔
      ¬ Repeats columns := by
  rw [edgeRows_apart_iff distinct narrow, ← exists_alike_iff narrow]
  simp only [not_exists, not_and]

/-- A vector of two bits beside a truth value, which tells slots with equal vectors apart. -/
def pairOfBitsAndTruth : List Column := [⟨"v", "v_v", .bitVec 2⟩, ⟨"p", "v_p", .bool⟩]

theorem edge_rows_distinct_pairOfBitsAndTruth :
    (pairOfBitsAndTruth.map (·.name)).Nodup ∧
      (∀ column ∈ pairOfBitsAndTruth, column.type.Narrow) ∧
      (edgeRows pairOfBitsAndTruth).Pairwise fun left right => left.same right = false := by
  have distinct : (pairOfBitsAndTruth.map (·.name)).Nodup := by decide
  have narrow : ∀ column ∈ pairOfBitsAndTruth, column.type.Narrow := by decide
  exact ⟨distinct, narrow,
    (edge_rows_distinct_iff pairOfBitsAndTruth distinct narrow).mpr (by decide)⟩

/-- One single bit is tried as zero, as one and again as zero. -/
theorem single_bit_repeated :
    let columns : List Column := [⟨"b", "v_b", .bitVec 1⟩]
    (columns.map (·.name)).Nodup ∧ (∀ column ∈ columns, column.type.Narrow) ∧
      (edgeRows columns).map (·.entries) =
        [[("b", .bitVec 0 1)], [("b", .bitVec 1 1)], [("b", .bitVec 0 1)]] ∧
      ¬ (edgeRows columns).Pairwise fun left right => left.same right = false := by
  decide

end Formulary.Sampling
