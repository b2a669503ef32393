import Formulary.Proofs.Row
import Formulary.Sampling.Edge

namespace Formulary.Sampling

theorem mem_dropRepeats {α : Type} [DecidableEq α] {list : List α} {item : α} :
    item ∈ dropRepeats list ↔ item ∈ list := by
  fun_induction dropRepeats list with
  | case1 first rest ih => simp [ih]
  | case2 first second rest different ih => simp [ih]
  | case3 short notLong => rfl

/-- The parts of a fraction as integers. -/
def parts (q : Ratio) : Int × Int := (q.numerator.toInt, q.denominator.toInt)

theorem parts_injective : Function.Injective parts := by
  rintro ⟨above, below, _⟩ ⟨otherAbove, otherBelow, _⟩ same
  obtain ⟨above, below⟩ := Prod.mk.inj same
  cases Int64.toInt_inj.mp above
  cases Int64.toInt_inj.mp below
  rfl

/-- Zero, one, all ones and the signed extremes of a type, as far as it has them. -/
inductive Boundary : NativeType → Literal → Prop where
  | bool (value : Bool) : Boundary .bool (.bool value)
  | int {value : Int64} (listed : value.toInt ∈ [0, 1, -1, 2 ^ 63 - 1, -2 ^ 63]) :
      Boundary .int (.int value)
  | real {q : Ratio} (listed : parts q ∈ [(0, 1), (1, 1), (-1, 1), (1, 2)]) :
      Boundary .real (.real q)
  | bitVec {bits : UInt64} {width : Nat} (listed : bits.toNat ∈
        [0, 1, 2 ^ width - 1, 2 ^ (width - 1), 2 ^ (width - 1) - 1]) :
      Boundary (.bitVec width) (.bitVec bits width)

/-- The boundary values of a vector as words, some of them equal in a vector of few bits. -/
def vectorBits (width : Nat) : List UInt64 :=
  [0, 1, lowBits width, (1 : UInt64) <<< (width - 1).toUInt64,
    ((1 : UInt64) <<< (width - 1).toUInt64 - 1) &&& lowBits width]

section Vectors

variable {width : Nat} (positive : 1 ≤ width) (narrow : width ≤ 64)
include positive narrow

theorem vectorBits_toNat :
    (vectorBits width).map UInt64.toNat =
      [0, 1, 2 ^ width - 1, 2 ^ (width - 1), 2 ^ (width - 1) - 1] := by
  have sign := toNat_one_shiftLeft (by omega : width - 1 < 64)
  have signPositive := Nat.two_pow_pos (width - 1)
  have double : 2 ^ (width - 1) * 2 = 2 ^ width := Nat.two_pow_pred_mul_two positive
  have less : ((1 : UInt64) <<< (width - 1).toUInt64 - 1).toNat = 2 ^ (width - 1) - 1 := by
    rw [UInt64.toNat_sub_of_le _ _ (by rw [UInt64.le_iff_toNat_le, sign]; exact signPositive), sign]
    rfl
  have fits : 2 ^ (width - 1) - 1 < 2 ^ width := by omega
  simp [vectorBits, lowBits_toNat narrow, sign, toNat_and_lowBits _ narrow, less,
    Nat.mod_eq_of_lt fits]

theorem mem_vectorBits {bits : UInt64} :
    bits ∈ vectorBits width ↔
      bits.toNat ∈ [0, 1, 2 ^ width - 1, 2 ^ (width - 1), 2 ^ (width - 1) - 1] := by
  rw [← vectorBits_toNat positive narrow]
  exact (List.mem_map_of_injective fun _ _ => UInt64.toNat_inj.mp).symm

theorem vectorBits_lt {bits : UInt64} (listed : bits ∈ vectorBits width) :
    bits.toNat < 2 ^ width := by
  have large : 2 ^ 1 ≤ 2 ^ width := Nat.pow_le_pow_right Nat.two_pos positive
  have half : 2 ^ (width - 1) < 2 ^ width := Nat.pow_lt_pow_right Nat.one_lt_two (by omega)
  have member := (mem_vectorBits positive narrow).mp listed
  simp only [List.mem_cons, List.not_mem_nil, or_false] at member
  omega

/-- Nothing is cut off from the boundary values of a vector. -/
theorem vectorEdges_eq :
    vectorEdges width = (dropRepeats (vectorBits width)).map fun bits => .bitVec bits width := by
  refine List.map_congr_left fun bits kept => ?_
  have fits := vectorBits_lt positive narrow (mem_dropRepeats.mp kept)
  rw [Literal.vector, and_lowBits_of_lt narrow fits]

end Vectors

theorem edgeValues_int :
    edgeValues .int = [0, 1, -1, Int64.maxValue, Int64.minValue].map .int := rfl

theorem edgeValues_real :
    edgeValues .real = [.whole 0, .whole 1, .whole (-1), ⟨1, 2, by decide⟩].map .real := rfl

theorem mem_edgeValues {type : NativeType} (narrow : type.Narrow) {literal : Literal} :
    literal ∈ edgeValues type ↔ Boundary type literal := by
  constructor
  · intro listed
    cases type with
    | bool =>
      rcases List.mem_pair.mp listed with rfl | rfl
      · exact .bool false
      · exact .bool true
    | int =>
      rw [edgeValues_int] at listed
      obtain ⟨value, member, rfl⟩ := List.mem_map.mp listed
      exact .int (List.mem_map_of_mem (f := Int64.toInt) member)
    | real =>
      rw [edgeValues_real] at listed
      obtain ⟨q, member, rfl⟩ := List.mem_map.mp listed
      exact .real (List.mem_map_of_mem (f := parts) member)
    | bitVec width =>
      rw [edgeValues, vectorEdges_eq narrow.1 narrow.2] at listed
      obtain ⟨bits, kept, rfl⟩ := List.mem_map.mp listed
      exact .bitVec ((mem_vectorBits narrow.1 narrow.2).mp (mem_dropRepeats.mp kept))
  · intro boundary
    cases boundary with
    | bool value => cases value <;> simp [edgeValues]
    | int listed =>
      have injective : Function.Injective Int64.toInt := fun _ _ => Int64.toInt_inj.mp
      rw [edgeValues_int]
      exact List.mem_map_of_mem ((List.mem_map_of_injective injective).mp listed)
    | real listed =>
      rw [edgeValues_real]
      exact List.mem_map_of_mem ((List.mem_map_of_injective parts_injective).mp listed)
    | bitVec listed =>
      rw [edgeValues, vectorEdges_eq narrow.1 narrow.2]
      exact List.mem_map_of_mem
        (mem_dropRepeats.mpr ((mem_vectorBits narrow.1 narrow.2).mpr listed))

theorem Boundary.native {type : NativeType} {literal : Literal} (boundary : Boundary type literal)
    (narrow : type.Narrow) : literal.sort.native = .ok type := by
  cases boundary with
  | bool | int | real => rfl
  | bitVec => exact if_pos narrow

/-- Boundary values that are the same are written alike. -/
theorem edgeValues_told {type : NativeType} (narrow : type.Narrow) :
    ∀ one ∈ edgeValues type, ∀ other ∈ edgeValues type, one.same other → one = other := by
  intro one first other second same
  have firstKind := (mem_edgeValues narrow).mp first
  have secondKind := (mem_edgeValues narrow).mp second
  cases type with
  -- fractions alone are compared as numbers
  | real =>
    have told : ∀ left ∈ edgeValues .real, ∀ right ∈ edgeValues .real,
        left.same right → left = right := by decide
    exact told one first other second same
  | bool | int | bitVec =>
    cases firstKind
    cases secondKind
    exact of_decide_eq_true same

theorem edgeValues_length_pos {type : NativeType} (narrow : type.Narrow) :
    0 < (edgeValues type).length := by
  cases type with
  | bool | int | real => decide
  | bitVec width =>
    have zero : Boundary (.bitVec width) (.bitVec 0 width) := .bitVec (by simp)
    exact List.length_pos_of_mem ((mem_edgeValues narrow).mpr zero)

def edgeAt (type : NativeType) (slot : Nat) : Option Literal :=
  (edgeValues type)[slot % (edgeValues type).length]?

theorem exists_edgeAt {type : NativeType} (narrow : type.Narrow) (slot : Nat) :
    ∃ literal ∈ edgeValues type, edgeAt type slot = some literal := by
  have inside := Nat.mod_lt slot (edgeValues_length_pos narrow)
  exact ⟨_, List.getElem_mem inside, List.getElem?_eq_getElem inside⟩

theorem edgeAt_of_lt {type : NativeType} {slot : Nat} (inside : slot < (edgeValues type).length) :
    edgeAt type slot = (edgeValues type)[slot]? := by
  rw [edgeAt, Nat.mod_eq_of_lt inside]

section Rows

variable {columns : List Column}

/-- There are as many slots as the longest list of values has. -/
theorem lt_slotCount {slot : Nat} :
    slot < slotCount columns ↔ ∃ column ∈ columns, slot < (edgeValues column.type).length := by
  have fold : ∀ start, slot < (columns.map fun column => (edgeValues column.type).length).foldl
      max start ↔ slot < start ∨ ∃ column ∈ columns, slot < (edgeValues column.type).length := by
    induction columns with
    | nil => simp
    | cons column rest ih =>
      intro start
      have larger : slot < max start (edgeValues column.type).length ↔
          slot < start ∨ slot < (edgeValues column.type).length := by omega
      rw [List.map_cons, List.foldl_cons, ih, larger, or_assoc]
      simp
  simpa [slotCount] using fold 0

theorem mem_pairRows {first second : Column} {rest : List Column} {row : Row} :
    row ∈ pairRows (first :: second :: rest) ↔
      ∃ one ∈ edgeValues first.type, ∃ other ∈ edgeValues second.type,
        ((slotRow (first :: second :: rest) 0).insert first.name one).insert second.name other =
          row := by
  simp [pairRows]

variable (distinct : (columns.map (·.name)).Nodup)
  (narrow : ∀ column ∈ columns, column.type.Narrow)
include distinct narrow

theorem slotRow_fills (slot : Nat) :
    (slotRow columns slot).Fills columns fun type literal => edgeAt type slot = some literal := by
  refine Row.fills_ofList distinct ?_
  clear distinct
  induction columns with
  | nil => exact .nil
  | cons column rest ih =>
    obtain ⟨here, others⟩ := List.forall_mem_cons.mp narrow
    obtain ⟨literal, _, placed⟩ := exists_edgeAt here slot
    rw [List.filterMap_cons_some (b := (column.name, literal))]
    · exact .cons ⟨rfl, placed⟩ (ih others)
    · exact congrArg (Option.map (column.name, ·)) placed

theorem get?_slotRow (slot : Nat) {column : Column} (listed : column ∈ columns) :
    (slotRow columns slot).get? column.name = edgeAt column.type slot := by
  obtain ⟨literal, stored, placed⟩ := (slotRow_fills distinct narrow slot).right column listed
  rw [stored, placed]

theorem slotRow_fills_edges (slot : Nat) :
    (slotRow columns slot).Fills columns fun type literal => literal ∈ edgeValues type := by
  refine (slotRow_fills distinct narrow slot).imp fun column listed literal placed => ?_
  exact List.mem_of_getElem? placed

theorem pairRows_fills {row : Row} (paired : row ∈ pairRows columns) :
    row.Fills columns fun type literal => literal ∈ edgeValues type := by
  cases columns with
  | nil => cases paired
  | cons first more =>
    cases more with
    | nil => cases paired
    | cons second rest =>
      obtain ⟨one, oneListed, other, otherListed, rfl⟩ := mem_pairRows.mp paired
      have base := slotRow_fills_edges distinct narrow 0
      exact (base.insert distinct (by simp) oneListed).insert distinct (by simp) otherListed

end Rows

section Additions

variable {start rows : List Row} {row added : Row}

theorem mem_addRow (member : row ∈ addRow start added) : row ∈ start ∨ row = added := by
  rw [addRow] at member
  split at member
  · exact .inl member
  · simpa using member

theorem prefix_addRow (start : List Row) (added : Row) : start <+: addRow start added := by
  rw [addRow]
  split
  · exact List.prefix_refl start
  · exact List.prefix_append start [added]

theorem addRow_covers (start : List Row) (added : Row) :
    ∃ kept ∈ addRow start added, kept.same added = true := by
  rw [addRow]
  split
  · rename_i there
    exact List.any_eq_true.mp there
  · exact ⟨added, by simp, added.same_refl⟩

theorem mem_foldl_addRow (member : row ∈ rows.foldl addRow start) : row ∈ start ∨ row ∈ rows := by
  induction rows generalizing start with
  | nil => exact .inl member
  | cons added rest ih =>
    rcases ih member with earlier | later
    · rcases mem_addRow earlier with old | rfl
      · exact .inl old
      · exact .inr List.mem_cons_self
    · exact .inr (List.mem_cons_of_mem added later)

theorem prefix_foldl_addRow (start rows : List Row) : start <+: rows.foldl addRow start := by
  induction rows generalizing start with
  | nil => exact List.prefix_refl start
  | cons added rest ih => exact (prefix_addRow start added).trans (ih _)

theorem foldl_addRow_covers (start : List Row) (member : row ∈ rows) :
    ∃ kept ∈ rows.foldl addRow start, kept.same row = true := by
  induction rows generalizing start with
  | nil => cases member
  | cons added rest ih =>
    rcases List.mem_cons.mp member with rfl | later
    · obtain ⟨kept, there, same⟩ := addRow_covers start row
      exact ⟨kept, (prefix_foldl_addRow _ rest).subset there, same⟩
    · exact ih (addRow start added) later

end Additions

section Rows

variable {columns : List Column}

theorem slotRow_mem {slot : Nat} (inside : slot < slotCount columns) :
    slotRow columns slot ∈ edgeRows columns :=
  (prefix_foldl_addRow _ _).subset (List.mem_map_of_mem (List.mem_range.mpr inside))

theorem edges_eq_of_same (narrow : ∀ column ∈ columns, column.type.Narrow) {left right : Row}
    (one : left.Fills columns fun type literal => literal ∈ edgeValues type)
    (other : right.Fills columns fun type literal => literal ∈ edgeValues type)
    (same : left.same right = true) : left = right := by
  refine Row.eq_of_same (fun name first second stored again alike => ?_) same
  have bound : name ∈ columns.map (·.name) := (one.names name).mp (by simp [stored])
  obtain ⟨column, listed, rfl⟩ := List.mem_map.mp bound
  exact edgeValues_told (narrow column listed) first (one.of_get? listed stored) second
    (other.of_get? listed again) alike

variable (distinct : (columns.map (·.name)).Nodup)
  (narrow : ∀ column ∈ columns, column.type.Narrow)
include distinct narrow

theorem edgeRows_fill {row : Row} (member : row ∈ edgeRows columns) :
    row.Fills columns fun type literal => literal ∈ edgeValues type := by
  rcases mem_foldl_addRow member with slot | paired
  · obtain ⟨index, _, rfl⟩ := List.mem_map.mp slot
    exact slotRow_fills_edges distinct narrow index
  · exact pairRows_fills distinct narrow paired

theorem pairRow_mem {row : Row} (paired : row ∈ pairRows columns) : row ∈ edgeRows columns := by
  obtain ⟨kept, there, same⟩ := foldl_addRow_covers _ paired
  have equal := edges_eq_of_same narrow (edgeRows_fill distinct narrow there)
    (pairRows_fills distinct narrow paired) same
  exact equal ▸ there

end Rows

/-- Rows of boundary values cover what they should. All rows bind the names of the columns and no
others to boundary values, and have cells for the columns; each boundary value of a column stands
in some row; and each pair of boundary values of the first two columns stands in a row whose other
columns have their first values. -/
theorem edge_rows_cover (columns : List Column) (distinct : (columns.map (·.name)).Nodup)
    (narrow : ∀ column ∈ columns, column.type.Narrow) :
    (∀ column ∈ columns, ∀ literal,
      literal ∈ edgeValues column.type ↔ Boundary column.type literal) ∧
    (∀ row ∈ edgeRows columns,
      (row.Fills columns fun type literal => literal ∈ edgeValues type) ∧
        ∀ index, ∃ cells, row.cells index ⟨columns⟩ = .ok cells) ∧
    (∀ column ∈ columns, ∀ literal ∈ edgeValues column.type,
      ∃ row ∈ edgeRows columns, row.get? column.name = some literal) ∧
    ∀ first second rest, columns = first :: second :: rest →
      ∀ one ∈ edgeValues first.type, ∀ other ∈ edgeValues second.type,
        ∃ row ∈ edgeRows columns, row.get? first.name = some one ∧
          row.get? second.name = some other ∧
          ∀ column ∈ rest, row.get? column.name = (edgeValues column.type).head? := by
  refine ⟨fun column listed _ => mem_edgeValues (narrow column listed), ?_, ?_, ?_⟩
  · intro row member
    have filled := edgeRows_fill distinct narrow member
    refine ⟨filled, filled.cells fun column listed literal edge => ?_⟩
    exact ((mem_edgeValues (narrow column listed)).mp edge).native (narrow column listed)
  · intro column listed literal edge
    obtain ⟨slot, inside, found⟩ := List.mem_iff_getElem.mp edge
    refine ⟨slotRow columns slot, slotRow_mem (lt_slotCount.mpr ⟨column, listed, inside⟩), ?_⟩
    rw [get?_slotRow distinct narrow slot listed, edgeAt_of_lt inside, ← found]
    exact List.getElem?_eq_getElem inside
  · rintro first second rest rfl one oneListed other otherListed
    refine ⟨_, pairRow_mem distinct narrow
      (mem_pairRows.mpr ⟨one, oneListed, other, otherListed, rfl⟩), ?_⟩
    have names := distinct
    simp only [List.map_cons, List.nodup_cons, List.mem_cons, not_or] at names
    obtain ⟨⟨apart, firstFresh⟩, secondFresh, _⟩ := names
    refine ⟨?_, Row.get?_insert_self _ _ _, fun column listed => ?_⟩
    · rw [Row.get?_insert_other _ _ (Ne.symm apart), Row.get?_insert_self]
    · have notFirst : first.name ≠ column.name := fun same =>
        firstFresh (List.mem_map.mpr ⟨column, listed, same.symm⟩)
      have notSecond : second.name ≠ column.name := fun same =>
        secondFresh (List.mem_map.mpr ⟨column, listed, same.symm⟩)
      rw [Row.get?_insert_other _ _ notSecond, Row.get?_insert_other _ _ notFirst,
        get?_slotRow distinct narrow 0 (by simp [listed]), edgeAt, Nat.zero_mod,
        List.head?_eq_getElem?]

/-- A column of single bits, one of fractions and one of integers. -/
def bitsAndNumbers : List Column :=
  [⟨"b", "v_b", .bitVec 1⟩, ⟨"x", "v_x", .real⟩, ⟨"n", "v_n", .int⟩]

/-- The bit one meets a half, while the integer is zero; the least integer stands in another row. -/
theorem edge_rows_cover_bitsAndNumbers :
    (bitsAndNumbers.map (·.name)).Nodup ∧ (∀ column ∈ bitsAndNumbers, column.type.Narrow) ∧
      (∃ row ∈ edgeRows bitsAndNumbers, row.get? "n" = some (.int Int64.minValue)) ∧
      ∃ row ∈ edgeRows bitsAndNumbers, row.get? "b" = some (.bitVec 1 1) ∧
        row.get? "x" = some (.real ⟨1, 2, by decide⟩) ∧ row.get? "n" = some (.int 0) := by
  have distinct : (bitsAndNumbers.map (·.name)).Nodup := by decide
  have narrow : ∀ column ∈ bitsAndNumbers, column.type.Narrow := by decide
  obtain ⟨_, _, single, pairs⟩ := edge_rows_cover bitsAndNumbers distinct narrow
  obtain ⟨row, member, bit, half, others⟩ := pairs _ _ _ rfl (.bitVec 1 1) (by decide)
    (.real ⟨1, 2, by decide⟩) (by decide)
  refine ⟨distinct, narrow, ?_, row, member, bit, half, ?_⟩
  · exact single ⟨"n", "v_n", .int⟩ (by decide) (.int Int64.minValue) (by decide)
  · exact others ⟨"n", "v_n", .int⟩ List.mem_cons_self

end Formulary.Sampling
