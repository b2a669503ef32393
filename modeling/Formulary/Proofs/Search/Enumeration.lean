import Formulary.Proofs.Row
import Formulary.Proofs.Search.Exhaustion
import Mathlib.Data.List.Lex
import Mathlib.Order.Interval.Set.Defs

/-! The points of a product in order. An index is a numeral whose digits have the sizes of the
domains for their bases: below the number of points, indices and choices of one position in each
domain correspond, and counting up goes through the choices in lexicographic order. -/
namespace Formulary.Search

variable {domain : Domain} {domains rest : List Domain}

def IsChoice (domains : List Domain) (choice : List Nat) : Prop :=
  List.Forall₂ (fun domain position => position < domain.values.length) domains choice

/-- The digits of an index, the one of the last domain worth one. -/
def digits : List Domain → Nat → List Nat
  | [], _ => []
  | domain :: rest, index => index / pointCount rest % domain.values.length :: digits rest index

theorem pointCount_cons (domain : Domain) (rest : List Domain) :
    pointCount (domain :: rest) = domain.values.length * pointCount rest := rfl

theorem digits_mod_mul (domains : List Domain) (factor index : Nat) :
    digits domains (index % (factor * pointCount domains)) = digits domains index := by
  induction domains generalizing factor with
  | nil => rfl
  | cons domain rest ih =>
    rw [digits, digits, pointCount_cons, ← Nat.mul_assoc, ih, Nat.mod_mul_left_div_self,
      Nat.mod_mul_left_mod]

/-- Only what is left over of an index after whole rounds through the points matters. -/
theorem digits_mod (domains : List Domain) (index : Nat) :
    digits domains (index % pointCount domains) = digits domains index := by
  simpa using digits_mod_mul domains 1 index

/-- The first digit of an index below the number of points needs no reduction. -/
theorem digits_cons {index : Nat} (inside : index < pointCount (domain :: rest)) :
    digits (domain :: rest) index =
      index / pointCount rest :: digits rest (index % pointCount rest) := by
  have small : index / pointCount rest < domain.values.length :=
    Nat.div_lt_of_lt_mul (by rwa [Nat.mul_comm])
  rw [digits, Nat.mod_eq_of_lt small, digits_mod]

theorem pointCount_rest_pos {index : Nat} (inside : index < pointCount (domain :: rest)) :
    0 < pointCount rest :=
  Nat.pos_of_mul_pos_left (Nat.zero_lt_of_lt inside)

theorem digits_isChoice {index : Nat} (inside : index < pointCount domains) :
    IsChoice domains (digits domains index) := by
  induction domains generalizing index with
  | nil => exact .nil
  | cons domain rest ih =>
    rw [digits_cons inside]
    exact .cons (Nat.div_lt_of_lt_mul (by rwa [Nat.mul_comm]))
      (ih (Nat.mod_lt _ (pointCount_rest_pos inside)))

/-- A larger index has lexicographically larger digits. -/
theorem digits_strictMono (domains : List Domain) :
    StrictMonoOn (digits domains) (Set.Iio (pointCount domains)) := by
  induction domains with
  | nil =>
    intro first _ second inside less
    have : second < 1 := inside
    omega
  | cons domain rest ih =>
    intro first firstInside second secondInside less
    have positive := pointCount_rest_pos secondInside
    have quotients : first / pointCount rest ≤ second / pointCount rest :=
      Nat.div_le_div_right less.le
    rw [digits_cons firstInside, digits_cons secondInside]
    -- the most significant digits decide, and where they are equal, the remainders
    rcases Nat.lt_or_eq_of_le quotients with lower | equal
    · exact List.Lex.rel lower
    · have remainders : first % pointCount rest < second % pointCount rest := by
        have := Nat.div_add_mod first (pointCount rest)
        have := Nat.div_add_mod second (pointCount rest)
        rw [equal] at *
        omega
      rw [equal]
      exact List.Lex.cons (ih (Nat.mod_lt _ positive) (Nat.mod_lt _ positive) remainders)

theorem digits_surjective {choice : List Nat} (valid : IsChoice domains choice) :
    ∃ index < pointCount domains, digits domains index = choice := by
  induction valid with
  | nil => exact ⟨0, Nat.one_pos, rfl⟩
  | @cons domain position rest choice inside _ ih =>
    obtain ⟨index, below, same⟩ := ih
    have whole : position * pointCount rest + index < pointCount (domain :: rest) := by
      rw [pointCount_cons]
      calc position * pointCount rest + index
          < position * pointCount rest + pointCount rest := Nat.add_lt_add_left below _
        _ = (position + 1) * pointCount rest := (Nat.succ_mul _ _).symm
        _ ≤ domain.values.length * pointCount rest := Nat.mul_le_mul_right _ inside
    refine ⟨_, whole, ?_⟩
    rw [digits_cons whole, Nat.mul_add_mod', Nat.mod_eq_of_lt below, same,
      Nat.mul_comm, Nat.mul_add_div (Nat.zero_lt_of_lt below), Nat.div_eq_of_lt below, Nat.add_zero]

theorem pointFrom_append (first second : List Domain) (index : Nat) (row : Row) :
    pointFrom (first ++ second) index row =
      pointFrom second (index / pointCount first) (pointFrom first index row) := by
  induction first generalizing index row with
  | nil => simp [pointFrom, pointCount]
  | cons domain rest ih =>
    rw [List.cons_append, pointFrom, pointFrom, pointCount_cons, ← Nat.div_div_eq_div_mul]
    split
    · exact ih _ _
    · exact ih _ _

theorem pointCount_reverse (domains : List Domain) :
    pointCount domains.reverse = pointCount domains := by
  rw [pointCount, pointCount, List.map_reverse, List.prod_reverse]

/-- The first domain is bound last, to the value at the most significant digit. -/
theorem point_cons {index : Nat} {value : Literal}
    (chosen : domain.values[index / pointCount rest % domain.values.length]? = some value) :
    point (domain :: rest) index = (point rest index).insert domain.name value := by
  rw [point, List.reverse_cons, pointFrom_append, pointCount_reverse, pointFrom, chosen]
  rfl

theorem exists_chosen (positive : 0 < pointCount (domain :: rest)) (index : Nat) :
    ∃ value, domain.values[index / pointCount rest % domain.values.length]? = some value :=
  ⟨_, List.getElem?_eq_getElem (Nat.mod_lt _ (Nat.pos_of_mul_pos_right positive))⟩

-- The index stays whole along the induction, so that it may be larger than the number of points
-- of the domains that are left.
theorem point_names (positive : 0 < pointCount domains) (index : Nat) :
    (point domains index).Names (domains.map (·.name)) := by
  induction domains with
  | nil => exact fun name => by simp [point, pointFrom, Row.get?_empty]
  | cons domain rest ih =>
    obtain ⟨value, chosen⟩ := exists_chosen positive index
    intro name
    rw [point_cons chosen, Row.get?_insert, List.map_cons, List.mem_cons,
      ← ih (Nat.pos_of_mul_pos_left positive) name]
    by_cases same : domain.name = name
    · simp [same]
    · simp [same, Ne.symm same]

theorem point_values (distinct : (domains.map (·.name)).Nodup) (positive : 0 < pointCount domains)
    (index : Nat) :
    List.Forall₂ (fun domain position =>
        (point domains index).get? domain.name = domain.values[position]?)
      domains (digits domains index) := by
  induction domains with
  | nil => exact .nil
  | cons domain rest ih =>
    obtain ⟨fresh, others⟩ := List.nodup_cons.mp distinct
    obtain ⟨value, chosen⟩ := exists_chosen positive index
    have later := List.forall₂_iff_zip.mp (ih others (Nat.pos_of_mul_pos_left positive))
    rw [digits, point_cons chosen]
    refine .cons (by rw [Row.get?_insert_self, chosen]) (List.forall₂_iff_zip.mpr ⟨later.1, ?_⟩)
    intro other position paired
    have different : domain.name ≠ other.name := fun same =>
      fresh (List.mem_map.mpr ⟨other, (List.of_mem_zip paired).1, same.symm⟩)
    rw [Row.get?_insert_other _ _ different]
    exact later.2 paired

/-- As long as the points can be counted, they are counted exactly. Indices below their number
correspond to the choices of a position in each domain, in lexicographic order, so that the last
domain changes fastest; and the point with an index binds the names of the domains and no others,
each to the value at the chosen position. -/
theorem points_enumerated (domains : List Domain) (distinct : (domains.map (·.name)).Nodup)
    (countable : pointCount domains ≤ maxPoints) :
    productSize domains = pointCount domains ∧
      Set.BijOn (digits domains) (Set.Iio (productSize domains))
        {choice | IsChoice domains choice} ∧
      StrictMonoOn (digits domains) (Set.Iio (productSize domains)) ∧
      ∀ index < productSize domains,
        (point domains index).Names (domains.map (·.name)) ∧
        List.Forall₂ (fun domain position =>
            (point domains index).get? domain.name = domain.values[position]?)
          domains (digits domains index) := by
  have size : productSize domains = pointCount domains := by
    rw [productSize_eq, Nat.min_eq_left countable]
  have ordered := digits_strictMono domains
  rw [size]
  refine ⟨rfl, ⟨fun _ => digits_isChoice, ordered.injOn, ?_⟩, ordered, fun index inside => ?_⟩
  · intro choice valid
    obtain ⟨index, inside, same⟩ := digits_surjective valid
    exact ⟨index, inside, same⟩
  · have positive := Nat.zero_lt_of_lt inside
    exact ⟨point_names positive index, point_values distinct positive index⟩

/-- A domain of two values and one of three, in which a value stands twice. -/
def pairAndTriple : List Domain :=
  [⟨"a", [.bool false, .bool true]⟩, ⟨"b", [.int 5, .int 7, .int 5]⟩]

/-- Index 4 is the second value of the first domain with the second of the other, and indices 3
and 5 are two choices of the same values. -/
theorem points_enumerated_pairAndTriple :
    (pairAndTriple.map (·.name)).Nodup ∧ pointCount pairAndTriple ≤ maxPoints ∧
      productSize pairAndTriple = 6 ∧ digits pairAndTriple 4 = [1, 1] ∧
      digits pairAndTriple 3 < digits pairAndTriple 5 ∧
      (point pairAndTriple 4).get? "a" = some (.bool true) ∧
      (point pairAndTriple 4).get? "b" = some (.int 7) ∧
      point pairAndTriple 3 = point pairAndTriple 5 := by
  have distinct : (pairAndTriple.map (·.name)).Nodup := by decide
  have countable : pointCount pairAndTriple ≤ maxPoints := by decide
  obtain ⟨size, _, ordered, bound⟩ := points_enumerated pairAndTriple distinct countable
  have six : productSize pairAndTriple = 6 := size.trans (by decide)
  rw [six] at ordered bound
  have fourth := (bound 4 (by decide)).2
  have less := ordered (show 3 < 6 by decide) (show 5 < 6 by decide) (by decide)
  obtain _ | ⟨first, _ | ⟨second, _⟩⟩ := fourth
  exact ⟨distinct, countable, six, by decide, less, first, second, by decide⟩

end Formulary.Search
