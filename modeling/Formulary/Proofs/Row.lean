import Formulary.Proofs.Typing
import Formulary.Pattern

namespace Formulary

/-- Bit-vectors fit a machine word. -/
def NativeType.Narrow : NativeType → Prop
  | bitVec width => 1 ≤ width ∧ width ≤ maxWidth
  | _ => True

instance : DecidablePred NativeType.Narrow
  | .bitVec width => inferInstanceAs (Decidable (1 ≤ width ∧ width ≤ NativeType.maxWidth))
  | .bool | .int | .real => isTrue trivial

namespace Literal

theorem same_refl (literal : Literal) : literal.same literal = true := by
  cases literal with
  | real value => simp [same, Ratio.same]
  | bool value => simp [same]
  | int value => simp [same]
  | bitVec bits width => simp [same]

end Literal

namespace Row

theorem find?_insertEntry (name other : String) (value : Literal)
    (entries : List (String × Literal)) :
    (insertEntry name value entries).find? (fun entry => entry.1 = other) =
      if name = other then some (name, value)
      else entries.find? fun entry => entry.1 = other := by
  induction entries with
  | nil => by_cases same : name = other <;> simp [insertEntry, same]
  | cons entry rest ih =>
    rw [insertEntry]
    split
    · by_cases same : name = other <;> simp [same]
    · split
      · rename_i replaced
        by_cases same : name = other
        · simp [same]
        · simp [same, ← replaced]
      · rename_i different
        by_cases here : entry.1 = other
        · have apart : name ≠ other := fun same => different (same.trans here.symm)
          simp [here, apart]
        · simpa [here] using ih

theorem get?_empty (name : String) : empty.get? name = none := rfl

/-- A new binding hides an earlier one of its name, and no other. -/
theorem get?_insert (row : Row) (name other : String) (value : Literal) :
    (row.insert name value).get? other =
      if name = other then some value else row.get? other := by
  rw [get?, insert, find?_insertEntry]
  by_cases same : name = other
  · simp [same]
  · simp [same, get?]

theorem get?_insert_self (row : Row) (name : String) (value : Literal) :
    (row.insert name value).get? name = some value := by
  rw [get?_insert, if_pos rfl]

theorem get?_insert_other (row : Row) {name other : String} (value : Literal)
    (different : name ≠ other) : (row.insert name value).get? other = row.get? other := by
  rw [get?_insert, if_neg different]

theorem get?_foldl_insert {bindings : List (String × Literal)}
    (distinct : (bindings.map (·.1)).Nodup) (row : Row) (name : String) (value : Literal) :
    (bindings.foldl (fun row binding => row.insert binding.1 binding.2) row).get? name =
        some value ↔
      (name, value) ∈ bindings ∨ name ∉ bindings.map (·.1) ∧ row.get? name = some value := by
  induction bindings generalizing row with
  | nil => simp
  | cons binding rest ih =>
    obtain ⟨fresh, others⟩ := List.nodup_cons.mp distinct
    rw [List.foldl_cons, ih others, get?_insert]
    by_cases same : binding.1 = name
    · subst same
      have absent : (binding.1, value) ∉ rest := fun listed =>
        fresh (List.mem_map.mpr ⟨_, listed, rfl⟩)
      have here : (binding.1, value) = binding ↔ binding.2 = value := by
        rw [Prod.ext_iff]
        simp [eq_comm]
      simp [absent, fresh, here]
    · have elsewhere : (name, value) ≠ binding := fun equal =>
        same (congrArg Prod.fst equal).symm
      simp [same, elsewhere, Ne.symm same]

/-- A row made of bindings of distinct names has these bindings and no others. -/
theorem get?_ofList {bindings : List (String × Literal)}
    (distinct : (bindings.map (·.1)).Nodup) (name : String) (value : Literal) :
    (ofList bindings).get? name = some value ↔ (name, value) ∈ bindings := by
  rw [ofList, get?_foldl_insert distinct, get?_empty]
  simp

theorem get?_of_mem {row : Row} {entry : String × Literal} (member : entry ∈ row.entries) :
    row.get? entry.1 = some entry.2 := by
  obtain ⟨entries, ordered⟩ := row
  induction entries with
  | nil => cases member
  | cons head rest ih =>
    obtain ⟨first, more⟩ := List.pairwise_cons.mp ordered
    rcases List.mem_cons.mp member with rfl | later
    · simp [get?]
    · have different : head.1 ≠ entry.1 := fun same =>
        String.lt_irrefl _ (same ▸ first entry later)
      simpa [get?, different] using ih more later

theorem mem_of_get? {row : Row} {name : String} {literal : Literal}
    (stored : row.get? name = some literal) : (name, literal) ∈ row.entries := by
  obtain ⟨entry, found, rfl⟩ := Option.map_eq_some_iff.mp stored
  have named := List.find?_some found
  obtain rfl : entry.1 = name := of_decide_eq_true named
  exact List.mem_of_find?_eq_some found

theorem same_iff {left right : Row} :
    left.same right = true ↔ List.Forall₂ (fun one other => one.1 = other.1 ∧ one.2.same other.2)
      left.entries right.entries := by
  rw [same, Bool.and_eq_true, decide_eq_true_iff, List.all_eq_true, List.forall₂_iff_zip]
  refine and_congr_right fun _ => ⟨?_, ?_⟩
  · intro agree one other paired
    simpa using agree (one, other) paired
  · intro agree pair paired
    simpa using agree paired

theorem same_refl (row : Row) : row.same row = true :=
  same_iff.mpr (List.forall₂_same.mpr fun entry _ => ⟨rfl, entry.2.same_refl⟩)

/-- Rows that are the same are equal if the literals in them are written alike. -/
theorem eq_of_same {left right : Row}
    (alike : ∀ name one other, left.get? name = some one → right.get? name = some other →
      one.same other → one = other)
    (same : left.same right = true) : left = right := by
  have related := same_iff.mp same
  have equal : List.Forall₂ Eq left.entries right.entries := by
    rw [List.forall₂_iff_zip] at related ⊢
    refine ⟨related.1, fun {one other} paired => ?_⟩
    obtain ⟨names, literals⟩ := related.2 paired
    have stored := get?_of_mem (List.of_mem_zip paired).1
    have again := get?_of_mem (List.of_mem_zip paired).2
    exact Prod.ext names (alike _ _ _ stored (names ▸ again) literals)
  obtain ⟨entries, _⟩ := left
  obtain ⟨others, _⟩ := right
  obtain rfl := List.forall₂_eq_eq_eq ▸ equal
  rfl

/-- The names that a row binds are those in a list. -/
def Names (row : Row) (names : List String) : Prop :=
  ∀ name, (row.get? name).isSome ↔ name ∈ names

/-- A row binds the names of the columns and no others, each to a literal that is right for the
type of its column. -/
structure Fills (row : Row) (columns : List Column) (Right : NativeType → Literal → Prop) :
    Prop where
  names : row.Names (columns.map (·.name))
  right : ∀ column ∈ columns, ∃ literal,
    row.get? column.name = some literal ∧ Right column.type literal

variable {columns : List Column} {Right : NativeType → Literal → Prop}

theorem fills_ofList {bindings : List (String × Literal)}
    (distinct : (columns.map (·.name)).Nodup)
    (each : List.Forall₂ (fun column binding => binding.1 = column.name ∧
      Right column.type binding.2) columns bindings) :
    (ofList bindings).Fills columns Right := by
  have names : bindings.map (·.1) = columns.map (·.name) := by
    rw [← List.forall₂_eq_eq_eq, List.forall₂_map_left_iff, List.forall₂_map_right_iff]
    exact (each.imp fun _ _ bound => bound.1).flip
  have stored : List.Forall₂ (fun column binding => binding ∈ bindings ∧
      binding.1 = column.name ∧ Right column.type binding.2) columns bindings :=
    List.forall₂_iff_zip.mpr ⟨each.length_eq, fun paired =>
      ⟨(List.of_mem_zip paired).2, List.forall₂_zip each paired⟩⟩
  rw [← names] at distinct
  constructor
  · intro name
    rw [← names, Option.isSome_iff_exists]
    simp [get?_ofList distinct]
  · intro column listed
    obtain ⟨⟨name, literal⟩, member, rfl, right⟩ := related_of_mem stored listed
    exact ⟨literal, (get?_ofList distinct _ _).mpr member, right⟩

theorem Fills.of_get? {row : Row} (filled : row.Fills columns Right) {column : Column}
    {literal : Literal} (listed : column ∈ columns)
    (stored : row.get? column.name = some literal) : Right column.type literal := by
  obtain ⟨found, bound, right⟩ := filled.right column listed
  rw [stored] at bound
  exact Option.some.inj bound ▸ right

theorem Fills.imp {row : Row} {Better : NativeType → Literal → Prop}
    (filled : row.Fills columns Right)
    (better : ∀ column ∈ columns, ∀ literal, Right column.type literal →
      Better column.type literal) : row.Fills columns Better where
  names := filled.names
  right column listed := by
    obtain ⟨literal, stored, right⟩ := filled.right column listed
    exact ⟨literal, stored, better column listed literal right⟩

/-- A column may be bound anew, to another literal that is right for it. -/
theorem Fills.insert {row : Row} {column : Column} {literal : Literal}
    (filled : row.Fills columns Right) (distinct : (columns.map (·.name)).Nodup)
    (listed : column ∈ columns) (right : Right column.type literal) :
    (row.insert column.name literal).Fills columns Right where
  names name := by
    rw [get?_insert, ← filled.names name]
    split
    · rename_i same
      have bound := (filled.names name).mpr (same ▸ List.mem_map_of_mem listed)
      simp [bound]
    · rfl
  right other member := by
    by_cases same : column.name = other.name
    · have equal : column = other := List.inj_on_of_nodup_map distinct listed member same
      exact ⟨literal, equal ▸ get?_insert_self row column.name literal, equal ▸ right⟩
    · rw [get?_insert_other _ _ same]
      exact filled.right other member

theorem Fills.cells {row : Row} (filled : row.Fills columns Right)
    (typed : ∀ column ∈ columns, ∀ literal, Right column.type literal →
      literal.sort.native = .ok column.type) (index : Nat) :
    ∃ cells, row.cells index ⟨columns⟩ = .ok cells := by
  refine mapM_total fun column listed => ?_
  obtain ⟨literal, stored, right⟩ := filled.right column listed
  refine ⟨literal.cell, ?_⟩
  simp [Row.cell, stored, typed column listed literal right]

end Row

end Formulary
