import Formulary.Literal

/-! Rows bind symbol names to literals. A row is kept in order of its names, each at
most once, so rows with equal bindings are equal. -/
namespace Formulary

structure Row where
  entries : List (String × Literal)
  ordered : entries.Pairwise fun left right => left.1 < right.1
deriving DecidableEq

namespace Row

def empty : Row := ⟨[], List.Pairwise.nil⟩

def insertEntry (name : String) (value : Literal) :
    List (String × Literal) → List (String × Literal)
  | [] => [(name, value)]
  | entry :: rest =>
    if name < entry.1 then (name, value) :: entry :: rest
    else if name = entry.1 then (name, value) :: rest
    else entry :: insertEntry name value rest

theorem mem_insertEntry {name : String} {value : Literal}
    {entries : List (String × Literal)} {entry : String × Literal}
    (member : entry ∈ insertEntry name value entries) :
    entry = (name, value) ∨ entry ∈ entries := by
  induction entries with
  | nil => simpa [insertEntry] using member
  | cons head rest ih =>
    rw [insertEntry] at member
    split at member
    · simpa using member
    · split at member
      · rcases List.mem_cons.mp member with same | old
        · exact Or.inl same
        · exact Or.inr (List.mem_cons_of_mem head old)
      · rcases List.mem_cons.mp member with same | old
        · exact Or.inr (by simp [same])
        · rcases ih old with fresh | kept
          · exact Or.inl fresh
          · exact Or.inr (List.mem_cons_of_mem head kept)

private theorem insertEntry_ordered (name : String) (value : Literal)
    {entries : List (String × Literal)}
    (ordered : entries.Pairwise fun left right => left.1 < right.1) :
    (insertEntry name value entries).Pairwise fun left right => left.1 < right.1 := by
  induction entries with
  | nil => simp [insertEntry]
  | cons head rest ih =>
    obtain ⟨first, more⟩ := List.pairwise_cons.mp ordered
    rw [insertEntry]
    split
    · rename_i below
      refine List.pairwise_cons.mpr ⟨?_, ordered⟩
      intro entry member
      rcases List.mem_cons.mp member with same | old
      · simpa [same] using below
      · exact String.lt_trans below (first entry old)
    · rename_i notBelow
      split
      · rename_i same
        refine List.pairwise_cons.mpr ⟨?_, more⟩
        intro entry member
        simpa [same] using first entry member
      · rename_i different
        refine List.pairwise_cons.mpr ⟨?_, ih more⟩
        intro entry member
        rcases mem_insertEntry member with fresh | old
        · subst fresh
          exact Std.lt_of_le_of_ne (String.not_lt.mp notBelow) (Ne.symm different)
        · exact first entry old

/-- Binds a name; an earlier binding of it is lost. -/
def insert (row : Row) (name : String) (value : Literal) : Row :=
  ⟨insertEntry name value row.entries, insertEntry_ordered name value row.ordered⟩

def get? (row : Row) (name : String) : Option Literal :=
  (row.entries.find? fun entry => entry.1 = name).map (·.2)

/-- Of two bindings of one name the later one stays. -/
def ofList (bindings : List (String × Literal)) : Row :=
  bindings.foldl (fun row binding => row.insert binding.1 binding.2) empty

/-- The bindings of both rows; those of `candidate` win. -/
def merge (candidate witness : Row) : Row :=
  candidate.entries.foldl (fun row binding => row.insert binding.1 binding.2) witness

/-- Rows are the same when they bind the same names to the same literals. -/
def same (left right : Row) : Bool :=
  left.entries.length = right.entries.length &&
    (left.entries.zip right.entries).all fun pair =>
      pair.1.1 = pair.2.1 && pair.1.2.same pair.2.2

end Row

end Formulary
