import Formulary.Proofs.Arena.Sharing

namespace Formulary

/-- What makes a list of nodes with a root a formula. -/
structure FormulaFile.WellFormed (file : FormulaFile) : Prop where
  /-- Children stand before their parents. -/
  ordered : ∀ (position : Nat) (node : Node), file.nodes[position]? = some node →
    ∀ child ∈ node.children, child < position
  /-- No node is there twice; fractions are told by their numbers. -/
  distinct : (file.nodes.map Node.key).Nodup
  /-- The root is one of the nodes. -/
  rooted : file.root < file.nodes.length

namespace Formula

variable {file : FormulaFile} {formula : Formula}

theorem load_iff :
    load file = .ok formula ↔
      Arena.empty.extend 0 file.nodes = .ok formula.arena ∧ file.root = formula.root := by
  unfold load
  constructor
  · intro loaded
    split at loaded
    · cases loaded
    · rename_i arena accepted
      split at loaded
      · cases loaded
        exact ⟨accepted, rfl⟩
      · cases loaded
  · rintro ⟨accepted, root⟩
    split
    · rename_i error failed
      rw [accepted] at failed
      cases failed
    · rename_i arena found
      rw [accepted] at found
      cases found
      have inside : file.root < formula.arena.size := root ▸ formula.rooted
      rw [dif_pos inside]
      simp only [root]

theorem toFile_load (loaded : load file = .ok formula) : formula.toFile = file := by
  obtain ⟨accepted, root⟩ := load_iff.mp loaded
  obtain ⟨same, _⟩ := Arena.extend_empty_iff.mp accepted
  rw [toFile, fileOf, same, ← root]
  rfl

theorem load_toFile (formula : Formula)
    (built : formula.arena = .ofNodes formula.arena.nodes) (sound : formula.arena.Sound)
    (small : formula.arena.size ≤ Word.halfSize) : load formula.toFile = .ok formula :=
  load_iff.mpr ⟨Arena.extend_empty_iff.mpr ⟨built, sound, small⟩, rfl⟩

theorem load_succeeds_iff :
    (∃ formula, load file = .ok formula) ↔
      file.WellFormed ∧ (∀ node ∈ file.nodes, ¬ node.Outsized) ∧
        file.nodes.length ≤ Word.halfSize := by
  constructor
  · rintro ⟨formula, loaded⟩
    obtain ⟨accepted, root⟩ := load_iff.mp loaded
    obtain ⟨same, sound, small⟩ := Arena.extend_empty_iff.mp accepted
    have inside := formula.rooted
    rw [same] at sound inside
    obtain ⟨ordered, distinct, storable⟩ := Arena.sound_iff.mp sound
    refine ⟨⟨ordered, distinct, ?_⟩, storable, small⟩
    rw [root]
    exact inside
  · rintro ⟨wellFormed, storable, small⟩
    have sound : (Arena.ofNodes file.nodes.toArray).Sound :=
      Arena.sound_iff.mpr ⟨wellFormed.ordered, wellFormed.distinct, storable⟩
    exact ⟨_, load_toFile ⟨_, file.root, sound.ordered, wellFormed.rooted⟩ rfl sound small⟩

end Formula

/-- A file is accepted if and only if it is well-formed, holds none of the constants that no
arena can hold, and half words can name all its nodes. What is accepted is stored as the same
file, and whatever has been loaded or constructed is loaded again from its file, each node at its
position, unless there are too many. -/
theorem loading_exact (file : FormulaFile) (arena : Arena) :
    ((∃ formula, Formula.load file = .ok formula) ↔
      file.WellFormed ∧ (∀ node ∈ file.nodes, ¬ node.Outsized) ∧
        file.nodes.length ≤ Word.halfSize) ∧
    (∀ formula, Formula.load file = .ok formula → formula.toFile = file) ∧
    (arena.Made → ∃ ordered : arena.Ordered, ∀ (root : NodeId) (inside : root < arena.size),
      if arena.size ≤ Word.halfSize then
        Formula.load (Formula.fileOf arena root) = .ok ⟨arena, root, ordered, inside⟩
      else ¬ ∃ formula, Formula.load (Formula.fileOf arena root) = .ok formula) := by
  refine ⟨Formula.load_succeeds_iff, ?_, ?_⟩
  · intro formula loaded
    exact Formula.toFile_load loaded
  · intro made
    refine ⟨made.tidy.ordered, fun root inside => ?_⟩
    split
    · rename_i small
      exact Formula.load_toFile ⟨arena, root, _, inside⟩ made.tidy.built made.tidy.toSound small
    · rename_i large
      intro loaded
      exact large (Formula.load_succeeds_iff.mp loaded).2.2

/-- Two quarters are kept as written, and a half beside them is a node that is there twice. -/
theorem loading_exact_quarters :
    let half : Node := ⟨.constant (.real ⟨1, 2, by decide⟩), [], .real⟩
    (∃ formula, Formula.load ⟨quarters, 1⟩ = .ok formula ∧ formula.toFile = ⟨quarters, 1⟩) ∧
      (¬ ∃ formula, Formula.load ⟨quarters ++ [half], 1⟩ = .ok formula) ∧
      belowHalf.Made ∧
      ∃ formula, Formula.load (Formula.fileOf belowHalf 2) = .ok formula ∧
        formula.arena = belowHalf := by
  intro half
  obtain ⟨accepts, restores, reloads⟩ := loading_exact ⟨quarters, 1⟩ belowHalf
  obtain ⟨ordered, distinct, storable⟩ := Arena.sound_iff.mp quarters_sound
  have rooted : (1 : NodeId) < quarters.length := by decide
  obtain ⟨formula, loaded⟩ := accepts.mpr ⟨⟨ordered, distinct, rooted⟩, storable, by decide⟩
  have twice : ¬ ∃ formula, Formula.load ⟨quarters ++ [half], 1⟩ = .ok formula := by
    intro loaded
    obtain ⟨wellFormed, _⟩ := (loading_exact ⟨quarters ++ [half], 1⟩ belowHalf).1.mp loaded
    have halves : Ratio.number ⟨2, 4, by decide⟩ = Ratio.number ⟨1, 2, by decide⟩ :=
      Ratio.same_iff.mp (by decide)
    have unique := wellFormed.distinct
    simp [quarters, half, Node.key, Operator.label, halves] at unique
  obtain ⟨_, reloaded⟩ := reloads belowHalf_made
  have inside : (2 : NodeId) < belowHalf.size := by decide
  have again := reloaded 2 inside
  rw [if_pos (by decide)] at again
  exact ⟨⟨formula, loaded, restores formula loaded⟩, twice, belowHalf_made, _, again, rfl⟩

/-- A file with one constant, which no arena can hold. -/
def outsizedFile : FormulaFile :=
  ⟨[⟨.constant (.real ⟨Int64.minValue, -1, by decide⟩), [], .real⟩], 0⟩

/-- The file is well-formed, and it is refused. -/
theorem wellFormed_file_refused :
    outsizedFile.WellFormed ∧ Formula.load outsizedFile = .error .overflow := by
  refine ⟨⟨?_, List.nodup_singleton _, by decide⟩, by cbv⟩
  intro position node found
  have member := List.mem_of_getElem? found
  rw [outsizedFile, List.mem_singleton] at member
  simp [member]

end Formulary
