import Formulary.Proofs.Code.Renaming

namespace Formulary.Code

/-- The text above the prelude. -/
def Function.preamble (function : Function) : String := unlines function.header

/-- The text below the prelude. -/
def Function.body (function : Function) : String :=
  unlines function.definition ++ unlines function.driver

theorem Function.text_eq (function : Function) :
    function.text = function.preamble ++ prelude ++ function.body := by
  simp [text, preamble, body, String.append_assoc]

theorem Function.body_rename (naming : String → String) (function : Function) :
    (function.rename naming).body = function.body := by
  have sameDefinition : (function.rename naming).definition = function.definition := by
    simp [definition, Function.rename, Columns.rename, Function.comp_def]
  have sameDriver : (function.rename naming).driver = function.driver := by
    simp [driver, Function.rename, Columns.rename, List.mapIdx_eq_zipIdx_map, List.zipIdx_map,
      Function.comp_def]
  rw [body, body, sameDefinition, sameDriver]

/-- A text of so many lines, all of them comments. -/
def CommentLines (count : Nat) (text : String) : Prop :=
  ∃ lines : List String, text = unlines lines ∧ lines.length = count ∧
    ∀ line ∈ lines, "//".toList <+: line.toList ∧ '\n' ∉ line.toList

def feeds (text : String) : Nat := text.toList.count '\n'

theorem feeds_append (first second : String) :
    feeds (first ++ second) = feeds first + feeds second := by
  simp [feeds]

theorem feeds_eq_zero_iff {text : String} : feeds text = 0 ↔ '\n' ∉ text.toList :=
  List.count_eq_zero

theorem unlines_cons (line : String) (rest : List String) :
    unlines (line :: rest) = line ++ "\n" ++ unlines rest := by
  rw [← String.toList_inj]
  simp [unlines, String.toList_join]

theorem feeds_unlines (lines : List String) :
    feeds (unlines lines) = lines.length + (lines.map feeds).sum := by
  induction lines with
  | nil => rfl
  | cons line rest ih =>
    have one : feeds "\n" = 1 := rfl
    rw [unlines_cons, feeds_append, feeds_append, ih, one, List.map_cons, List.sum_cons,
      List.length_cons]
    omega

theorem CommentLines.feeds_eq {count : Nat} {text : String} (commented : CommentLines count text) :
    feeds text = count := by
  obtain ⟨lines, rfl, rfl, each⟩ := commented
  have none : (lines.map feeds).sum = 0 := by
    rw [List.sum_eq_zero_iff_forall_eq_nat]
    intro number member
    obtain ⟨line, listed, rfl⟩ := List.mem_map.mp member
    exact feeds_eq_zero_iff.mpr (each line listed).2
  rw [feeds_unlines, none, Nat.add_zero]

theorem feeds_number (number : Nat) : feeds (toString number) = 0 := by
  refine feeds_eq_zero_iff.mpr fun member => ?_
  have graphic := (Text.isSolid_number number).2 '\n' member
  cases graphic

theorem feeds_type (type : NativeType) : feeds type.name = 0 := by
  cases type with
  | bool | int | real => rfl
  | bitVec width =>
    have brackets : feeds "Bv<" = 0 ∧ feeds ">" = 0 := ⟨rfl, rfl⟩
    rw [NativeType.name, feeds_append, feeds_append, feeds_number, brackets.1, brackets.2]

theorem feeds_column (index : Nat) (column : Column) :
    feeds ("// column " ++ toString index ++ ": " ++ column.name ++ " (" ++ column.type.name ++
      ")") = feeds column.name := by
  have between : feeds "// column " = 0 ∧ feeds ": " = 0 ∧ feeds " (" = 0 ∧ feeds ")" = 0 :=
    ⟨rfl, rfl, rfl, rfl⟩
  simp only [feeds_append, feeds_number, feeds_type, between, Nat.zero_add, Nat.add_zero]

namespace Function

variable (function : Function)

theorem header_length : function.header.length = 1 + function.columns.list.length := by
  simp [header, Nat.add_comm]

theorem header_comments {line : String} (member : line ∈ function.header) :
    "//".toList <+: line.toList := by
  rcases List.mem_cons.mp member with rfl | listed
  · exact ⟨_, rfl⟩
  · obtain ⟨index, inside, rfl⟩ := List.mem_mapIdx.mp listed
    simp

theorem header_unbroken_iff :
    (∀ line ∈ function.header, '\n' ∉ line.toList) ↔
      ∀ column ∈ function.columns.list, '\n' ∉ column.name.toList := by
  constructor
  · intro unbroken column member
    obtain ⟨index, inside, rfl⟩ := List.mem_iff_getElem.mp member
    have line := unbroken _ (List.mem_cons_of_mem _ (List.mem_mapIdx.mpr ⟨index, inside, rfl⟩))
    rw [← feeds_eq_zero_iff, feeds_column] at line
    exact feeds_eq_zero_iff.mp line
  · intro unbroken line member
    rcases List.mem_cons.mp member with rfl | listed
    · exact feeds_eq_zero_iff.mp rfl
    · obtain ⟨index, inside, rfl⟩ := List.mem_mapIdx.mp listed
      rw [← feeds_eq_zero_iff, feeds_column]
      exact feeds_eq_zero_iff.mpr (unbroken _ (List.getElem_mem inside))

theorem preamble_commented_iff :
    CommentLines (1 + function.columns.list.length) function.preamble ↔
      ∀ column ∈ function.columns.list, '\n' ∉ column.name.toList := by
  rw [← header_unbroken_iff]
  constructor
  · intro commented line member
    have total := commented.feeds_eq
    rw [preamble, feeds_unlines, header_length] at total
    have none : (function.header.map feeds).sum = 0 := by omega
    have each := List.sum_eq_zero_iff_forall_eq_nat.mp none
    exact feeds_eq_zero_iff.mp (each _ (List.mem_map_of_mem member))
  · intro unbroken
    exact ⟨function.header, rfl, function.header_length, fun line member =>
      ⟨function.header_comments member, unbroken line member⟩⟩

end Function

/-- A program is its header, the prelude and what stands below it. The header has one line and one
for each column, all of them comments, exactly if no column's name has a line feed; and symbols
that are renamed within their identifiers change the header only. -/
theorem names_stay_in_header (formula : Formula) (function : Function)
    (lowered : formula.lower = .ok function) :
    formula.program = .ok ⟨function.columns, function.preamble ++ prelude ++ function.body⟩ ∧
      (CommentLines (1 + function.columns.list.length) function.preamble ↔
        ∀ column ∈ function.columns.list, '\n' ∉ column.name.toList) ∧
      ∀ naming : String → String,
        (∀ name sort, formula.HasSymbol name sort →
          identifierOf (naming name) = identifierOf name) →
        (formula.rename naming).program =
            .ok ⟨function.columns.rename naming,
              (function.rename naming).preamble ++ prelude ++ function.body⟩ ∧
          (CommentLines (1 + function.columns.list.length) (function.rename naming).preamble ↔
            ∀ column ∈ function.columns.list, '\n' ∉ (naming column.name).toList) := by
  refine ⟨?_, function.preamble_commented_iff, ?_⟩
  · rw [Formula.program, lowered, ← function.text_eq]
    rfl
  · intro naming same
    constructor
    · rw [Formula.program, lower_rename lowered same, ← function.body_rename naming,
        ← Function.text_eq]
      rfl
    · have commented := (function.rename naming).preamble_commented_iff
      simpa [Function.rename, Columns.rename] using commented

/-- Two symbols, one with a dot in its name. -/
def dottedPair : Formula where
  arena := .ofNodes #[⟨.symbol "x.y", [], .bool⟩, ⟨.symbol "z", [], .bool⟩, ⟨.and, [0, 1], .bool⟩]
  root := 2
  ordered := by decide
  rooted := by decide

def breakAtDots (name : String) : String :=
  name.map fun letter => if letter = '.' then '\n' else letter

theorem names_stay_in_header_dottedPair :
    ∃ function, dottedPair.lower = .ok function ∧ CommentLines 3 function.preamble ∧
      (dottedPair.rename breakAtDots).program =
        .ok ⟨function.columns.rename breakAtDots,
          (function.rename breakAtDots).preamble ++ prelude ++ function.body⟩ ∧
      ¬ CommentLines 3 (function.rename breakAtDots).preamble := by
  have same : ∀ name sort, dottedPair.HasSymbol name sort →
      identifierOf (breakAtDots name) = identifierOf name := by
    rintro name sort ⟨id, node, _, found, named, _⟩
    have member := Arena.mem_nodes found
    simp only [dottedPair, Arena.ofNodes, List.mem_cons, List.not_mem_nil, or_false] at member
    rcases member with rfl | rfl | rfl <;> cases named <;> cbv
  have columns : (dottedPair.lower.map fun function =>
      function.columns.list.map fun column => column.name) = .ok ["x.y", "z"] := by cbv
  cases lowered : dottedPair.lower with
  | error error =>
    rw [lowered] at columns
    cases columns
  | ok function =>
    obtain ⟨_, commented, renamed⟩ := names_stay_in_header dottedPair function lowered
    obtain ⟨program, broken⟩ := renamed breakAtDots same
    rw [lowered] at columns
    have names : function.columns.list.map (fun column => column.name) = ["x.y", "z"] :=
      Except.ok.inj columns
    have two : function.columns.list.length = 2 := by simpa using congrArg List.length names
    rw [two] at commented broken
    refine ⟨function, rfl, commented.mpr ?_, program, fun unbroken => ?_⟩
    · intro column member
      have listed : column.name ∈ ["x.y", "z"] := names ▸ List.mem_map_of_mem member
      rcases List.mem_pair.mp listed with named | named <;> rw [named] <;> decide
    · have listed : "x.y" ∈ function.columns.list.map fun column => column.name := by simp [names]
      obtain ⟨column, member, named⟩ := List.mem_map.mp listed
      have whole := broken.mp unbroken column member
      rw [named] at whole
      exact whole (by simp [breakAtDots])

/-- A symbol with a line feed in its name. -/
def brokenName : Formula where
  arena := .ofNodes #[⟨.symbol "a\nb", [], .bool⟩]
  root := 0
  ordered := by decide
  rooted := by decide

theorem header_broken :
    ∃ function, brokenName.lower = .ok function ∧
      function.preamble = "// Generated by smtsim. Do not edit.\n// column 0: a\nb (bool)\n" ∧
      ¬ CommentLines (1 + function.columns.list.length) function.preamble := by
  refine ⟨⟨⟨[⟨"a\nb", "v_a_b", .bool⟩]⟩, [], ⟨.argument "v_a_b", .bool, false⟩⟩, by cbv, by cbv, ?_⟩
  intro commented
  have unbroken := (Function.preamble_commented_iff _).mp commented ⟨"a\nb", "v_a_b", .bool⟩
    List.mem_cons_self
  exact unbroken (by decide)

end Formulary.Code
