import Formulary.Registry
import Mathlib.Data.List.Nodup
import Std.Data.HashMap.Lemmas

/-! Registries stay in step. After any calls, those that were refused among them, the tables of a
registry lead from the names and identifiers of its columns to their slots and from nothing else;
so no name and no identifier is there twice, and what the tables tell is what a search would. -/
namespace Formulary

def Slots (table : Std.HashMap String Nat) (keys : List String) : Prop :=
  ∀ (key : String) (slot : Nat), table[key]? = some slot ↔ keys[slot]? = some key

namespace Slots

variable {table : Std.HashMap String Nat} {keys : List String} {key : String}

theorem nil : Slots ∅ [] := by
  intro key slot
  simp

theorem nodup (slots : Slots table keys) : keys.Nodup := by
  rw [List.nodup_iff_getElem?_ne_getElem?]
  intro first second before inside same
  have found := List.getElem?_eq_getElem inside
  have here := (slots _ _).mpr (same.trans found)
  have there := (slots _ _).mpr found
  rw [here] at there
  cases there
  exact Nat.lt_irrefl _ before

theorem absent_iff (slots : Slots table keys) : table[key]? = none ↔ key ∉ keys := by
  rw [List.mem_iff_getElem?, Option.eq_none_iff_forall_ne_some]
  simp only [ne_eq, slots key, not_exists]

/-- A key that was not there gets the next slot. -/
theorem append (slots : Slots table keys) (new : key ∉ keys) :
    Slots (table.insert key keys.length) (keys ++ [key]) := by
  intro other slot
  rw [Std.HashMap.getElem?_insert, List.getElem?_append]
  by_cases same : key = other
  · subst same
    rw [if_pos (beq_self_eq_true key)]
    split
    · rename_i old
      constructor
      · rintro ⟨⟩
        exact absurd old (Nat.lt_irrefl _)
      · intro found
        exact absurd (List.mem_of_getElem? found) new
    · rename_i late
      rw [List.getElem?_singleton]
      split <;> simp <;> omega
  · rw [if_neg (by simpa using same), slots other slot]
    split
    · rfl
    · rename_i late
      rw [List.getElem?_eq_none (Nat.not_lt.mp late), List.getElem?_singleton]
      split <;> simp [same]

end Slots

/-- A letter of identifiers: an ASCII letter, a digit or an underscore. -/
def IsWordLetter (letter : Char) : Prop :=
  ('A' ≤ letter ∧ letter ≤ 'Z') ∨ ('a' ≤ letter ∧ letter ≤ 'z') ∨ ('0' ≤ letter ∧ letter ≤ '9') ∨
    letter = '_'

/-- Identifiers of columns are letters of identifiers, after a start that all of them have. -/
def IsIdentifier (text : String) : Prop :=
  ∃ body : String, text = "v_" ++ body ∧ ∀ letter ∈ body.toList, IsWordLetter letter

theorem isWordLetter_of_isAlphanum {letter : Char} (plain : letter.isAlphanum = true) :
    IsWordLetter letter := by
  have between {low high : Char}
      (inside : (decide (low ≤ letter) && decide (letter ≤ high)) = true) :
      low ≤ letter ∧ letter ≤ high := by
    simpa using inside
  rcases Bool.or_eq_true_iff.mp plain with alpha | digit
  · rcases Bool.or_eq_true_iff.mp alpha with upper | lower
    · exact .inl (of_decide_eq_true upper)
    · exact .inr (.inl (between lower))
  · exact .inr (.inr (.inl (between digit)))

theorem isIdentifier_identifierOf (name : String) : IsIdentifier (identifierOf name) := by
  refine ⟨_, rfl, fun letter member => ?_⟩
  rw [String.toList_map, List.mem_map] at member
  obtain ⟨original, _, rfl⟩ := member
  split
  · rename_i kept
    rcases Bool.or_eq_true _ _ ▸ kept with plain | underscore
    · exact isWordLetter_of_isAlphanum plain
    · exact .inr (.inr (.inr (of_decide_eq_true underscore)))
  · exact .inr (.inr (.inr rfl))

namespace Registry

variable {registry : Registry} {name : String} {type : NativeType}

/-- The names of the columns, by slot. -/
def names (registry : Registry) : List String := registry.columns.list.map (·.name)

def identifiers (registry : Registry) : List String := registry.columns.list.map (·.identifier)

/-- The tables are in step with the columns. -/
structure InStep (registry : Registry) : Prop where
  byName : Slots registry.byName registry.names
  byIdentifier : Slots registry.byIdentifier registry.identifiers
  spelled : ∀ column ∈ registry.columns.list, column.identifier = identifierOf column.name

/-- Everything that a call can do to a registry in step. -/
inductive Registers (registry : Registry) (name : String) (type : NativeType) :
    Except Error String × Registry → Prop where
  | known {column : Column} (member : column ∈ registry.columns.list)
      (named : column.name = name) (typed : column.type = type) :
      Registers registry name type (.ok column.identifier, registry)
  | retyped {column : Column} (member : column ∈ registry.columns.list)
      (named : column.name = name) (other : column.type ≠ type) :
      Registers registry name type
        (.error (.typeClash name column.type type column.identifier), registry)
  | claimed {column : Column} (unnamed : name ∉ registry.names)
      (member : column ∈ registry.columns.list)
      (identified : column.identifier = identifierOf name) :
      Registers registry name type
        (.error (.nameClash column.name name (identifierOf name)), registry)
  | added (unnamed : name ∉ registry.names) (unclaimed : identifierOf name ∉ registry.identifiers) :
      Registers registry name type
        (.ok (identifierOf name), registry.add ⟨name, identifierOf name, type⟩)

theorem InStep.empty : Registry.empty.InStep := by
  refine ⟨.nil, .nil, ?_⟩
  intro column member
  cases member

/-- A column whose name and identifier are new keeps the tables in step. -/
theorem InStep.add (inStep : registry.InStep) (unnamed : name ∉ registry.names)
    (unclaimed : identifierOf name ∉ registry.identifiers) :
    (registry.add ⟨name, identifierOf name, type⟩).InStep := by
  have named := inStep.byName.append unnamed
  have identified := inStep.byIdentifier.append unclaimed
  rw [names, List.length_map] at named
  rw [identifiers, List.length_map] at identified
  refine ⟨?_, ?_, ?_⟩
  · rw [names, Registry.add, List.map_append]
    exact named
  · rw [identifiers, Registry.add, List.map_append]
    exact identified
  · intro column member
    rcases List.mem_append.mp member with old | new
    · exact inStep.spelled column old
    · rw [List.mem_singleton.mp new]

theorem column_at {key : Column → String} {text : String} {slot : Nat}
    (found : (registry.columns.list.map key)[slot]? = some text) :
    ∃ column ∈ registry.columns.list, registry.columns.list[slot]? = some column ∧
      key column = text := by
  rw [List.getElem?_map, Option.map_eq_some_iff] at found
  obtain ⟨column, here, rfl⟩ := found
  exact ⟨column, List.mem_of_getElem? here, here, rfl⟩

theorem register_registers (inStep : registry.InStep) (name : String) (type : NativeType) :
    Registers registry name type (registry.register name type) := by
  unfold register
  cases slotOf : registry.byName[name]? with
  | some slot =>
    obtain ⟨column, member, here, named⟩ := column_at ((inStep.byName name slot).mp slotOf)
    simp only [here]
    split
    · rename_i typed
      exact .known member named typed
    · rename_i other
      exact .retyped member named other
  | none =>
    have unnamed := inStep.byName.absent_iff.mp slotOf
    dsimp only
    cases slotOfIdentifier : registry.byIdentifier[identifierOf name]? with
    | some slot =>
      obtain ⟨column, member, here, identified⟩ :=
        column_at ((inStep.byIdentifier _ slot).mp slotOfIdentifier)
      simp only [here]
      exact .claimed unnamed member identified
    | none => exact .added unnamed (inStep.byIdentifier.absent_iff.mp slotOfIdentifier)

theorem Registers.inStep {outcome : Except Error String × Registry}
    (registers : Registers registry name type outcome) (inStep : registry.InStep) :
    outcome.2.InStep := by
  cases registers with
  | known | retyped | claimed => exact inStep
  | added unnamed unclaimed => exact inStep.add unnamed unclaimed

/-- Where no key is there twice, a search finds the column that has it. -/
theorem find_column {key : Column → String} {columns : List Column} {column : Column}
    (once : (columns.map key).Nodup) (member : column ∈ columns) :
    (columns.find? fun other => key other = key column) = some column := by
  induction columns with
  | nil => cases member
  | cons first rest ih =>
    obtain ⟨apart, later⟩ := List.nodup_cons.mp once
    rcases List.mem_cons.mp member with rfl | inRest
    · rw [List.find?_cons_of_pos (by simp)]
    · have different : key first ≠ key column := fun same =>
        apart (same ▸ List.mem_map_of_mem inRest)
      rw [List.find?_cons_of_neg (by simpa using different)]
      exact ih later inRest

theorem find_nothing {key : Column → String} {columns : List Column} {text : String}
    (absent : text ∉ columns.map key) :
    (columns.find? fun other => key other = text) = none := by
  rw [List.find?_eq_none]
  intro column member same
  exact absent (List.mem_map.mpr ⟨column, member, of_decide_eq_true same⟩)

/-- The tables tell what a search would find. -/
theorem register_searches (inStep : registry.InStep) (name : String) (type : NativeType) :
    registry.columns.register name type =
      (registry.register name type).1.map
        fun identifier => (identifier, (registry.register name type).2.columns) := by
  have registers := register_registers inStep name type
  generalize registry.register name type = outcome at registers
  have once := inStep.byName.nodup
  cases registers with
  | known member named typed =>
    subst named
    simp [Columns.register, Columns.named?, find_column once member, typed, Except.map]
  | retyped member named other =>
    subst named
    simp [Columns.register, Columns.named?, find_column once member, other, Except.map]
  | claimed unnamed member identified =>
    have claimant := find_column inStep.byIdentifier.nodup member
    rw [identified] at claimant
    simp [Columns.register, Columns.named?, Columns.identified?, find_nothing unnamed, claimant,
      Except.map]
  | added unnamed unclaimed =>
    simp [Columns.register, Columns.named?, Columns.identified?, find_nothing unnamed,
      find_nothing unclaimed, Except.map, Registry.add]

/-- The registry that is left by calls, one after another. -/
def after (registry : Registry) : List (String × NativeType) → Registry
  | [] => registry
  | (name, type) :: rest => (registry.register name type).2.after rest

/-- The names for which calls, one after another, have succeeded. -/
def accepted (registry : Registry) : List (String × NativeType) → List String
  | [] => []
  | (name, type) :: rest =>
    let outcome := registry.register name type
    (if outcome.1.isOk then [name] else []) ++ outcome.2.accepted rest

theorem InStep.after (inStep : registry.InStep) (calls : List (String × NativeType)) :
    (registry.after calls).InStep := by
  induction calls generalizing registry with
  | nil => exact inStep
  | cons call rest ih => exact ih ((register_registers inStep call.1 call.2).inStep inStep)

theorem names_add (registry : Registry) (column : Column) :
    (registry.add column).names = registry.names ++ [column.name] := List.map_append

theorem removeAll_append (keys seen : List String) (key : String) :
    keys.removeAll (seen ++ [key]) = (keys.removeAll seen).filter fun other => !other == key := by
  rw [List.removeAll, List.removeAll, List.filter_filter]
  apply List.filter_congr
  intro other _
  simp [beq_eq_decide, Bool.and_comm]

theorem names_after (inStep : registry.InStep) (calls : List (String × NativeType)) :
    (registry.after calls).names =
      registry.names ++ ((registry.accepted calls).removeAll registry.names).eraseDups := by
  induction calls generalizing registry with
  | nil => simp [after, accepted]
  | cons call rest ih =>
    obtain ⟨name, type⟩ := call
    have registers := register_registers inStep name type
    have later := ih (registers.inStep inStep)
    rw [after, later, accepted]
    generalize registry.register name type = outcome at registers
    cases registers with
    | known member named typed =>
      have present : name ∈ registry.names := named ▸ List.mem_map_of_mem member
      simp [List.removeAll, Except.isOk, Except.toBool, present]
    | retyped | claimed => simp [Except.isOk, Except.toBool]
    | added unnamed unclaimed =>
      have first (others : List String) :
          (name :: others).removeAll registry.names = name :: others.removeAll registry.names :=
        List.filter_cons_of_pos (by simpa using unnamed)
      simp only [names_add, Except.isOk, Except.toBool, if_true, List.singleton_append, first,
        List.eraseDups_cons, removeAll_append, List.append_assoc]

/-- The columns have distinct names and distinct identifiers, spelled after the names, and the
tables tell their slots. -/
structure Indexed (registry : Registry) : Prop where
  names : registry.names.Nodup
  identifiers : registry.identifiers.Nodup
  spelled : ∀ column ∈ registry.columns.list,
    column.identifier = identifierOf column.name ∧ IsIdentifier column.identifier
  byName : Slots registry.byName registry.names
  byIdentifier : Slots registry.byIdentifier registry.identifiers

theorem InStep.indexed (inStep : registry.InStep) : registry.Indexed where
  names := inStep.byName.nodup
  identifiers := inStep.byIdentifier.nodup
  spelled column member := by
    rw [inStep.spelled column member]
    exact ⟨rfl, isIdentifier_identifierOf column.name⟩
  byName := inStep.byName
  byIdentifier := inStep.byIdentifier

/-- A symbol is accepted if it has a column of its type, or if its name and its identifier are
both new; in the second case only there is a change, which is a column at the end. -/
structure Decides (registry : Registry) (name : String) (type : NativeType)
    (outcome : Except Error String × Registry) : Prop where
  accepts : outcome.1.isOk = true ↔
    (∃ column ∈ registry.columns.list, column.name = name ∧ column.type = type) ∨
      name ∉ registry.names ∧ identifierOf name ∉ registry.identifiers
  answers : ∀ identifier, outcome.1 = .ok identifier → identifier = identifierOf name
  refuses : outcome.1.isOk = false → outcome.2 = registry
  recalls : name ∈ registry.names → outcome.2 = registry
  grows : outcome.1.isOk = true → name ∉ registry.names →
    outcome.2.columns.list = registry.columns.list ++ [⟨name, identifierOf name, type⟩]

/-- A refusal is right where neither of the two reasons to accept is there. -/
theorem Decides.refusal (error : Error)
    (unlisted : ¬ ∃ column ∈ registry.columns.list, column.name = name ∧ column.type = type)
    (taken : ¬(name ∉ registry.names ∧ identifierOf name ∉ registry.identifiers)) :
    registry.Decides name type (.error error, registry) where
  accepts := by
    constructor
    · intro accepted
      cases accepted
    · rintro (listed | free)
      · exact absurd listed unlisted
      · exact absurd free taken
  answers := by
    intro identifier accepted
    cases accepted
  refuses := fun _ => rfl
  recalls := fun _ => rfl
  grows := by
    intro accepted
    cases accepted

theorem Registers.decides {outcome : Except Error String × Registry}
    (registers : Registers registry name type outcome) (inStep : registry.InStep) :
    registry.Decides name type outcome := by
  cases registers with
  | @known column member named typed =>
    have present : name ∈ registry.names := named ▸ List.mem_map_of_mem member
    constructor
    case accepts => exact ⟨fun _ => .inl ⟨column, member, named, typed⟩, fun _ => rfl⟩
    case answers =>
      rintro identifier ⟨⟩
      rw [inStep.spelled column member, named]
    case refuses =>
      intro refused
      cases refused
    case recalls => exact fun _ => rfl
    case grows => exact fun _ absent => absurd present absent
  | @retyped column member named other =>
    refine .refusal _ ?_ fun free => free.1 (named ▸ List.mem_map_of_mem member)
    rintro ⟨second, there, sameName, sameType⟩
    have same := List.inj_on_of_nodup_map inStep.byName.nodup there member
      (sameName.trans named.symm)
    exact other (same ▸ sameType)
  | @claimed column unnamed member identified =>
    refine .refusal _ ?_ fun free => free.2 (identified ▸ List.mem_map_of_mem member)
    rintro ⟨second, there, sameName, _⟩
    exact unnamed (sameName ▸ List.mem_map_of_mem there)
  | added unnamed unclaimed =>
    constructor
    case accepts => exact ⟨fun _ => .inr ⟨unnamed, unclaimed⟩, fun _ => rfl⟩
    case answers =>
      rintro identifier ⟨⟩
      rfl
    case refuses =>
      intro refused
      cases refused
    case recalls => exact fun present => absurd present unnamed
    case grows => exact fun _ _ => rfl

end Registry

/-- After any calls, from the empty registry on, accepted and refused ones: the tables are in step
with the columns; the next call is decided by name, type and identifier, and changes nothing
unless it brings a new name; the columns are there in the order in which their names were first
accepted; and the registry answers as its columns would if they were searched. -/
theorem registry_stays_in_step (calls : List (String × NativeType)) :
    let registry := Registry.empty.after calls
    registry.Indexed ∧
      (∀ name type, registry.Decides name type (registry.register name type)) ∧
      registry.names = (Registry.empty.accepted calls).eraseDups ∧
      ∀ name type, registry.columns.register name type =
        (registry.register name type).1.map
          fun identifier => (identifier, (registry.register name type).2.columns) := by
  intro registry
  have inStep := Registry.InStep.empty.after calls
  have names := Registry.names_after Registry.InStep.empty calls
  refine ⟨inStep.indexed, fun name type => ?_, ?_, Registry.register_searches inStep⟩
  · exact (Registry.register_registers inStep name type).decides inStep
  · rw [names]
    simp [Registry.names, Registry.empty, Columns.empty, List.removeAll]

end Formulary
