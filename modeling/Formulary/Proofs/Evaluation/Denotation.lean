import Formulary.Proofs.Evaluation.Soundness
import Formulary.Proofs.Vectors

/-! What formulas of truth values and bit-vectors mean, after SMT-LIB. Meanings are vectors of
any width, not words; on words of 64 bits the evaluator computes the same. -/
namespace Formulary

inductive Meaning where
  | truth (holds : Bool)
  | vector {width : Nat} (bits : BitVec width)
deriving DecidableEq

namespace Meaning

/-- A literal has the bits of its width only. Numbers have no meaning here. -/
def ofLiteral? : Literal → Option Meaning
  | .bool value => some (truth value)
  | .bitVec bits width => some (vector (BitVec.ofNat width bits.toNat))
  | .int _ | .real _ => none

def onTruths (compute : Bool → Bool → Bool) : Meaning → Meaning → Option Meaning
  | truth p, truth q => some (truth (compute p q))
  | _, _ => none

def onVectors (compute : {width : Nat} → BitVec width → BitVec width → Meaning) :
    Meaning → Meaning → Option Meaning
  | @vector v x, @vector w y => if same : w = v then some (compute x (y.cast same)) else none
  | _, _ => none

def onVector (compute : {width : Nat} → BitVec width → Option Meaning) :
    Meaning → Option Meaning
  | vector x => compute x
  | truth _ => none

def equality : Meaning → Meaning → Option Meaning
  | truth p, truth q => some (truth (p == q))
  | left, right => onVectors (fun x y => truth (x == y)) left right

def alone (compute : Meaning → Option Meaning) : List Meaning → Option Meaning
  | [only] => compute only
  | _ => none

def both (compute : Meaning → Meaning → Option Meaning) : List Meaning → Option Meaning
  | [left, right] => compute left right
  | _ => none

/-- Meanings joined from the left, at least one. -/
def folded (step : Meaning → Meaning → Option Meaning) : List Meaning → Option Meaning
  | [] => none
  | first :: rest => rest.foldlM step first

end Meaning

open Meaning in
/-- The meaning of an operator on truth values and vectors. Bit 0 is the least significant,
and the first vector of a concatenation the more significant part; arithmetic is modulo two to
the width; vectors are divided, shifted and compared as in SMT-LIB. -/
def Operator.meaning (operator : Operator) (arguments : List Meaning) : Option Meaning :=
  match operator with
  | .constant literal => ofLiteral? literal
  | .not =>
    match arguments with
    | [truth p] => some (truth !p)
    | _ => none
  | .and => folded (onTruths (· && ·)) arguments
  | .or => folded (onTruths (· || ·)) arguments
  | .implies => both (onTruths fun p q => !p || q) arguments
  | .iff => both (onTruths (· == ·)) arguments
  | .equals => both equality arguments
  | .ite =>
    match arguments with
    | [truth condition, first, second] => some (if condition then first else second)
    | _ => none
  | .bvNot => alone (onVector fun x => some (vector (~~~x))) arguments
  | .bvNeg => alone (onVector fun x => some (vector (-x))) arguments
  | .bvAnd => folded (onVectors fun x y => vector (x &&& y)) arguments
  | .bvOr => folded (onVectors fun x y => vector (x ||| y)) arguments
  | .bvXor => folded (onVectors fun x y => vector (x ^^^ y)) arguments
  | .bvAdd => both (onVectors fun x y => vector (x + y)) arguments
  | .bvSub => both (onVectors fun x y => vector (x - y)) arguments
  | .bvMul => both (onVectors fun x y => vector (x * y)) arguments
  | .bvUDiv => both (onVectors fun x y => vector (x.smtUDiv y)) arguments
  | .bvSDiv => both (onVectors fun x y => vector (x.smtSDiv y)) arguments
  | .bvShl => both (onVectors fun x y => vector (x <<< y)) arguments
  | .bvLShr => both (onVectors fun x y => vector (x >>> y)) arguments
  | .bvAShr => both (onVectors fun x y => vector (x.sshiftRight' y)) arguments
  | .bvULt => both (onVectors fun x y => truth (x.ult y)) arguments
  | .bvULe => both (onVectors fun x y => truth (x.ule y)) arguments
  | .bvSLt => both (onVectors fun x y => truth (x.slt y)) arguments
  | .bvSLe => both (onVectors fun x y => truth (x.sle y)) arguments
  | .bvComp => both (onVectors fun x y => vector (BitVec.ofBool (x == y))) arguments
  | .bvExtract low high =>
    alone (onVector fun {width} x =>
      if low ≤ high ∧ high < width then some (vector (x.extractLsb high low)) else none) arguments
  | .bvConcat =>
    match arguments with
    | [vector x, vector y] => some (vector (x ++ y))
    | _ => none
  | _ => none

/-- The meaning of a node, given its children's; a row gives a symbol its meaning. -/
def Node.meaning (node : Node) (row : Row) (arguments : List Meaning) : Option Meaning :=
  match node.operator with
  | .symbol name => (row.get? name).bind Meaning.ofLiteral?
  | operator => operator.meaning arguments

def Arena.meaningAt (arena : Arena) (ordered : arena.Ordered) (row : Row) (id : NodeId) :
    Option Meaning :=
  match found : arena.node? id with
  | none => none
  | some node => do
    let arguments ← node.children.attach.mapM fun child =>
      have := ordered id node found child.1 child.2
      arena.meaningAt ordered row child.1
    node.meaning row arguments
termination_by id.val

def Formula.meaning (formula : Formula) (row : Row) : Option Meaning :=
  formula.arena.meaningAt formula.ordered row formula.root

/-- Truth values and vectors. -/
def TermSort.Vectorial (sort : TermSort) : Prop := sort = .bool ∨ ∃ width, sort = .bitVec width

/-- Every node that the root depends on is a truth value or a vector. -/
def Formula.Vectorial (formula : Formula) : Prop :=
  ∀ id node, formula.arena.Reaches formula.root id → formula.arena.node? id = some node →
    node.sort.Vectorial

theorem TermSort.Vectorial.native {sort : TermSort} (vectorial : sort.Vectorial)
    (narrow : sort.Narrow) : ∃ type, sort.native = .ok type := by
  rcases vectorial with rfl | ⟨width, rfl⟩
  · exact ⟨.bool, rfl⟩
  · exact ⟨.bitVec width, if_pos narrow⟩

theorem Arena.meaningAt_found {arena : Arena} {ordered : arena.Ordered} {row : Row}
    {id : NodeId} {node : Node} (found : arena.node? id = some node) :
    arena.meaningAt ordered row id =
      (node.children.mapM (arena.meaningAt ordered row)).bind (node.meaning row) := by
  rw [meaningAt]
  split
  · rename_i missing
    rw [found] at missing
    cases missing
  · rename_i stored again
    rw [found] at again
    cases again
    rw [List.mapM_subtype (g := arena.meaningAt ordered row) (fun _ _ => rfl),
      List.unattach_attach]
    rfl

namespace Meaning

/-- The machine value of a meaning: a vector stands in the low bits of a word. -/
def value : Meaning → Value
  | truth holds => .bool holds
  | @vector width bits => .bitVec (Word.ofVector bits) width

theorem of_bool {meaning : Meaning} (typed : meaning.value.HasSort .bool) :
    ∃ holds, meaning = truth holds := by
  cases meaning with
  | truth holds => exact ⟨holds, rfl⟩
  | vector bits => cases typed

theorem of_bitVec {meaning : Meaning} {width : Nat}
    (typed : meaning.value.HasSort (.bitVec width)) : ∃ x : BitVec width, meaning = vector x := by
  cases meaning with
  | truth holds => cases typed
  | vector bits =>
    cases typed
    exact ⟨bits, rfl⟩

theorem not_numeric {meaning : Meaning} {sort : TermSort} (typed : meaning.value.HasSort sort) :
    ¬sort.Numeric := by
  rintro (rfl | rfl) <;> cases meaning <;> cases typed

theorem value_vector {width : Nat} (narrow : width ≤ 64) (bits : UInt64) :
    Value.vector bits width = (vector (Word.cut width bits)).value := by
  rw [Value.vector, Word.and_lowBits narrow]
  rfl

theorem of_literal {literal : Literal} (vectorial : literal.sort.Vectorial)
    (narrow : literal.sort.Narrow) :
    ∃ meaning, ofLiteral? literal = some meaning ∧ Value.ofLiteral literal = meaning.value := by
  cases literal with
  | bool holds => exact ⟨truth holds, rfl, rfl⟩
  | bitVec bits width =>
    refine ⟨_, rfl, ?_⟩
    rw [Value.ofLiteral, value_vector narrow.2, Word.cut, ← BitVec.ofNat_toNat]
    rfl
  | int value | real value => rcases vectorial with isBool | ⟨width, isVector⟩ <;> contradiction

/-- A vector's machine value comes from any word with the right low bits. -/
theorem word_value {width : Nat} (narrow : width ≤ 64) {bits : Option UInt64} {x : BitVec width}
    (computed : bits.map (Word.cut width) = some x) :
    Application.word width bits = .ok (vector x).value := by
  obtain ⟨word, rfl, rfl⟩ := Option.map_eq_some_iff.mp computed
  rw [Application.word, value_vector narrow]

theorem onVectors_same (compute : {width : Nat} → BitVec width → BitVec width → Meaning)
    {width : Nat} (x y : BitVec width) :
    onVectors compute (vector x) (vector y) = some (compute x y) := by
  simp [onVectors]

theorem values_pair {width : Nat} (x y : BitVec width) :
    [vector x, vector y].map value =
      [.bitVec (Word.ofVector x) width, .bitVec (Word.ofVector y) width] := rfl

theorem folded_vectors (step : {width : Nat} → BitVec width → BitVec width → BitVec width)
    {width : Nat} (x : BitVec width) (rest : List (BitVec width)) :
    folded (onVectors fun x y => vector (step x y)) ((x :: rest).map vector) =
      some (vector (rest.foldl step x)) := by
  rw [List.map_cons, folded]
  induction rest generalizing x with
  | nil => rfl
  | cons y rest ih =>
    rw [List.map_cons, List.foldlM_cons, onVectors_same, List.foldl_cons]
    exact ih (step x y)

theorem folded_truths (step : Bool → Bool → Bool) (p : Bool) (rest : List Bool) :
    folded (onTruths step) ((p :: rest).map truth) = some (truth (rest.foldl step p)) := by
  rw [List.map_cons, folded]
  induction rest generalizing p with
  | nil => rfl
  | cons q rest ih => exact ih (step p q)

/-- Joining words from the left and cutting the result is joining the vectors. -/
theorem cut_foldl {width : Nat} (narrow : width ≤ 64) {step : UInt64 → UInt64 → UInt64}
    {stepVector : BitVec width → BitVec width → BitVec width}
    (commutes : ∀ a b, Word.cut width (step a b) = stepVector (Word.cut width a) (Word.cut width b))
    (x : BitVec width) (rest : List (BitVec width)) :
    Word.cut width ((rest.map Word.ofVector).foldl step (Word.ofVector x)) =
      rest.foldl stepVector x := by
  suffices general : ∀ bits, Word.cut width ((rest.map Word.ofVector).foldl step bits) =
      rest.foldl stepVector (Word.cut width bits) by
    rw [general, Word.cut_ofVector narrow]
  induction rest with
  | nil => exact fun _ => rfl
  | cons y rest ih =>
    intro bits
    rw [List.map_cons, List.foldl_cons, ih, commutes, Word.cut_ofVector narrow, List.foldl_cons]

end Meaning

namespace Operator

open Meaning

variable {operator : Operator}

def MeansValue (operator : Operator) (arguments : List Meaning) : Prop :=
  ∃ meaning, operator.meaning arguments = some meaning ∧
    Application.value ⟨operator, arguments.map Meaning.value⟩ = .ok meaning.value

theorem word_means {width : Nat}
    (member : operator ∈
      [.bvShl, .bvLShr, .bvAShr, .bvAdd, .bvSub, .bvMul, .bvUDiv, .bvSDiv])
    (positive : 1 ≤ width) (narrow : width ≤ 64) (x y : BitVec width) :
    operator.MeansValue [vector x, vector y] := by
  have cutX := Word.cut_ofVector narrow x
  have cutY := Word.cut_ofVector narrow y
  fin_cases member <;>
    simp only [MeansValue, meaning, both, onVectors_same, Application.value, values_pair,
      Application.onVectors_pair] <;>
    refine ⟨_, rfl, ?_⟩
  · exact word_value narrow (Word.shiftLeft?_ofVector narrow x y)
  · exact word_value narrow (Word.shiftRight?_ofVector narrow x y)
  · exact word_value narrow (Word.shiftRightSigned?_ofVector narrow positive x y)
  · rw [value_vector narrow, Word.cut_add narrow, cutX, cutY]
  · rw [value_vector narrow, Word.cut_sub narrow, cutX, cutY]
  · rw [value_vector narrow, Word.cut_mul narrow, cutX, cutY]
  · rw [value_vector narrow, Word.divUnsigned_ofVector narrow]
  · exact word_value narrow (Word.divSigned?_ofVector narrow positive x y)

theorem order_means {width : Nat} (member : operator ∈ [.bvULt, .bvULe, .bvSLt, .bvSLe])
    (positive : 1 ≤ width) (narrow : width ≤ 64) (x y : BitVec width) :
    operator.MeansValue [vector x, vector y] := by
  fin_cases member <;>
    simp only [MeansValue, meaning, both, onVectors_same, Application.value, values_pair,
      Application.onVectors_pair, Application.compareSigned,
      Word.signed?_ofVector narrow positive] <;>
    refine ⟨_, rfl, ?_⟩
  · rw [BitVec.ult_eq_decide]
    simp only [UInt64.lt_iff_toNat_lt, Word.toNat_ofVector narrow]
    rfl
  · rw [BitVec.ule_eq_decide]
    simp only [UInt64.le_iff_toNat_le, Word.toNat_ofVector narrow]
    rfl
  · rw [BitVec.slt_eq_decide]
    simp only [Int64.lt_iff_toInt_lt, Word.toInt_signExtend narrow]
    rfl
  · rw [BitVec.sle_eq_decide]
    simp only [Int64.le_iff_toInt_le, Word.toInt_signExtend narrow]
    rfl

theorem bitwise_means {width : Nat} (member : operator ∈ [.bvAnd, .bvOr, .bvXor])
    (narrow : width ≤ 64) (x : BitVec width) (rest : List (BitVec width)) :
    operator.MeansValue ((x :: rest).map vector) := by
  have values : ((x :: rest).map vector).map Meaning.value =
      (Word.ofVector x :: rest.map Word.ofVector).map (.bitVec · width) := by
    simp [Meaning.value, Function.comp_def]
  fin_cases member <;>
    simp only [MeansValue, meaning, folded_vectors, Application.value, values,
      Application.bitwise_vectors] <;>
    refine ⟨_, rfl, ?_⟩ <;> rw [value_vector narrow, cut_foldl narrow]
  · exact fun _ _ => BitVec.setWidth_and
  · exact fun _ _ => BitVec.setWidth_or
  · exact fun _ _ => BitVec.setWidth_xor

theorem inversion_means {width : Nat} (member : operator ∈ [.bvNot, .bvNeg])
    (narrow : width ≤ 64) (x : BitVec width) : operator.MeansValue [vector x] := by
  fin_cases member
  · refine ⟨vector (~~~x), rfl, ?_⟩
    have kept : Value.vector (~~~Word.ofVector x) width = (vector (~~~x)).value := by
      rw [value_vector narrow, Word.cut_not narrow, Word.cut_ofVector narrow]
    exact congrArg Except.ok kept
  · refine ⟨vector (-x), rfl, ?_⟩
    have kept : Value.vector (-Word.ofVector x) width = (vector (-x)).value := by
      rw [value_vector narrow, Word.cut_neg narrow, Word.cut_ofVector narrow]
    exact congrArg Except.ok kept

theorem junction_means (member : operator ∈ [.and, .or]) (p : Bool) (rest : List Bool) :
    operator.MeansValue ((p :: rest).map truth) := by
  have values : ((p :: rest).map truth).map Meaning.value = (p :: rest).map .bool := by
    simp [Meaning.value, Function.comp_def]
  fin_cases member <;>
    simp only [MeansValue, meaning, folded_truths, Application.value, values,
      Value.bools?_map] <;>
    refine ⟨_, rfl, ?_⟩
  · rw [foldl_and]
    rfl
  · rw [foldl_or]
    rfl

theorem equals_means {left right : Meaning} {sort : TermSort} (narrow : sort.Narrow)
    (first : left.value.HasSort sort) (second : right.value.HasSort sort) :
    Operator.equals.MeansValue [left, right] := by
  cases left with
  | truth p =>
    cases first
    obtain ⟨q, rfl⟩ := of_bool second
    exact ⟨truth (p == q), rfl, rfl⟩
  | @vector width x =>
    cases first
    obtain ⟨y, rfl⟩ := of_bitVec second
    refine ⟨truth (x == y), onVectors_same (fun x y => truth (x == y)) x y, ?_⟩
    have compared : (Word.ofVector x == Word.ofVector y) = (x == y) := by
      rw [Bool.eq_iff_iff, beq_iff_eq, beq_iff_eq, Word.ofVector_inj narrow.2]
    have same : (vector x).value.same (vector y).value = (x == y) := by
      simp [Meaning.value, Value.same, compared]
    exact congrArg (fun holds => Except.ok (Value.bool holds)) same

theorem sameBits_means {width : Nat} (narrow : width ≤ 64) (x y : BitVec width) :
    Operator.bvComp.MeansValue [vector x, vector y] := by
  simp only [MeansValue, meaning, both, onVectors_same, Application.value, values_pair,
    Application.onVectors_pair]
  refine ⟨_, rfl, ?_⟩
  by_cases same : x = y
  · simp only [same, if_true, beq_self_eq_true]
    rfl
  · simp only [Word.ofVector_inj narrow, same, if_false, beq_eq_false_iff_ne.mpr same]
    rfl

theorem extract_means {low high width : Nat} (forward : low ≤ high) (inside : high < width)
    (narrow : width ≤ 64) (x : BitVec width) :
    (Operator.bvExtract low high).MeansValue [vector x] := by
  have start : low.toUInt64.toNat = low := by
    rw [Nat.toUInt64_eq, UInt64.toNat_ofNat']
    omega
  have taken : Word.cut (high - low + 1) (Word.ofVector x >>> low.toUInt64) =
      x.extractLsb high low := by
    rw [Word.cut, Word.toBitVec_shiftRight _ (by omega), start]
    exact Word.setWidth_extract narrow x low high
  refine ⟨vector (x.extractLsb high low), if_pos ⟨forward, inside⟩, ?_⟩
  rw [← taken, ← value_vector (by omega)]
  exact Application.extract_vector _ _ forward inside narrow

theorem concat_means {high low : Nat} (positive : 1 ≤ high) (narrow : high + low ≤ 64)
    (x : BitVec high) (y : BitVec low) : Operator.bvConcat.MeansValue [vector x, vector y] := by
  have above : low.toUInt64.toNat = low := by
    rw [Nat.toUInt64_eq, UInt64.toNat_ofNat']
    omega
  have joined : Word.cut (high + low) (Word.ofVector x <<< low.toUInt64 ||| Word.ofVector y) =
      x ++ y := by
    rw [Word.cut, UInt64.toBitVec_or, Word.toBitVec_shiftLeft _ (by omega), above]
    exact Word.setWidth_append narrow x y
  refine ⟨vector (x ++ y), rfl, ?_⟩
  rw [← joined, ← value_vector narrow]
  exact Application.concat_vectors _ _ _ positive narrow

/-- An operator takes meanings of the sorts in its signature to its meaning, and their machine
values to the machine value of that. -/
theorem means_value {sorts : List TermSort} {sort : TermSort} {arguments : List Meaning}
    (accepts : operator.Accepts sorts sort (arguments.map Meaning.value))
    (applied : ∀ name, operator ≠ .symbol name) (vectorial : sort.Vectorial) :
    operator.MeansValue arguments := by
  obtain ⟨signature, typed, narrow, narrowArguments⟩ := accepts
  rw [List.forall₂_map_left_iff] at typed
  cases signature with
  | symbol name sort => exact absurd rfl (applied name)
  | constant literal =>
    cases typed
    obtain ⟨meaning, meant, same⟩ := of_literal vectorial narrow
    exact ⟨meaning, meant, congrArg Except.ok same⟩
  | not =>
    obtain _ | ⟨first, _ | _⟩ := typed
    obtain ⟨p, rfl⟩ := of_bool first
    exact ⟨truth !p, rfl, rfl⟩
  | junction member more =>
    obtain ⟨_ | ⟨p, rest⟩, rfl, counted⟩ := made_alike (fun _ => of_bool) typed
    · cases counted
    · exact junction_means member p rest
  | connective member =>
    obtain _ | ⟨first, _ | ⟨second, _ | _⟩⟩ := typed
    obtain ⟨p, rfl⟩ := of_bool first
    obtain ⟨q, rfl⟩ := of_bool second
    fin_cases member <;> exact ⟨_, rfl, rfl⟩
  | equals sort =>
    obtain _ | ⟨first, _ | ⟨second, _ | _⟩⟩ := typed
    exact equals_means (narrowArguments sort (by simp)) first second
  | ite sort =>
    obtain _ | ⟨first, _ | ⟨second, _ | ⟨third, _ | _⟩⟩⟩ := typed
    obtain ⟨condition, rfl⟩ := of_bool first
    cases condition <;> exact ⟨_, rfl, rfl⟩
  | arithmetic member numeric more =>
    obtain _ | ⟨first, _⟩ := typed
    exact absurd numeric (not_numeric first)
  | pow numeric | comparison member numeric =>
    obtain _ | ⟨first, _⟩ := typed
    exact absurd numeric (not_numeric first)
  | inversion member width =>
    obtain _ | ⟨first, _ | _⟩ := typed
    obtain ⟨x, rfl⟩ := of_bitVec first
    exact inversion_means member narrow.2 x
  | bitwise member width more =>
    obtain ⟨_ | ⟨x, rest⟩, rfl, counted⟩ := made_alike (fun _ => of_bitVec) typed
    · cases counted
    · exact bitwise_means member narrow.2 x rest
  | word member width =>
    obtain _ | ⟨first, _ | ⟨second, _ | _⟩⟩ := typed
    obtain ⟨x, rfl⟩ := of_bitVec first
    obtain ⟨y, rfl⟩ := of_bitVec second
    exact word_means member narrow.1 narrow.2 x y
  | order member width =>
    obtain ⟨positive, small⟩ := narrowArguments (.bitVec width) (by simp)
    obtain _ | ⟨first, _ | ⟨second, _ | _⟩⟩ := typed
    obtain ⟨x, rfl⟩ := of_bitVec first
    obtain ⟨y, rfl⟩ := of_bitVec second
    exact order_means member positive small x y
  | bvComp width =>
    have small := (narrowArguments (.bitVec width) (by simp)).2
    obtain _ | ⟨first, _ | ⟨second, _ | _⟩⟩ := typed
    obtain ⟨x, rfl⟩ := of_bitVec first
    obtain ⟨y, rfl⟩ := of_bitVec second
    exact sameBits_means small x y
  | bvExtract forward inside =>
    have small := (narrowArguments _ (List.mem_singleton.mpr rfl)).2
    obtain _ | ⟨first, _ | _⟩ := typed
    obtain ⟨x, rfl⟩ := of_bitVec first
    exact extract_means forward inside small x
  | bvConcat high low =>
    have positive := (narrowArguments (.bitVec high) (by simp)).1
    obtain _ | ⟨first, _ | ⟨second, _ | _⟩⟩ := typed
    obtain ⟨x, rfl⟩ := of_bitVec first
    obtain ⟨y, rfl⟩ := of_bitVec second
    exact concat_means positive narrow.2 x y

end Operator

/-- A node whose children have the machine values of their meanings has the machine value of
its own. -/
theorem Node.means_value {node : Node} {row : Row} {sorts : List TermSort}
    {arguments : List Meaning} (index : Nat)
    (accepts : node.operator.Accepts sorts node.sort (arguments.map Meaning.value))
    (bound : ∀ name, node.operator = .symbol name →
      ∃ literal, row.get? name = some literal ∧ literal.sort = node.sort)
    (vectorial : node.sort.Vectorial) :
    ∃ meaning, node.meaning row arguments = some meaning ∧
      node.value row index (arguments.map Meaning.value) = .ok meaning.value := by
  by_cases symbolic : ∃ name, node.operator = .symbol name
  · obtain ⟨name, named⟩ := symbolic
    obtain ⟨literal, stored, same⟩ := bound name named
    have narrow := accepts.narrow
    rw [← same] at vectorial narrow
    obtain ⟨meaning, meant, valued⟩ := Meaning.of_literal vectorial narrow
    refine ⟨meaning, ?_, ?_⟩
    · simp [Node.meaning, named, stored, meant]
    · simp [Node.value, named, Row.value, stored, same, valued]
  · have applied : ∀ name, node.operator ≠ .symbol name := fun name named =>
      symbolic ⟨name, named⟩
    have meant : node.meaning row arguments = node.operator.meaning arguments := by
      unfold Node.meaning
      split
      · rename_i name named
        exact absurd named (applied name)
      · rfl
    rw [meant, Node.value_applied applied]
    exact Operator.means_value accepts applied vectorial

namespace Formula

variable {formula : Formula} {row : Row} {index : Nat}

theorem children_mean {list : List NodeId}
    (each : ∀ child ∈ list, ∃ meaning,
      formula.arena.meaningAt formula.ordered row child = some meaning ∧
        formula.arena.valueAt formula.ordered row index child = .ok meaning.value) :
    ∃ meanings, list.mapM (formula.arena.meaningAt formula.ordered row) = some meanings ∧
      list.mapM (formula.arena.valueAt formula.ordered row index) =
        .ok (meanings.map Meaning.value) := by
  induction list with
  | nil => exact ⟨[], rfl, rfl⟩
  | cons child rest ih =>
    obtain ⟨meaning, meant, valued⟩ := each child List.mem_cons_self
    obtain ⟨meanings, others, values⟩ := ih fun other member =>
      each other (List.mem_cons_of_mem _ member)
    refine ⟨meaning :: meanings, ?_, ?_⟩
    · simp [meant, others]
    · simp [valued, values, bind, Except.bind, pure, Except.pure]

theorem meaningAt_sound (sorted : formula.WellSorted) (bound : formula.BoundBy row)
    (vectorial : formula.Vectorial) {id : NodeId} {node : Node}
    (reached : formula.arena.Reaches formula.root id)
    (found : formula.arena.node? id = some node) :
    ∃ meaning, formula.arena.meaningAt formula.ordered row id = some meaning ∧
      formula.arena.valueAt formula.ordered row index id = .ok meaning.value := by
  induction id using NodeId.strongRecOn generalizing node with
  | ind id ih =>
    obtain ⟨meanings, meant, valued⟩ : ∃ meanings,
        node.children.mapM (formula.arena.meaningAt formula.ordered row) = some meanings ∧
          node.children.mapM (formula.arena.valueAt formula.ordered row index) =
            .ok (meanings.map Meaning.value) := by
      refine children_mean fun child member => ?_
      have path := reached.child found member
      obtain ⟨childNode, childFound⟩ := path.found formula.ordered formula.rooted
      exact ih child (formula.ordered id node found child member) path childFound
    obtain ⟨sorts, values, computed, accepts⟩ := children_sound sorted bound reached found
    rw [valued] at computed
    cases computed
    obtain ⟨meaning, known, value⟩ := Node.means_value index accepts (bound id node · reached found)
      (vectorial id node reached found)
    refine ⟨meaning, ?_, ?_⟩
    · rw [Arena.meaningAt_found found, meant]
      exact known
    · obtain ⟨type, native⟩ := (vectorial id node reached found).native accepts.narrow
      have typed : node.typedValue row index (meanings.map Meaning.value) = .ok meaning.value := by
        rw [Node.typedValue, native]
        exact value
      rw [Arena.valueAt_found found, Node.enters accepts.signature.supported, valued]
      exact typed

end Formula

/-- The evaluator computes the meaning of every well-sorted formula of truth values and
vectors, under every row that binds its symbols. -/
theorem evaluate_eq_meaning (formula : Formula) (row : Row) (sorted : formula.WellSorted)
    (vectorial : formula.Vectorial) (bound : formula.BoundBy row) :
    ∃ meaning, formula.meaning row = some meaning ∧
      formula.evaluate row = .ok meaning.value := by
  obtain ⟨root, found⟩ := Arena.Reaches.root.found formula.ordered formula.rooted
  obtain ⟨meaning, meant, valued⟩ := Formula.meaningAt_sound sorted bound vectorial .root found
  exact ⟨meaning, meant, (formula.evaluateAt_eq row 0).trans valued⟩

/-- The upper bits of a quotient, after a shift by its divisor. -/
def shiftedQuotient : Formula where
  arena := .ofNodes #[⟨.symbol "x", [], .bitVec 64⟩, ⟨.symbol "y", [], .bitVec 64⟩,
    ⟨.bvSDiv, [0, 1], .bitVec 64⟩, ⟨.bvAShr, [2, 1], .bitVec 64⟩,
    ⟨.bvExtract 60 63, [3], .bitVec 4⟩]
  root := 4
  ordered := by decide
  rooted := by decide

theorem shiftedQuotient_wellSorted : shiftedQuotient.WellSorted := by
  intro id node _ found
  have member := Arena.mem_nodes found
  simp only [shiftedQuotient, Arena.ofNodes, List.mem_cons, List.not_mem_nil, or_false] at member
  rcases member with rfl | rfl | rfl | rfl | rfl
  · exact ⟨⟨[], _, rfl, .symbol "x" (.bitVec 64)⟩, fun absent => (by cases absent), by decide⟩
  · exact ⟨⟨[], _, rfl, .symbol "y" (.bitVec 64)⟩, fun absent => (by cases absent), by decide⟩
  · exact ⟨⟨[.bitVec 64, .bitVec 64], _, rfl, .word (by decide) 64⟩, fun _ => rfl, by decide⟩
  · exact ⟨⟨[.bitVec 64, .bitVec 64], _, rfl, .word (by decide) 64⟩, fun _ => rfl, by decide⟩
  · exact ⟨⟨[.bitVec 64], _, rfl, .bvExtract (by decide) (by decide)⟩, fun _ => rfl, by decide⟩

/-- The least number by minus one is itself, and a shift by more than the width leaves copies
of its sign. -/
theorem evaluate_eq_meaning_shiftedQuotient :
    let row := (Row.empty.insert "x" (.bitVec 0x8000000000000000 64)).insert "y"
      (.bitVec 0xFFFFFFFFFFFFFFFF 64)
    shiftedQuotient.WellSorted ∧ shiftedQuotient.Vectorial ∧ shiftedQuotient.BoundBy row ∧
      shiftedQuotient.meaning row = some (.vector 0xF#4) ∧
      shiftedQuotient.evaluate row = .ok (.bitVec 0xF 4) := by
  intro row
  have vectorial : shiftedQuotient.Vectorial := by
    intro id node _ found
    have member := Arena.mem_nodes found
    simp only [shiftedQuotient, Arena.ofNodes, List.mem_cons, List.not_mem_nil, or_false] at member
    rcases member with rfl | rfl | rfl | rfl | rfl <;> exact .inr ⟨_, rfl⟩
  have bound : shiftedQuotient.BoundBy row := by
    intro id node name _ found named
    have member := Arena.mem_nodes found
    simp only [shiftedQuotient, Arena.ofNodes, List.mem_cons, List.not_mem_nil, or_false] at member
    rcases member with rfl | rfl | rfl | rfl | rfl
    · cases named
      exact ⟨.bitVec 0x8000000000000000 64, rfl, rfl⟩
    · cases named
      exact ⟨.bitVec 0xFFFFFFFFFFFFFFFF 64, rfl, rfl⟩
    all_goals cases named
  have meant : shiftedQuotient.meaning row = some (.vector 0xF#4) := by decide +kernel
  obtain ⟨meaning, known, evaluated⟩ := evaluate_eq_meaning shiftedQuotient row
    shiftedQuotient_wellSorted vectorial bound
  rw [meant] at known
  cases known
  exact ⟨shiftedQuotient_wellSorted, vectorial, bound, meant, evaluated⟩

end Formulary
