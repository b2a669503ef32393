import Formulary.Proofs.Code.Spelling

/-! The text of an expression has the expression's value: it is bracketed as the levels ask for,
so it is read back as the term of the expression, and this term means what the expression does. -/
namespace Formulary.Code

open Expression (Part)
open Machine

/-- A name that is neither a word of the language nor a truth value. -/
def IsName (name : String) : Prop := IsWord name ∧ name ∉ ["if", "true", "false"]

instance : DecidablePred IsName := fun _ => inferInstanceAs (Decidable (_ ∧ _))

def Environment.IsNamed (environment : Environment) : Prop :=
  ∀ name value, environment.lookup name = some value → IsName name

theorem unary_le_tight : unaryLevel ≤ tightLevel := by decide

theorem cast_le_tight : castLevel ≤ tightLevel := by decide

structure Term.Takes (term : Term) : Prop where
  tight : tightLevel ≤ term.level
  points : ∀ text, term ≠ .number text

section Data

variable {value : Value}

theorem Datum.value?_inv {datum : Datum} (known : datum.value? = some value)
    (other : value.native ≠ .int) : datum = .value value := by
  cases datum with
  | value => rw [Option.some.inj known]
  | numeral number =>
    obtain ⟨_, _, rfl⟩ := Option.map_eq_some_iff.mp known
    exact absurd rfl other
  | _ => cases known

theorem onValues_some {compute : Value → Value → Option Value} {left right : Datum}
    {x y : Value} (leftKnown : left.value? = some x) (rightKnown : right.value? = some y)
    (computed : compute x y = some value) : onValues compute left right = some (.value value) := by
  simp [onValues, leftKnown, rightKnown, computed]

theorem binaryMeaning_some {operator : ChainOperator} {left right : Datum} {x y : Value}
    (leftKnown : left.value? = some x) (rightKnown : right.value? = some y)
    (computed : operator.apply x y = some value) :
    binaryMeaning operator left right = some (.value value) := by
  unfold binaryMeaning
  split
  · cases leftKnown
  · cases leftKnown
  · exact onValues_some leftKnown rightKnown computed

theorem castMeaning_half {datum : Datum} {number : Int64}
    (known : datum.value? = some (.int number)) :
    castMeaning "u32" datum = some (.half number.toUInt64.toUInt32) := by
  simp [castMeaning, known]

theorem Method.apply_wrappingPower {datum : Datum} {base : Int64}
    (known : datum.value? = some (.int base)) (exponent : UInt32) :
    wrappingPower.apply datum [.half exponent] =
      some (.value (.int (Int64.ofInt (base.toInt ^ exponent.toNat)))) := by
  simp [apply, known]

theorem pathMeaning_name {environment : Environment} {name : String} (named : IsName name) :
    pathMeaning environment [⟨name, []⟩] = (environment.lookup name).map .value := by
  have truth : name ≠ "true" := fun same => named.2 (by simp [same])
  have falsity : name ≠ "false" := fun same => named.2 (by simp [same])
  simp [pathMeaning]

theorem digits?_toString (number : Nat) :
    Reader.digits? (toString number).toList = some number := by
  rw [Nat.toString_eq_ofList_toDigits, String.toList_ofList, digits?_toDigits]

theorem onBits_inv {compute : UInt64 → UInt64 → Option Value} {x y : Value}
    (computed : onBits compute x y = some value) :
    ∃ a v b w, x = .bitVec a v ∧ y = .bitVec b w ∧ compute a b = some value := by
  unfold onBits at computed
  split at computed
  · exact ⟨_, _, _, _, rfl, rfl, computed⟩
  · cases computed

theorem onBools_inv {compute : Bool → Bool → Bool} {x y : Value}
    (computed : onBools compute x y = some value) :
    ∃ p q, x = .bool p ∧ y = .bool q ∧ value = .bool (compute p q) := by
  unfold onBools at computed
  split at computed
  · exact ⟨_, _, rfl, rfl, (Option.some.inj computed).symm⟩
  · cases computed

theorem onInts_inv {compute : Int64 → Int64 → Value} {x y : Value}
    (computed : onInts compute x y = some value) :
    ∃ a b, x = .int a ∧ y = .int b ∧ value = compute a b := by
  unfold onInts at computed
  split at computed
  · exact ⟨_, _, rfl, rfl, (Option.some.inj computed).symm⟩
  · cases computed

theorem onReals_inv {compute : Float → Float → Value} {x y : Value}
    (computed : onReals compute x y = some value) :
    ∃ a b, x = .real a ∧ y = .real b ∧ value = compute a b := by
  unfold onReals at computed
  split at computed
  · exact ⟨_, _, rfl, rfl, (Option.some.inj computed).symm⟩
  · cases computed

theorem compareSigned_inv {holds : Int64 → Int64 → Bool} {x y : Value}
    (computed : compareSigned holds x y = some value) :
    ∃ a v b w m n, x = .bitVec a v ∧ y = .bitVec b w ∧ signed v a = some m ∧
      signed w b = some n ∧ value = .bool (holds m n) := by
  unfold compareSigned at computed
  split at computed
  · obtain ⟨m, first, rest⟩ := Option.bind_eq_some_iff.mp computed
    obtain ⟨n, second, made⟩ := Option.bind_eq_some_iff.mp rest
    exact ⟨_, _, _, _, m, n, rfl, rfl, first, second, (Option.some.inj made).symm⟩
  · cases computed

theorem sameBits_inv {x y : Value} (computed : sameBits x y = some value) :
    ∃ a b v, x = .bitVec a v ∧ y = .bitVec b v ∧ value = new 1 (if a == b then 1 else 0) := by
  unfold sameBits onVectors at computed
  split at computed
  · split at computed
    · rename_i same
      cases same
      exact ⟨_, _, _, rfl, rfl, (Option.some.inj computed).symm⟩
    · cases computed
  · cases computed

end Data

namespace Term

variable {real? : String → Option Float} {environment : Environment} {term : Term}

theorem takes_group (inner : Term) : Takes (.group inner) := ⟨Nat.le_refl _, nofun⟩

theorem Takes.binds (takes : term.Takes) : unaryLevel ≤ term.level :=
  unary_le_tight.trans takes.tight

theorem isComparison_of_binds (binds : unaryLevel ≤ term.level) : term.isComparison = false := by
  cases term with
  | binary operator =>
    exact absurd (Nat.lt_of_le_of_lt binds operator.level_lt) (by decide)
  | _ => rfl

/-- A term that takes methods, and what it stands for. -/
structure Yields (real? : String → Option Float) (environment : Environment) (term : Term)
    (datum : Datum) : Prop where
  fits : term.Fits
  takes : term.Takes
  means : term.meaning real? environment = some datum

/-- A term that may stand within another one, and its value. Those of vectors take methods. -/
structure Denotes (real? : String → Option Float) (environment : Environment) (term : Term)
    (value : Value) : Prop where
  fits : term.Fits
  binds : unaryLevel ≤ term.level
  means : ∃ datum, term.meaning real? environment = some datum ∧ datum.value? = some value
  takes : value.native.width?.isSome → term.Takes

namespace Yields

variable {datum result : Datum} {arguments : List Term} {data : List Datum}

theorem path {first : Segment} {rest : List Segment} (other : first.name ≠ "if")
    (spelled : ∀ segment ∈ first :: rest, segment.IsSpelled)
    (means : pathMeaning environment (first :: rest) = some datum) :
    (Term.path (first :: rest)).Yields real? environment datum :=
  ⟨.path other spelled, ⟨Nat.le_refl _, nofun⟩, means⟩

theorem call {first : Segment} {rest : List Segment} (other : first.name ≠ "if")
    (spelled : ∀ segment ∈ first :: rest, segment.IsSpelled)
    (fit : ∀ argument ∈ arguments, argument.Fits)
    (means : meanings real? environment arguments = some data)
    {helper : Helper} (named : Helper.ofPath? (first :: rest) = some helper)
    (called : helper.apply data = some result) :
    (Term.call (first :: rest) arguments).Yields real? environment result where
  fits := .call other spelled fit
  takes := ⟨Nat.le_refl _, nofun⟩
  means := by simp [meaning, named, means, called]

theorem method (yields : term.Yields real? environment datum) {name : String} (word : IsWord name)
    (fit : ∀ argument ∈ arguments, argument.Fits)
    (means : meanings real? environment arguments = some data)
    {method : Method} (named : Method.ofName? name = some method)
    (called : method.apply datum data = some result) :
    (Term.method term name arguments).Yields real? environment result where
  fits := .method yields.fits yields.takes.tight yields.takes.points word fit
  takes := ⟨Nat.le_refl _, nofun⟩
  means := by simp [meaning, named, yields.means, means, called]

theorem binary {left right : Term} {first second : Datum} {operator : ChainOperator}
    (leftFits : left.Fits) (rightFits : right.Fits) (leftBinds : unaryLevel ≤ left.level)
    (rightBinds : unaryLevel ≤ right.level)
    (leftMeans : left.meaning real? environment = some first)
    (rightMeans : right.meaning real? environment = some second)
    (computed : binaryMeaning operator first second = some result) :
    (Term.group (.binary operator left right)).Yields real? environment result where
  fits := by
    have loose : operator.level < unaryLevel := Nat.lt_succ_of_lt operator.level_lt
    exact .group (.binary leftFits rightFits (loose.le.trans leftBinds)
      (Nat.lt_of_lt_of_le loose rightBinds) fun _ => isComparison_of_binds leftBinds)
  takes := takes_group _
  means := by simp [meaning, leftMeans, rightMeans, computed]

theorem denotes {value : Value} (yields : term.Yields real? environment (.value value)) :
    term.Denotes real? environment value :=
  ⟨yields.fits, yields.takes.binds, ⟨_, yields.means, rfl⟩, fun _ => yields.takes⟩

end Yields

namespace Denotes

variable {value result : Value}

theorem group (denotes : term.Denotes real? environment value) :
    (Term.group term).Denotes real? environment value :=
  ⟨.group denotes.fits, (takes_group term).binds, denotes.means, fun _ => takes_group term⟩

theorem unary (denotes : term.Denotes real? environment value) {operator : UnaryOperator}
    (applied : operator.apply value = some result) :
    (Term.group (.unary operator term)).Denotes real? environment result := by
  obtain ⟨datum, means, known⟩ := denotes.means
  refine Yields.denotes ⟨.group (.unary denotes.fits denotes.binds), takes_group _, ?_⟩
  simp [meaning, means, known, applied]

theorem yields (denotes : term.Denotes real? environment value) {width : Nat}
    (vector : value.native = .bitVec width) : term.Yields real? environment (.value value) := by
  obtain ⟨datum, means, known⟩ := denotes.means
  rw [Datum.value?_inv known (by simp [vector])] at means
  exact ⟨denotes.fits, denotes.takes (by simp [vector, NativeType.width?]), means⟩

theorem unsigned {bits : UInt64} {width : Nat}
    (denotes : term.Denotes real? environment (.bitVec bits width)) :
    (Term.method term "unsigned" []).Yields real? environment (.word bits) :=
  (denotes.yields rfl).method (by decide) nofun rfl rfl rfl

theorem signed {bits : UInt64} {width : Nat} {number : Int64}
    (denotes : term.Denotes real? environment (.bitVec bits width))
    (known : Machine.signed width bits = some number) :
    (Term.method term "signed" []).Yields real? environment (.value (.int number)) := by
  have method : Method.ofName? "signed" = some (.view .signed) := rfl
  refine (denotes.yields rfl).method (by decide) nofun rfl method ?_
  simp [Method.apply, known]

section Pairs

variable {left right : Term} {x y : Value}

/-- A helper of two arguments. -/
theorem helper {segment : Segment} {helper : Helper} (other : segment.name ≠ "if")
    (spelled : segment.IsSpelled) (named : Helper.ofPath? [segment] = some helper)
    (leftDenotes : left.Denotes real? environment x)
    (rightDenotes : right.Denotes real? environment y)
    {compute : Value → Value → Option Value} (computed : compute x y = some result)
    (called : ∀ first second, helper.apply [first, second] = onValues compute first second) :
    (Term.call [segment] [left, right]).Denotes real? environment result := by
  obtain ⟨first, leftMeans, leftKnown⟩ := leftDenotes.means
  obtain ⟨second, rightMeans, rightKnown⟩ := rightDenotes.means
  have fit : ∀ argument ∈ [left, right], argument.Fits := by
    simp [leftDenotes.fits, rightDenotes.fits]
  have means : meanings real? environment [left, right] = some [first, second] := by
    simp [meanings, leftMeans, rightMeans]
  refine (Yields.call other (by simpa using spelled) fit means named ?_).denotes
  rw [called, onValues_some leftKnown rightKnown computed]

theorem sameType (leftDenotes : left.Denotes real? environment x)
    (rightDenotes : right.Denotes real? environment y) {operator : ChainOperator}
    (computed : operator.apply x y = some result) :
    (Term.group (.binary operator left right)).Yields real? environment (.value result) := by
  obtain ⟨first, leftMeans, leftKnown⟩ := leftDenotes.means
  obtain ⟨second, rightMeans, rightKnown⟩ := rightDenotes.means
  exact .binary leftDenotes.fits rightDenotes.fits leftDenotes.binds rightDenotes.binds leftMeans
    rightMeans (binaryMeaning_some leftKnown rightKnown computed)

theorem integerPower {base exponent : Int64}
    (leftDenotes : left.Denotes real? environment (.int base))
    (rightDenotes : right.Denotes real? environment (.int exponent)) :
    (Term.method (.group left) "wrapping_pow" [.cast (.group right) "u32"]).Denotes real?
      environment (.int (Machine.integerPower base exponent)) := by
  obtain ⟨first, leftMeans, leftKnown⟩ := leftDenotes.means
  obtain ⟨second, rightMeans, rightKnown⟩ := rightDenotes.means
  have receiver : (Term.group left).Yields real? environment first :=
    ⟨.group leftDenotes.fits, takes_group left, leftMeans⟩
  have fit : (Term.cast (.group right) "u32").Fits :=
    .cast (.group rightDenotes.fits) cast_le_tight (by decide)
  have means : meanings real? environment [.cast (.group right) "u32"] =
      some [.half exponent.toUInt64.toUInt32] := by
    simp [meanings, meaning, rightMeans, castMeaning_half rightKnown]
  exact (receiver.method (by decide) (by simpa using fit) means rfl
    (Method.apply_wrappingPower leftKnown _)).denotes

theorem realPower {base exponent : Float}
    (leftDenotes : left.Denotes real? environment (.real base))
    (rightDenotes : right.Denotes real? environment (.real exponent)) :
    (Term.method (.group left) "powf" [right]).Denotes real? environment
      (.real (Float.pow base exponent)) := by
  obtain ⟨first, leftMeans, leftKnown⟩ := leftDenotes.means
  obtain ⟨second, rightMeans, rightKnown⟩ := rightDenotes.means
  rw [Datum.value?_inv leftKnown (by simp [Value.native])] at leftMeans
  rw [Datum.value?_inv rightKnown (by simp [Value.native])] at rightMeans
  have receiver : (Term.group left).Yields real? environment (.value (.real base)) :=
    ⟨.group leftDenotes.fits, takes_group left, leftMeans⟩
  have means : meanings real? environment [right] = some [.value (.real exponent)] := by
    simp [meanings, rightMeans]
  exact (receiver.method (by decide) (by simpa using rightDenotes.fits) means rfl rfl).denotes

section Vectors

variable {a b : UInt64} {v w : Nat} (leftDenotes : left.Denotes real? environment (.bitVec a v))
  (rightDenotes : right.Denotes real? environment (.bitVec b w))

include leftDenotes rightDenotes

theorem wrapping (operator : WrappingOperator) :
    (Term.method (.method left "unsigned" []) operator.text
      [.method right "unsigned" []]).Yields real? environment (.word (operator.apply a b)) := by
  have means : meanings real? environment [.method right "unsigned" []] = some [.word b] := by
    simp [meanings, rightDenotes.unsigned.means]
  have fit := rightDenotes.unsigned.fits
  cases operator <;>
    exact leftDenotes.unsigned.method (by decide) (by simpa using fit) means rfl rfl

theorem unsignedQuotient :
    (Term.method (.method (.method left "unsigned" []) "checked_div"
      [.method right "unsigned" []]) "unwrap_or" [.path [⟨"u64", []⟩, ⟨"MAX", []⟩]]).Yields real?
        environment (.word (Machine.unsignedQuotient a b)) := by
  have means : meanings real? environment [.method right "unsigned" []] = some [.word b] := by
    simp [meanings, rightDenotes.unsigned.means]
  have fit := rightDenotes.unsigned.fits
  have checked := leftDenotes.unsigned.method (by decide : IsWord "checked_div")
    (by simpa using fit) means rfl rfl
  have most : (Term.path [⟨"u64", []⟩, ⟨"MAX", []⟩]).Yields real? environment (.word Word.ones) :=
    .path (by decide) (by decide) rfl
  have means : meanings real? environment [.path [⟨"u64", []⟩, ⟨"MAX", []⟩]] =
      some [.word Word.ones] := by
    simp [meanings, most.means]
  exact checked.method (by decide) (by simpa using most.fits) means rfl rfl

end Vectors

theorem compare {view : View} {strict : Bool} (leftDenotes : left.Denotes real? environment x)
    (rightDenotes : right.Denotes real? environment y)
    (computed : view.apply strict x y = some result) :
    (Term.group (.binary (if strict then .below else .atMost) (.method left view.text [])
      (.method right view.text []))).Denotes real? environment result := by
  cases view with
  | unsigned =>
    obtain ⟨a, v, b, w, rfl, rfl, compared⟩ := onBits_inv computed
    have first := leftDenotes.unsigned
    have second := rightDenotes.unsigned
    refine (Yields.binary first.fits second.fits first.takes.binds second.takes.binds first.means
      second.means ?_).denotes
    cases strict <;> exact congrArg (Option.map Datum.value) compared
  | signed =>
    obtain ⟨a, v, b, w, m, n, rfl, rfl, leftKnown, rightKnown, rfl⟩ := compareSigned_inv computed
    have first := leftDenotes.signed leftKnown
    have second := rightDenotes.signed rightKnown
    refine (Yields.binary first.fits second.fits first.takes.binds second.takes.binds first.means
      second.means ?_).denotes
    cases strict <;> rfl

end Pairs

theorem vector {width : Nat} {constructor : String} (known : constructor ∈ ["new", "from_unsigned"])
    {datum : Datum} {bits : UInt64} (fits : term.Fits)
    (means : term.meaning real? environment = some datum) (word : datum.word? = some bits) :
    (Term.call (vectorPath width constructor) [term]).Denotes real? environment
      (new width bits) := by
  have spelled : ∀ segment ∈ vectorPath width constructor, segment.IsSpelled := by
    have named : IsWord constructor := by
      simp only [List.mem_cons, List.not_mem_nil, or_false] at known
      rcases known with rfl | rfl <;> decide
    simp only [vectorPath, List.forall_mem_cons, List.not_mem_nil, false_implies, implies_true,
      and_true]
    have typed : IsWord "Bv" := by decide
    exact ⟨⟨typed, List.forall_mem_singleton.mpr (isNumber_toString width)⟩, named,
      List.forall_mem_nil _⟩
  have named : Helper.ofPath? (vectorPath width constructor) = some (.vector width) := by
    simp only [Helper.ofPath?, vectorPath, digits?_toString, if_pos known]
    rfl
  have means : meanings real? environment [term] = some [datum] := by
    simp [meanings, means]
  have other : "Bv" ≠ "if" := by decide
  refine (Yields.call other spelled (by simpa using fits) means named ?_).denotes
  simp [Helper.apply, word]

theorem sameBits {left right : Term} {x y : Value} (leftDenotes : left.Denotes real? environment x)
    (rightDenotes : right.Denotes real? environment y)
    (computed : Machine.sameBits x y = some result) :
    (Term.call (vectorPath 1 "new") [.cast (.group (.binary .equal left right)) "u64"]).Denotes
      real? environment result := by
  obtain ⟨a, b, v, rfl, rfl, rfl⟩ := sameBits_inv computed
  have same : Machine.equal (.bitVec a v) (.bitVec b v) = some (.bool (a == b)) := if_pos rfl
  have equal : (Term.group (.binary .equal left right)).Yields real? environment
      (.value (.bool (a == b))) := leftDenotes.sameType rightDenotes same
  have fits : (Term.cast (.group (.binary .equal left right)) "u64").Fits :=
    .cast equal.fits cast_le_tight (by decide)
  have means : (Term.cast (.group (.binary .equal left right)) "u64").meaning real? environment =
      some (.word (if a == b then 1 else 0)) := by
    rw [meaning, equal.means]
    rfl
  exact vector (by simp) fits means rfl

theorem concat {left right : Term} {x y : Value} {high low width : Nat}
    (leftDenotes : left.Denotes real? environment x)
    (rightDenotes : right.Denotes real? environment y)
    (computed : onWidths high low (Machine.concat high low width) x y = some result) :
    (Term.call [⟨"bv_concat", [toString high, toString low, toString width]⟩]
      [left, right]).Denotes real? environment result := by
  have spelled : Segment.IsSpelled
      ⟨"bv_concat", [toString high, toString low, toString width]⟩ := by
    have named : IsWord "bv_concat" := by decide
    refine ⟨named, ?_⟩
    simpa using ⟨isNumber_toString high, isNumber_toString low, isNumber_toString width⟩
  have named : Helper.ofPath? [⟨"bv_concat", [toString high, toString low, toString width]⟩] =
      some (.concat high low width) := by
    simp only [Helper.ofPath?, digits?_toString]
    rfl
  have other : "bv_concat" ≠ "if" := by decide
  exact leftDenotes.helper other spelled named rightDenotes computed fun _ _ => rfl

theorem extract {operand : Term} {result width low high : Nat}
    (denotes : operand.Denotes real? environment value) {found : Value}
    (computed : onVector width (Machine.extract result width low high) value = some found) :
    (Term.call [⟨"bv_extract", [toString result, toString width]⟩]
      [operand, .number (toString low), .number (toString high)]).Denotes real? environment
        found := by
  obtain ⟨datum, means, known⟩ := denotes.means
  have spelled : ∀ segment ∈ [(⟨"bv_extract", [toString result, toString width]⟩ : Segment)],
      segment.IsSpelled := by
    have named : IsWord "bv_extract" := by decide
    refine List.forall_mem_singleton.mpr ⟨named, ?_⟩
    simpa using ⟨isNumber_toString result, isNumber_toString width⟩
  have named : Helper.ofPath? [⟨"bv_extract", [toString result, toString width]⟩] =
      some (.extract result width) := by
    simp only [Helper.ofPath?, digits?_toString]
    rfl
  have means : meanings real? environment
      [operand, .number (toString low), .number (toString high)] =
        some [datum, .numeral low, .numeral high] := by
    simp only [meanings, meaning, means, numberMeaning_toString]
    rfl
  have other : "bv_extract" ≠ "if" := by decide
  refine (Yields.call other spelled ?_ means named ?_).denotes
  · simpa using ⟨denotes.fits, Fits.number (isNumber_toString low),
      Fits.number (isNumber_toString high)⟩
  · simp [Helper.apply, Datum.position?, known, computed]

/-- Operands are put together from the left. A comparison takes no other one, so there it ends
after one step. -/
theorem fold {operator : ChainOperator} {first : Term} {rest : List Term} {x : Value}
    {values : List Value} (fits : first.Fits) (binds : operator.level ≤ first.level)
    (means : ∃ datum, first.meaning real? environment = some datum ∧ datum.value? = some x)
    (single : operator.isComparison = true →
      rest.length ≤ 1 ∧ (rest ≠ [] → first.isComparison = false))
    (denote : List.Forall₂ (Denotes real? environment) rest values)
    (computed : values.foldlM operator.apply x = some result) :
    (rest.foldl (.binary operator) first).Fits ∧
      ∃ datum, (rest.foldl (.binary operator) first).meaning real? environment = some datum ∧
        datum.value? = some result := by
  induction denote generalizing first x with
  | nil =>
    cases computed
    exact ⟨fits, means⟩
  | @cons next y rest values denotes others ih =>
    obtain ⟨sum, applied, later⟩ :=
      Option.bind_eq_some_iff.mp (List.foldlM_cons.symm.trans computed)
    obtain ⟨left, leftMeans, leftKnown⟩ := means
    obtain ⟨right, rightMeans, rightKnown⟩ := denotes.means
    have loose : operator.level < unaryLevel := Nat.lt_succ_of_lt operator.level_lt
    have joined : (Term.binary operator first next).Fits :=
      .binary fits denotes.fits binds (Nat.lt_of_lt_of_le loose denotes.binds)
        fun compares => (single compares).2 (List.cons_ne_nil _ _)
    refine ih joined (Nat.le_refl _) ⟨.value sum, ?_, rfl⟩ (fun compares => ?_) later
    · simp [meaning, leftMeans, rightMeans, binaryMeaning_some leftKnown rightKnown applied]
    · have alone : rest = [] := by simpa using (single compares).1
      simp [alone]

theorem chain {operator : ChainOperator} {terms : List Term} {values : List Value}
    (denote : List.Forall₂ (Denotes real? environment) terms values)
    (computed : operator.applyAll values = some result) :
    (Term.group (chainTerm operator terms)).Denotes real? environment result := by
  cases denote with
  | nil => cases computed
  | @cons first x rest values denotes others =>
    simp only [ChainOperator.applyAll] at computed
    split at computed
    · cases computed
    · rename_i several
      have loose : operator.level < unaryLevel := Nat.lt_succ_of_lt operator.level_lt
      have single : operator.isComparison = true →
          rest.length ≤ 1 ∧ (rest ≠ [] → first.isComparison = false) := by
        intro compares
        refine ⟨?_, fun _ => isComparison_of_binds denotes.binds⟩
        have counted := others.length_eq
        have one : values.length = 1 := Decidable.byContradiction fun other =>
          several ⟨compares, other⟩
        omega
      obtain ⟨fits, means⟩ := fold denotes.fits (loose.le.trans denotes.binds) denotes.means single
        others computed
      exact ⟨.group fits, (takes_group _).binds, means, fun _ => takes_group _⟩

theorem name {name : String} (named : IsName name)
    (known : environment.lookup name = some value) :
    (Term.path [⟨name, []⟩]).Denotes real? environment value := by
  have other : name ≠ "if" := fun same => named.2 (by simp [same])
  refine (Yields.path other ?_ ?_).denotes
  · exact List.forall_mem_singleton.mpr ⟨named.1, nofun⟩
  · rw [pathMeaning_name named, known]
    rfl

/-- Only the least integer has a size that is no integer. -/
theorem word?_natAbs {number : Int64} (other : number ≠ Int64.minValue) :
    Ratio.word? number.toInt.natAbs = some (Int64.ofInt number.toInt.natAbs) := by
  have above := Int64.minValue_le_toInt number
  have below := Int64.toInt_le number
  have strict : number.toInt ≠ Int64.minValue.toInt := fun same => other (Int64.toInt_inj.mp same)
  have least : Int64.minValue.toInt = -Int64.maxValue.toInt - 1 := by decide
  have most : 0 ≤ Int64.maxValue.toInt := by decide
  rw [Ratio.word?, if_pos]
  omega

theorem number (size : Nat) {number : Int64} (known : Ratio.word? size = some number) :
    (Term.number (toString size)).Denotes real? environment (.int number) := by
  refine ⟨.number (isNumber_toString size), unary_le_tight, ?_, nofun⟩
  refine ⟨.numeral size, numberMeaning_toString real? size, ?_⟩
  simp [Datum.value?, known]

theorem integer (value : Int64) :
    (literalTerm (.int value)).Denotes real? environment (.int value) := by
  simp only [literalTerm]
  split
  · rename_i least
    rw [least]
    exact (Yields.path (by decide) (by decide) rfl).denotes
  · rename_i other
    have size := @number real? environment _ _ (word?_natAbs other)
    split
    · rename_i negative
      have below : value.toInt < 0 := Int64.lt_iff_toInt_lt.mp negative
      have opposite : -(Int64.ofInt value.toInt.natAbs) = value := by
        rw [← Int64.ofInt_neg, Int.ofNat_natAbs_of_nonpos below.le, Int.neg_neg, Int64.ofInt_toInt]
      exact size.unary (congrArg (some ∘ Value.int) opposite)
    · rename_i negative
      have least : 0 ≤ value.toInt := Int.not_lt.mp fun below =>
        negative (Int64.lt_iff_toInt_lt.mpr below)
      rwa [Int.natAbs_of_nonneg least, Int64.ofInt_toInt] at size

theorem double {x : Float} (readable : Decimal.ReadsBack real? x) :
    (doubleTerm x).Denotes real? environment (.real x) := by
  obtain ⟨size, read, same⟩ := readable.magnitude
  obtain ⟨whole, other⟩ := magnitude_isNumber readable.finite
  have means : numberMeaning real? (Decimal.programText.magnitude x) =
      some (.value (.real size)) := by
    simp [numberMeaning, other, read]
  unfold doubleTerm
  rw [if_neg (ne_true_of_eq_false readable.isNumber)]
  split
  · rename_i negative
    rw [if_pos negative] at same
    refine ⟨.unary (.number whole) unary_le_tight, Nat.le_refl _, ?_, fun vector => by cases vector⟩
    refine ⟨.value (.real x), ?_, rfl⟩
    simp [meaning, means, UnaryOperator.apply, same, Datum.value?]
  · rename_i positive
    rw [if_neg positive] at same
    refine ⟨.number whole, unary_le_tight, ⟨.value (.real x), ?_, rfl⟩, fun vector => ?_⟩
    · rw [meaning, means, same]
    · cases vector

theorem literal {value : Literal}
    (readable : ∀ ratio, value = .real ratio → Decimal.ReadsBack real? ratio.toFloat) :
    (literalTerm value).Denotes real? environment (Machine.literal value) := by
  cases value with
  | bool value => cases value <;> exact (Yields.path (by decide) (by decide) rfl).denotes
  | int number => exact .integer number
  | real ratio =>
    have denotes := @double real? environment _ (readable ratio rfl)
    simp only [literalTerm]
    split
    · exact denotes.group
    · exact denotes
  | bitVec bits width =>
    have means := numberMeaning_toString real? bits.toNat
    refine vector (by simp) (.number (isNumber_toString bits.toNat)) means ?_
    simp [Datum.word?, bits.toNat_lt, Word.size]

end Denotes

end Term

section Expressions

variable {real? : String → Option Float} {environment : Environment}

/-- The doubles in an expression are read back. -/
def Expression.Readable (real? : String → Option Float) (expression : Expression) : Prop :=
  ∀ ratio, Part (.literal (.real ratio)) expression → Decimal.ReadsBack real? ratio.toFloat

theorem Expression.Readable.within {whole part : Expression} (readable : whole.Readable real?)
    (member : part ∈ whole.immediate) : part.Readable real? :=
  fun ratio inside => readable ratio (.within member inside)

/-- The terms of what an expression puts together have the values of it. -/
def PartsDenote (real? : String → Option Float) (environment : Environment)
    (expression : Expression) : Prop :=
  ∀ part ∈ expression.immediate, ∀ value, part.operand environment = some value →
    part.term.Denotes real? environment value

theorem both_denote {whole left right : Expression} (pair : whole.immediate = [left, right])
    (parts : PartsDenote real? environment whole) {compute : Value → Value → Option Value}
    {value : Value}
    (known : both compute (left.operand environment) (right.operand environment) = some value) :
    ∃ x y, left.term.Denotes real? environment x ∧ right.term.Denotes real? environment y ∧
      compute x y = some value := by
  obtain ⟨x, leftKnown, more⟩ := Option.bind_eq_some_iff.mp known
  obtain ⟨y, rightKnown, computed⟩ := Option.bind_eq_some_iff.mp more
  exact ⟨x, y, parts left (by simp [pair]) x leftKnown, parts right (by simp [pair]) y rightKnown,
    computed⟩

theorem operands_denote_terms {list : List Expression} {values : List Value}
    (parts : ∀ part ∈ list, ∀ value, part.operand environment = some value →
      part.term.Denotes real? environment value)
    (known : Expression.operands environment list = some values) :
    List.Forall₂ (Term.Denotes real? environment) (Expression.terms list) values := by
  induction list generalizing values with
  | nil =>
    cases known
    exact .nil
  | cons first rest ih =>
    rw [Expression.operands] at known
    obtain ⟨value, firstKnown, more⟩ := Option.bind_eq_some_iff.mp known
    obtain ⟨others, restKnown, made⟩ := Option.bind_eq_some_iff.mp more
    cases made
    rw [List.forall_mem_cons] at parts
    exact .cons (parts.1 value firstKnown) (ih parts.2 restKnown)

namespace Expression

/-- The term of an expression that stands within another one has the expression's value. -/
theorem term_denotes (named : environment.IsNamed) {expression : Expression} {value : Value}
    (readable : expression.Readable real?) (known : expression.operand environment = some value) :
    expression.term.Denotes real? environment value := by
  induction expression using Expression.inductOn generalizing value with
  | step expression ih =>
    have parts : PartsDenote real? environment expression :=
      fun part member _ => ih part member (readable.within member)
    cases expression with
    | argument identifier =>
      rw [operand] at known
      exact .name (named identifier value known) known
    | temporary declared =>
      rw [operand] at known
      exact .name (named declared.name value known) known
    | literal constant =>
      cases known
      refine .literal fun ratio same => readable ratio ?_
      rw [same]
      exact .whole
    | unary operator inner =>
      rw [operand] at known
      obtain ⟨x, computed, applied⟩ := Option.bind_eq_some_iff.mp known
      exact (parts inner (by simp [immediate]) x computed).unary applied
    | chain operator inner =>
      rw [operand] at known
      obtain ⟨values, computed, applied⟩ := Option.bind_eq_some_iff.mp known
      exact .chain (operands_denote_terms parts computed) applied
    | implication | conditional => cases known
    | integerQuotient | signedQuotient | signedShiftRight =>
      obtain ⟨x, y, first, second, computed⟩ := both_denote rfl parts known
      exact first.helper (by decide) (by decide) rfl second computed fun _ _ => rfl
    | integerPower =>
      obtain ⟨x, y, first, second, computed⟩ := both_denote rfl parts known
      obtain ⟨a, b, rfl, rfl, rfl⟩ := onInts_inv computed
      exact first.integerPower second
    | realPower =>
      obtain ⟨x, y, first, second, computed⟩ := both_denote rfl parts known
      obtain ⟨a, b, rfl, rfl, rfl⟩ := onReals_inv computed
      exact first.realPower second
    | wrapping operator =>
      obtain ⟨x, y, first, second, computed⟩ := both_denote rfl parts known
      obtain ⟨a, v, b, w, rfl, rfl, made⟩ := onBits_inv computed
      cases made
      have word := first.wrapping second operator
      exact .vector (by simp) word.fits word.means rfl
    | unsignedQuotient =>
      obtain ⟨x, y, first, second, computed⟩ := both_denote rfl parts known
      obtain ⟨a, v, b, w, rfl, rfl, made⟩ := onBits_inv computed
      cases made
      have word := first.unsignedQuotient second
      exact .vector (by simp) word.fits word.means rfl
    | compare =>
      obtain ⟨x, y, first, second, computed⟩ := both_denote rfl parts known
      exact first.compare second computed
    | sameBits =>
      obtain ⟨x, y, first, second, computed⟩ := both_denote rfl parts known
      exact first.sameBits second computed
    | extract result width low high inner =>
      rw [operand] at known
      obtain ⟨x, computed, applied⟩ := Option.bind_eq_some_iff.mp known
      exact (parts inner (by simp [immediate]) x computed).extract applied
    | concat =>
      obtain ⟨x, y, first, second, computed⟩ := both_denote rfl parts known
      exact first.concat second computed

/-- The term of an expression that stands by itself has the expression's value too. -/
theorem term_means (named : environment.IsNamed) {expression : Expression} {value : Value}
    (readable : expression.Readable real?) (known : expression.value environment = some value) :
    expression.term.Fits ∧ ∃ datum, expression.term.meaning real? environment = some datum ∧
      datum.value? = some value := by
  have parts : PartsDenote real? environment expression :=
    fun part member _ => term_denotes named (readable.within member)
  cases expression with
  | implication premise conclusion =>
    obtain ⟨x, y, first, second, computed⟩ := both_denote rfl parts known
    obtain ⟨p, q, rfl, rfl, rfl⟩ := onBools_inv computed
    obtain ⟨left, leftMeans, leftKnown⟩ := first.means
    obtain ⟨right, rightMeans, rightKnown⟩ := second.means
    have loose : ChainOperator.or.level < unaryLevel := by decide
    refine ⟨.binary (.unary first.fits first.binds) second.fits loose.le
      (Nat.lt_of_lt_of_le loose second.binds) nofun, .value (.bool (!p || q)), ?_, rfl⟩
    have joined : binaryMeaning .or (.value (.bool !p)) right = some (.value (.bool (!p || q))) :=
      binaryMeaning_some rfl rightKnown rfl
    simp [term, Term.meaning, leftMeans, leftKnown, rightMeans, UnaryOperator.apply, joined]
  | conditional condition first second =>
    obtain ⟨choice, conditionKnown, more⟩ := Option.bind_eq_some_iff.mp known
    obtain ⟨x, firstKnown, more⟩ := Option.bind_eq_some_iff.mp more
    obtain ⟨y, secondKnown, chosen⟩ := Option.bind_eq_some_iff.mp more
    have decided := parts condition (by simp [immediate]) choice conditionKnown
    have taken := parts first (by simp [immediate]) x firstKnown
    have refused := parts second (by simp [immediate]) y secondKnown
    obtain ⟨_, decidedMeans, decidedKnown⟩ := decided.means
    obtain ⟨_, takenMeans, takenKnown⟩ := taken.means
    obtain ⟨_, refusedMeans, refusedKnown⟩ := refused.means
    refine ⟨.conditional decided.fits taken.fits refused.fits, .value value, ?_, rfl⟩
    simp [term, Term.meaning, decidedMeans, decidedKnown, takenMeans, takenKnown, refusedMeans,
      refusedKnown, chosen]
  | _ =>
    have denotes := term_denotes named readable known
    exact ⟨denotes.fits, denotes.means⟩

end Expression

end Expressions

end Formulary.Code
