import Formulary.Proofs.Code.Numerals
import Formulary.Proofs.Code.Origin

namespace Formulary.Code

open Layout Segment

/-- Operands with an operator between them, which groups them from the left. -/
def chainTerm (operator : ChainOperator) : List Term → Term
  | [] => .path []
  | first :: rest => rest.foldl (.binary operator) first

def vectorPath (width : Nat) (constructor : String) : List Segment :=
  [⟨"Bv", [toString width]⟩, ⟨constructor, []⟩]

def doubleTerm (x : Float) : Term :=
  let number := .number (Decimal.programText.magnitude x)
  if x.isNaN then .path [⟨"NaN", []⟩]
  else if Decimal.isNegative x then .unary .negate number
  else number

def literalTerm : Literal → Term
  | .bool value => .path [⟨if value then "true" else "false", []⟩]
  | .int value =>
    let number := Term.number (toString value.toInt.natAbs)
    if value = Int64.minValue then .path [⟨"i64", []⟩, ⟨"MIN", []⟩]
    else if value < 0 then .group (.unary .negate number)
    else number
  | .real value =>
    let digits := doubleTerm value.toFloat
    if value.toFloat < 0 then .group digits else digits
  | .bitVec bits width => .call (vectorPath width "new") [.number (toString bits.toNat)]

namespace Expression

mutual

def term : Expression → Term
  | argument identifier => .path [⟨identifier, []⟩]
  | temporary declared => .path [⟨declared.name, []⟩]
  | literal value => literalTerm value
  | unary operator operand => .group (.unary operator operand.term)
  | chain operator operands => .group (chainTerm operator (terms operands))
  | implication premise conclusion => .binary .or (.unary .not premise.term) conclusion.term
  | conditional condition first second => .conditional condition.term first.term second.term
  | integerQuotient left right => .call [⟨"int_div", []⟩] [left.term, right.term]
  | integerPower base exponent =>
    .method (.group base.term) "wrapping_pow" [.cast (.group exponent.term) "u32"]
  | realPower base exponent => .method (.group base.term) "powf" [exponent.term]
  | wrapping operator width left right =>
    .call (vectorPath width "from_unsigned")
      [.method (.method left.term "unsigned" []) operator.text
        [.method right.term "unsigned" []]]
  | unsignedQuotient width left right =>
    .call (vectorPath width "from_unsigned")
      [.method (.method (.method left.term "unsigned" []) "checked_div"
        [.method right.term "unsigned" []]) "unwrap_or" [.path [⟨"u64", []⟩, ⟨"MAX", []⟩]]]
  | signedQuotient left right => .call [⟨"bv_sdiv", []⟩] [left.term, right.term]
  | signedShiftRight left right => .call [⟨"bv_ashr", []⟩] [left.term, right.term]
  | compare view strict left right =>
    .group (.binary (if strict then .below else .atMost) (.method left.term view.text [])
      (.method right.term view.text []))
  | sameBits left right =>
    .call (vectorPath 1 "new") [.cast (.group (.binary .equal left.term right.term)) "u64"]
  | extract result width low high operand =>
    .call [⟨"bv_extract", [toString result, toString width]⟩]
      [operand.term, .number (toString low), .number (toString high)]
  | concat high low result left right =>
    .call [⟨"bv_concat", [toString high, toString low, toString result]⟩] [left.term, right.term]

def terms : List Expression → List Term
  | [] => []
  | first :: rest => first.term :: terms rest

end

end Expression

theorem intercalate_cons {α : Type} (separator first : List α) (rest : List (List α)) :
    separator.intercalate (first :: rest) = first ++ rest.flatMap (separator ++ ·) := by
  induction rest generalizing first with
  | nil => simp
  | cons second rest ih => rw [List.intercalate_cons_cons, ih, List.flatMap_cons]; simp

theorem letters_ofMark (mark : Mark) : (ofMark mark).letters = mark.letters := by
  simp [ofMark, Token.letters]

theorem letters_ofWord (text : String) : (ofWord text).letters = text.toList := by
  simp [ofWord, Token.word, Token.letters]

theorem letters_ofNumber (text : String) : (ofNumber text).letters = text.toList := by
  simp [ofNumber, Token.letters]

theorem letters_listed (layouts : List Layout) :
    (listed layouts).letters = ", ".toList.intercalate (layouts.map Layout.letters) := by
  cases layouts with
  | nil => rfl
  | cons first rest =>
    rw [List.map_cons, intercalate_cons, listed, letters_append]
    congr 1
    induction rest with
    | nil => rfl
    | cons next rest ih =>
      rw [List.flatMap_cons, List.map_cons, List.flatMap_cons, letters_append, ih]
      simp [letters_ofMark, Mark.letters]

theorem letters_name (name : String) : (pathLayout [⟨name, []⟩]).letters = name.toList := by
  simp [pathLayout, Segment.layout, parametersLayout, letters_ofWord]

theorem letters_instantiated (name : String) (width : Nat) (widths : List Nat) :
    (Segment.layout ⟨name, (width :: widths).map toString⟩).letters =
      (instantiated name (width :: widths)).toList := by
  have each : ((width :: widths).map toString).map (Layout.letters ∘ ofNumber) =
      ((width :: widths).map toString).map String.toList :=
    List.map_congr_left fun text _ => letters_ofNumber text
  rw [List.map_cons] at each ⊢
  simp only [Segment.layout, parametersLayout, letters_append, letters_ofWord, letters_ofMark,
    letters_listed, List.map_map, each]
  simp [instantiated, Mark.letters]

theorem letters_instance (name : String) (width : Nat) (widths : List Nat) :
    (pathLayout [⟨name, (width :: widths).map toString⟩]).letters =
      (instantiated name (width :: widths)).toList := by
  rw [pathLayout, List.flatMap_nil, List.append_nil, letters_instantiated]

theorem letters_vectorPath (width : Nat) (constructor : String) :
    (pathLayout (vectorPath width constructor)).letters =
      (instantiated "Bv" [width] ++ "::" ++ constructor).toList := by
  rw [String.toList_append, String.toList_append, ← letters_instantiated]
  simp [vectorPath, pathLayout, Segment.layout, parametersLayout, letters_ofWord, letters_ofMark,
    Mark.letters]

theorem ChainOperator.mark_letters (operator : ChainOperator) :
    operator.mark.letters = operator.text.toList := by
  cases operator <;> rfl

theorem UnaryOperator.mark_letters (operator : UnaryOperator) :
    operator.mark.letters = operator.text.toList := by
  cases operator <;> rfl

def Term.Spells (term : Term) (text : String) : Prop := term.letters = text.toList

namespace Term.Spells

theorem number (text : String) : (Term.number text).Spells text := letters_ofNumber text

theorem name (text : String) : (path [⟨text, []⟩]).Spells text := letters_name text

theorem unary {operand : Term} {text : String} (operator : UnaryOperator)
    (spelled : operand.Spells text) : (unary operator operand).Spells (operator.text ++ text) := by
  rw [Spells, letters, layout, letters_append, letters_ofMark, operator.mark_letters,
    String.toList_append, ← spelled]
  rfl

theorem binary {left right : Term} {first second : String} (operator : ChainOperator)
    (leftSpelled : left.Spells first) (rightSpelled : right.Spells second) :
    (binary operator left right).Spells (first ++ (" " ++ operator.text ++ " ") ++ second) := by
  rw [Spells] at *
  simp [letters, layout, spaced, letters_ofMark, operator.mark_letters, ← leftSpelled,
    ← rightSpelled]

theorem cast {operand : Term} {text : String} (type : String) (spelled : operand.Spells text) :
    (cast operand type).Spells (text ++ (" as " ++ type)) := by
  rw [Spells] at *
  simp [letters, layout, spaced, letters_ofWord, ← spelled]

theorem group {inner : Term} {text : String} (spelled : inner.Spells text) :
    (group inner).Spells (bracketed text) := by
  rw [Spells] at *
  simp [letters, layout, letters_ofMark, Mark.letters, bracketed, ← spelled]

theorem conditional {condition first second : Term} {conditionText firstText secondText : String}
    (conditionSpelled : condition.Spells conditionText) (firstSpelled : first.Spells firstText)
    (secondSpelled : second.Spells secondText) :
    (conditional condition first second).Spells
      ("if " ++ conditionText ++ " \x7b " ++ firstText ++ " \x7d else \x7b " ++ secondText ++
        " \x7d") := by
  rw [Spells] at *
  simp [letters, layout, spaced, letters_ofMark, letters_ofWord, Mark.letters,
    ← conditionSpelled, ← firstSpelled, ← secondSpelled]

theorem map_letters {terms : List Term} {texts : List String}
    (spelled : List.Forall₂ Spells terms texts) :
    terms.map letters = texts.map String.toList := by
  induction spelled with
  | nil => rfl
  | cons first _ ih => rw [List.map_cons, List.map_cons, ih, first]

theorem arguments {arguments : List Term} {texts : List String}
    (spelled : List.Forall₂ Spells arguments texts) :
    (ofMark .opening ++ listed (layouts arguments) ++ ofMark .closing).letters =
      (bracketed (String.intercalate ", " texts)).toList := by
  have listing : (listed (layouts arguments)).letters =
      ", ".toList.intercalate (texts.map String.toList) := by
    rw [letters_listed, layouts_eq, List.map_map, ← map_letters spelled]
    rfl
  rw [letters_append, letters_append, listing]
  simp [letters_ofMark, Mark.letters, bracketed]

theorem call {function : List Segment} {name : String} {arguments : List Term}
    {texts : List String} (named : (pathLayout function).letters = name.toList)
    (spelled : List.Forall₂ Spells arguments texts) :
    (call function arguments).Spells (Code.call name texts) := by
  rw [Spells, Code.call, String.toList_append, ← named, ← Spells.arguments spelled, letters, layout]
  simp

theorem vectorCall {argument : Term} {text : String} (width : Nat) (constructor : String)
    (spelled : argument.Spells text) :
    (Term.call (vectorPath width constructor) [argument]).Spells
      (Code.vectorCall width constructor text) :=
  call (letters_vectorPath width constructor) (.cons spelled .nil)

theorem method {receiver : Term} {text : String} {arguments : List Term} {texts : List String}
    (name : String) (receiverSpelled : receiver.Spells text)
    (spelled : List.Forall₂ Spells arguments texts) :
    (method receiver name arguments).Spells (methodCall text name texts) := by
  rw [Spells] at receiverSpelled
  rw [Spells, methodCall, Code.call, String.toList_append, ← Spells.arguments spelled]
  simp [letters, layout, letters_ofMark, letters_ofWord, Mark.letters, ← receiverSpelled]

theorem chain {terms : List Term} {texts : List String} (operator : ChainOperator)
    (spelled : List.Forall₂ Spells terms texts) :
    (chainTerm operator terms).Spells
      (String.intercalate (" " ++ operator.text ++ " ") texts) := by
  rw [Spells, String.toList_intercalate, ← map_letters spelled]
  clear spelled
  cases terms with
  | nil => rfl
  | cons first rest =>
    rw [List.map_cons, intercalate_cons, chainTerm]
    induction rest generalizing first with
    | nil => simp
    | cons next rest ih =>
      rw [List.foldl_cons, ih]
      simp [letters, layout, spaced, letters_ofMark, operator.mark_letters]

end Term.Spells

open Term (Spells)

theorem toString_neg {number : Int} (negative : number < 0) :
    toString number = "-" ++ toString number.natAbs := by
  obtain ⟨size, rfl⟩ := Int.eq_negSucc_of_lt_zero negative
  rfl

theorem toString_natAbs {number : Int} (least : 0 ≤ number) :
    toString number = toString number.natAbs := by
  obtain ⟨size, rfl⟩ := Int.eq_ofNat_of_zero_le least
  rfl

theorem doubleTerm_spells (x : Float) : (doubleTerm x).Spells (Decimal.programText.text x) := by
  unfold doubleTerm Decimal.Layout.text
  split
  · exact .name "NaN"
  · split
    · exact .unary .negate (.number _)
    · rw [String.empty_append]
      exact .number _

theorem literalTerm_spells (value : Literal) : (literalTerm value).Spells (literalText value) := by
  cases value with
  | bool value => exact .name _
  | int value =>
    simp only [literalTerm, literalText]
    split
    · rfl
    · split
      · rename_i negative
        rw [toString_neg (Int64.lt_iff_toInt_lt.mp negative)]
        exact .group (.unary .negate (.number _))
      · rename_i negative
        have least : 0 ≤ value.toInt := Int.not_lt.mp fun below =>
          negative (Int64.lt_iff_toInt_lt.mpr below)
        rw [toString_natAbs least]
        exact .number _
  | real value =>
    simp only [literalTerm, literalText]
    split
    · exact .group (doubleTerm_spells _)
    · exact doubleTerm_spells _
  | bitVec bits width => exact .vectorCall width "new" (.number _)

namespace Expression

theorem terms_spell {list : List Expression} (parts : ∀ part ∈ list, part.term.Spells part.text) :
    List.Forall₂ Spells (terms list) (texts list) := by
  induction list with
  | nil => exact .nil
  | cons first rest ih =>
    rw [List.forall_mem_cons] at parts
    exact .cons parts.1 (ih parts.2)

theorem both_spell {whole left right : Expression} (pair : whole.immediate = [left, right])
    (parts : ∀ part ∈ whole.immediate, part.term.Spells part.text) :
    left.term.Spells left.text ∧ right.term.Spells right.text :=
  ⟨parts left (by simp [pair]), parts right (by simp [pair])⟩

theorem term_spells (expression : Expression) : expression.term.Spells expression.text := by
  induction expression using inductOn with
  | step expression ih =>
    cases expression with
    | argument | temporary => exact .name _
    | literal value => exact literalTerm_spells value
    | unary operator operand => exact .group (.unary operator (ih operand (by simp [immediate])))
    | chain operator operands => exact .group (.chain operator (terms_spell ih))
    | implication left right =>
      obtain ⟨first, second⟩ := both_spell rfl ih
      exact .binary .or (.unary .not first) second
    | conditional condition first second =>
      exact .conditional (ih condition (by simp [immediate])) (ih first (by simp [immediate]))
        (ih second (by simp [immediate]))
    | integerQuotient left right | signedQuotient left right | signedShiftRight left right =>
      obtain ⟨first, second⟩ := both_spell rfl ih
      exact .call (letters_name _) (.cons first (.cons second .nil))
    | integerPower left right =>
      obtain ⟨first, second⟩ := both_spell rfl ih
      exact .method _ (.group first) (.cons (.cast "u32" (.group second)) .nil)
    | realPower left right =>
      obtain ⟨first, second⟩ := both_spell rfl ih
      exact .method _ (.group first) (.cons second .nil)
    | wrapping operator width left right =>
      obtain ⟨first, second⟩ := both_spell rfl ih
      exact .vectorCall _ _ (.method _ (.method _ first .nil) (.cons (.method _ second .nil) .nil))
    | unsignedQuotient width left right =>
      obtain ⟨first, second⟩ := both_spell rfl ih
      have most : (Term.path [⟨"u64", []⟩, ⟨"MAX", []⟩]).Spells "u64::MAX" := rfl
      exact .vectorCall _ _ (.method _ (.method _ (.method _ first .nil)
        (.cons (.method _ second .nil) .nil)) (.cons most .nil))
    | compare view strict left right =>
      obtain ⟨first, second⟩ := both_spell rfl ih
      cases strict with
      | false => exact .group (.binary .atMost (.method _ first .nil) (.method _ second .nil))
      | true => exact .group (.binary .below (.method _ first .nil) (.method _ second .nil))
    | sameBits left right =>
      obtain ⟨first, second⟩ := both_spell rfl ih
      exact .vectorCall _ _ (.cast "u64" (.group (.binary .equal first second)))
    | extract result width low high operand =>
      exact .call (letters_instance "bv_extract" result [width])
        (.cons (ih operand (by simp [immediate])) (.cons (.number _) (.cons (.number _) .nil)))
    | concat high low result left right =>
      obtain ⟨first, second⟩ := both_spell rfl ih
      exact .call (letters_instance "bv_concat" high [low, result])
        (.cons first (.cons second .nil))

theorem letters_term (expression : Expression) :
    expression.term.letters = expression.text.toList :=
  expression.term_spells

end Expression

end Formulary.Code
