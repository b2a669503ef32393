import Formulary.Code.Expression
import Formulary.Columns
import Formulary.Evaluation

/-! From formulas to evaluator functions. Connectives, comparisons and choices are
declared once as temporaries; arithmetic is written where it is used. -/
namespace Formulary

namespace Code

/-- What stands for a node in the program. -/
structure Lowered where
  expression : Expression
  type : NativeType
  declared : Bool

/-- The function so far, and how many temporaries of each type it has. -/
structure Draft where
  columns : Columns
  counters : Std.HashMap NativeType Nat
  statements : List Statement

def Draft.empty : Draft := ⟨.empty, ∅, []⟩

def Draft.declare (draft : Draft) (type : NativeType) (value : Expression) : Lowered × Draft :=
  let number := draft.counters.getD type 0
  let target : Temporary := ⟨type, number⟩
  (⟨.temporary target, type, true⟩,
    { draft with
      counters := draft.counters.insert type (number + 1)
      statements := draft.statements ++ [⟨target, value⟩] })

/-- An evaluator function: its columns in order, declarations, and what it returns. -/
structure Function where
  columns : Columns
  statements : List Statement
  result : Lowered

end Code

namespace Operator

open Code (Lowered Expression)

/-- Operators on any number of operands that leave a single one as it is. -/
def keepsSingle : Operator → Bool
  | and | or | plus | times | div | bvAnd | bvOr | bvXor => true
  | _ => false

/-- Operators whose results become temporaries. -/
def isDeclared : Operator → Bool
  | not | and | or | implies | iff | equals | le | lt | ite | bvULt | bvULe | bvSLt | bvSLe => true
  | _ => false

def arityFault {α : Type} (operator : Operator) (expected : Nat)
    (operands : List Lowered) : Except Error α :=
  .error (.graph (.arity operator expected operands.length))

def oneOperand (operator : Operator) (operands : List Lowered)
    (form : Lowered → Except Error Expression) : Except Error Expression :=
  match operands with
  | [operand] => form operand
  | _ => arityFault operator 1 operands

def twoOperands (operator : Operator) (operands : List Lowered)
    (form : Lowered → Lowered → Except Error Expression) : Except Error Expression :=
  match operands with
  | [left, right] => form left right
  | _ => arityFault operator 2 operands

def chainOf (operator : Operator) (form : Code.ChainOperator)
    (operands : List Lowered) : Except Error Expression :=
  match operands with
  | [] => .error (.graph (.noChildren operator))
  | _ => .ok (.chain form (operands.map (·.expression)))

def pairOf (operator : Operator) (operands : List Lowered)
    (form : Expression → Expression → Expression) : Except Error Expression :=
  operator.twoOperands operands fun left right => .ok (form left.expression right.expression)

def pairChain (operator : Operator) (form : Code.ChainOperator)
    (operands : List Lowered) : Except Error Expression :=
  operator.pairOf operands fun left right => .chain form [left, right]

def operandWidth (operator : Operator) (operand : Lowered) : Except Error Nat :=
  match operand.type.width? with
  | some width => .ok width
  | none => .error (.graph (.operandType operator operand.type))

def resultWidth (operator : Operator) (type : NativeType) : Except Error Nat :=
  match type.width? with
  | some width => .ok width
  | none => .error (.graph (.resultNotVector operator))

def wrapping (operator : Operator) (form : Code.WrappingOperator)
    (operands : List Lowered) : Except Error Expression :=
  operator.twoOperands operands fun left right => do
    return .wrapping form (← operator.operandWidth left) left.expression right.expression

def compareVectors (operator : Operator) (view : Code.View) (strict : Bool)
    (operands : List Lowered) : Except Error Expression :=
  operator.twoOperands operands fun left right => do
    discard (operator.operandWidth left)
    return .compare view strict left.expression right.expression

def extractBits (operator : Operator) (low high : Nat) (type : NativeType)
    (operands : List Lowered) : Except Error Expression :=
  operator.oneOperand operands fun operand => do
    let width ← operator.operandWidth operand
    let result ← operator.resultWidth type
    if high < low ∨ width ≤ high ∨ high - low + 1 ≠ result then
      .error (.graph (.extractBounds operator low high width result))
    else return .extract result width low high operand.expression

def joinVectors (operator : Operator) (type : NativeType)
    (operands : List Lowered) : Except Error Expression :=
  operator.twoOperands operands fun left right => do
    let high ← operator.operandWidth left
    let low ← operator.operandWidth right
    let result ← operator.resultWidth type
    if high + low ≠ result then .error (.graph (.concatWidths operator high low result))
    else return .concat high low result left.expression right.expression

def quotient (operator : Operator) (type : NativeType) (operands : List Lowered) :
    Except Error Expression :=
  match type, operands with
  | .int, first :: rest =>
    .ok ((rest.map (·.expression)).foldl Expression.integerQuotient first.expression)
  | _, _ => operator.chainOf .divide operands

def expression (operator : Operator) (type : NativeType) (operands : List Lowered) :
    Except Error Expression :=
  match operator with
  | constant value => .ok (.literal value)
  | not | bvNot => operator.oneOperand operands fun operand => .ok (.unary .not operand.expression)
  | bvNeg => operator.oneOperand operands fun operand => .ok (.unary .negate operand.expression)
  | and => operator.chainOf .and operands
  | or => operator.chainOf .or operands
  | implies => operator.pairOf operands .implication
  | iff | equals => operator.pairChain .equal operands
  | le => operator.pairChain .atMost operands
  | lt => operator.pairChain .below operands
  | ite =>
    match operands with
    | [condition, first, second] =>
      .ok (.conditional condition.expression first.expression second.expression)
    | _ => operator.arityFault 3 operands
  | plus => operator.chainOf .plus operands
  | minus =>
    match operands with
    | [operand] => .ok (.unary .negate operand.expression)
    | _ => operator.chainOf .minus operands
  | times => operator.chainOf .times operands
  | div => operator.quotient type operands
  | pow =>
    operator.pairOf operands (if type = .int then .integerPower else .realPower)
  | bvAnd => operator.chainOf .bitAnd operands
  | bvOr => operator.chainOf .bitOr operands
  | bvXor => operator.chainOf .bitXor operands
  | bvShl => operator.pairChain .shiftLeft operands
  | bvLShr => operator.pairChain .shiftRight operands
  | bvAShr => operator.pairOf operands .signedShiftRight
  | bvAdd => operator.wrapping .add operands
  | bvSub => operator.wrapping .sub operands
  | bvMul => operator.wrapping .mul operands
  | bvUDiv =>
    operator.twoOperands operands fun left right => do
      return .unsignedQuotient (← operator.operandWidth left) left.expression right.expression
  | bvSDiv => operator.pairOf operands .signedQuotient
  | bvULt => operator.compareVectors .unsigned true operands
  | bvULe => operator.compareVectors .unsigned false operands
  | bvSLt => operator.compareVectors .signed true operands
  | bvSLe => operator.compareVectors .signed false operands
  | bvComp => operator.pairOf operands .sameBits
  | bvExtract low high => operator.extractBits low high type operands
  | bvConcat => operator.joinVectors type operands
  | _ => .error (.unsupported operator)

end Operator

namespace Code

/-- What stands for a node of the given type, and the function with the columns and
declarations that it needs. -/
def lowerTyped (operator : Operator) (type : NativeType) (operands : List Lowered)
    (draft : Draft) : Except Error (Lowered × Draft) :=
  match operator with
  | .symbol name =>
    match draft.columns.register name type with
    | .error error => .error error
    | .ok (identifier, columns) =>
      .ok (⟨.argument identifier, type, false⟩, { draft with columns })
  | _ =>
    match operator.expression type operands with
    | .error error => .error error
    | .ok expression =>
      if operator.isDeclared then .ok (draft.declare type expression)
      else .ok (⟨expression, type, false⟩, draft)

def lower (node : Node) (operands : List Lowered) (draft : Draft) :
    Except Error (Lowered × Draft) :=
  match node.sort.native with
  | .error error => .error error
  | .ok type =>
    match operands with
    | [only] =>
      if node.operator.keepsSingle then .ok (only, draft)
      else lowerTyped node.operator type operands draft
    | _ => lowerTyped node.operator type operands draft

def lowering : Pass Draft Lowered where
  enter := Node.admit
  leave := lower
  childMissing _ node child := .graph (.childNotLowered node.operator child)
  rootMissing root := .graph (.rootNotLowered root)

end Code

def Formula.lower (formula : Formula) : Except Error Code.Function :=
  (Code.lowering.run formula .empty).map fun (result, draft) =>
    ⟨draft.columns, draft.statements, result⟩

end Formulary
