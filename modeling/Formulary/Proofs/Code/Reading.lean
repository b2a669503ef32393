import Formulary.Proofs.Code.Words
import Formulary.Proofs.Pattern
import Formulary.Proofs.Row

/-! Reading a pattern file back. An evaluator program knows no lines: it takes the tokens of
the file one after the other, the number of rows and then one token for each cell. No cell is
empty and none holds a blank, so every token is read as the cell it was written for. -/
namespace Formulary

namespace Row

/-- The doubles of a row are among those that are read back. -/
def Readable (row : Row) (real? : String → Option Float) : Prop :=
  ∀ name ratio, row.get? name = some (.real ratio) →
    real? (Decimal.plain.text ratio.toFloat) = some ratio.toFloat

/-- The value is that of the literal which the row binds to the column's name. -/
def Binds (row : Row) (column : Column) (value : Value) : Prop :=
  ∃ literal, row.get? column.name = some literal ∧ value = .ofLiteral literal

end Row

namespace Code

namespace Reader

/-- The number that decimal digits stand for, at least one of them. -/
def digits? (letters : List Char) : Option Nat :=
  if letters ≠ [] ∧ letters.all Char.isDigit then some (Nat.ofDigitChars 10 letters 0) else none

/-- A number, maybe with a plus sign. -/
def unsigned? : List Char → Option Nat
  | '+' :: rest => digits? rest
  | letters => digits? letters

def signed? : List Char → Option Int
  | '-' :: rest => (digits? rest).map fun number => -Int.ofNat number
  | '+' :: rest => (digits? rest).map Int.ofNat
  | letters => (digits? letters).map Int.ofNat

def word? (token : String) : Option UInt64 :=
  (unsigned? token.toList).bind fun number =>
    if number < Word.size then some (UInt64.ofNat number) else none

def integer? (token : String) : Option Int64 := (signed? token.toList).bind Ratio.word?

def truth? (token : String) : Option Bool :=
  if token = "1" ∨ token = "true" then some true
  else if token = "0" ∨ token = "false" then some false
  else none

/-- The value of a cell. How doubles are read is left to `real?`; a bit-vector loses the bits
above its width. -/
def cell? (real? : String → Option Float) : NativeType → String → Option Value
  | .bool, token => (truth? token).map .bool
  | .int, token => (integer? token).map .int
  | .real, token => (real? token).map .real
  | .bitVec width, token => (word? token).map (Machine.new width)

/-- What a file may lack. -/
inductive Fault where
  | noCount
  | count (token : String)
  | missing (row column : Nat)
  | cell (row column : Nat) (token : String)
deriving DecidableEq

variable (real? : String → Option Float)

/-- The values of the columns that are left of a row, from column `number` on, and the
tokens after them. -/
def readRow (row : Nat) : Nat → List Column → List String → Except Fault (List Value × List String)
  | _, [], tokens => .ok ([], tokens)
  | number, _ :: _, [] => .error (.missing row number)
  | number, column :: rest, token :: tokens =>
    match cell? real? column.type token with
    | none => .error (.cell row number token)
    | some value => do
      let (values, unread) ← readRow row (number + 1) rest tokens
      return (value :: values, unread)

def readRows (columns : Columns) :
    Nat → (count : Nat) → List String → Except Fault (List (List Value) × List String)
  | _, 0, tokens => .ok ([], tokens)
  | row, count + 1, tokens => do
    let (values, tokens) ← readRow real? row 0 columns.list tokens
    let (more, unread) ← readRows columns (row + 1) count tokens
    return (values :: more, unread)

/-- What a program finds in a pattern file. -/
structure Reading where
  count : Nat
  rows : List (List Value)
  unread : List String

/-- Reads a pattern file. Nothing in it says where a row ends. -/
def readPatterns (columns : Columns) (text : String) : Except Fault Reading :=
  match Text.tokens text.toList with
  | [] => .error .noCount
  | first :: tokens =>
    match word? first with
    | none => .error (.count first)
    | some count => do
      let (rows, unread) ← readRows real? columns 0 count.toNat tokens
      return ⟨count.toNat, rows, unread⟩

end Reader

open Reader

section Cells

theorem digits?_toDigits (number : Nat) : digits? (Nat.toDigits 10 number) = some number := by
  have allDigits : (Nat.toDigits 10 number).all Char.isDigit = true :=
    List.all_eq_true.mpr fun letter member =>
      Nat.isDigit_of_mem_toDigits (by decide) (by decide) member
  rw [digits?, if_pos ⟨Nat.toDigits_ne_nil, allDigits⟩, Nat.ofDigitChars_ten_toDigits]

theorem toDigits_head {number : Nat} {letter : Char} {rest : List Char}
    (letters : Nat.toDigits 10 number = letter :: rest) : letter.isDigit = true :=
  Nat.isDigit_of_mem_toDigits (by decide) (by decide) (letters ▸ List.mem_cons_self)

theorem unsigned?_toString (number : Nat) : unsigned? (toString number).toList = some number := by
  rw [Nat.toString_eq_ofList_toDigits, String.toList_ofList]
  unfold unsigned?
  split
  · rename_i signed
    cases toDigits_head signed
  · exact digits?_toDigits number

theorem signed?_toString (number : Int) : signed? (toString number).toList = some number := by
  cases number with
  | ofNat number =>
    change signed? (toString number).toList = _
    rw [Nat.toString_eq_ofList_toDigits, String.toList_ofList]
    unfold signed?
    split
    · rename_i signed
      cases toDigits_head signed
    · rename_i signed
      cases toDigits_head signed
    · rw [digits?_toDigits]
      rfl
  | negSucc number =>
    change signed? ("-" ++ toString (number + 1)).toList = _
    rw [Nat.toString_eq_ofList_toDigits, String.toList_append, String.toList_ofList,
      String.toList_ofList]
    change (digits? (Nat.toDigits 10 (number + 1))).map _ = _
    rw [digits?_toDigits]
    rfl

theorem word?_toString {number : Nat} (small : number < Word.size) :
    word? (toString number) = some (UInt64.ofNat number) := by
  rw [word?, unsigned?_toString, Option.bind_some, if_pos small]

theorem integer?_toString (value : Int64) : integer? (toString value.toInt) = some value := by
  rw [integer?, signed?_toString, Option.bind_some, Ratio.word?,
    if_pos ⟨Int64.minValue_le_toInt value, Int64.toInt_le value⟩, Int64.ofInt_toInt]

/-- A cell is read as the value of the literal that it was written for, if doubles are read
back. -/
theorem cell?_cell {real? : String → Option Float} {literal : Literal} {type : NativeType}
    (typed : literal.sort.native = .ok type)
    (readable : ∀ ratio, literal = .real ratio →
      real? (Decimal.plain.text ratio.toFloat) = some ratio.toFloat) :
    cell? real? type literal.cell = some (.ofLiteral literal) := by
  cases literal with
  | bool value =>
    cases typed
    cases value <;> rfl
  | int value =>
    cases typed
    exact congrArg (Option.map Value.int) (integer?_toString value)
  | real value =>
    cases typed
    exact congrArg (Option.map Value.real) (readable value rfl)
  | bitVec bits width =>
    simp only [Literal.sort, TermSort.native] at typed
    split at typed
    · cases typed
      have read : word? (toString bits.toNat) = some bits := by
        rw [word?_toString bits.toNat_lt, UInt64.ofNat_toNat]
      exact (congrArg (Option.map (Machine.new width)) read).trans
        (congrArg some (Machine.new_eq width bits))
    · cases typed

end Cells

section Rows

variable {real? : String → Option Float} {columns : Columns}

theorem readRow_cells {row : Row} (readable : row.Readable real?) {index : Nat}
    {list : List Column} {cells : List String}
    (encoded : List.Forall₂ (fun column cell => row.cell index column = .ok cell) list cells)
    (place number : Nat) (rest : List String) :
    ∃ values, readRow real? place number list (cells ++ rest) = .ok (values, rest) ∧
      List.Forall₂ row.Binds list values := by
  induction encoded generalizing number with
  | nil => exact ⟨[], rfl, .nil⟩
  | cons first _ ih =>
    obtain ⟨values, done, bound⟩ := ih (number + 1)
    obtain ⟨literal, stored, typed, rfl⟩ := Row.cell_ok first
    have value := cell?_cell typed fun ratio isReal => readable _ ratio (isReal ▸ stored)
    refine ⟨.ofLiteral literal :: values, ?_, .cons ⟨literal, stored, rfl⟩ bound⟩
    simp only [List.cons_append, readRow, value, done]
    rfl

/-- As many rows as were written are read, and nothing after them. -/
theorem readRows_lines {rows : List Row} {lines : List (List String)}
    (encoded :
      List.Forall₂ (fun row line => ∃ index, row.cells index columns = .ok line) rows lines)
    (readable : ∀ row ∈ rows, row.Readable real?) (place : Nat) :
    ∃ values, readRows real? columns place rows.length lines.flatten = .ok (values, []) ∧
      List.Forall₂ (fun row => List.Forall₂ row.Binds columns.list) rows values := by
  induction encoded generalizing place with
  | nil => exact ⟨[], rfl, .nil⟩
  | @cons row line rows lines first _ ih =>
    obtain ⟨index, made⟩ := first
    obtain ⟨values, done, bound⟩ := readRow_cells (readable row List.mem_cons_self)
      (mapM_ok.mp made) place 0 lines.flatten
    obtain ⟨more, others, boundAll⟩ := ih
      (fun other member => readable other (List.mem_cons_of_mem row member)) (place + 1)
    refine ⟨values :: more, ?_, .cons bound boundAll⟩
    simp only [List.length_cons, List.flatten_cons, readRows, done, others, bind, Except.bind]
    rfl

end Rows

/-- A program reads from a pattern file what was encoded: the number of rows, for each row
and column the value of the literal that the row binds to it, and nothing else. There are fewer
rows than machine words, and the texts of their doubles are read back. -/
theorem readPatterns_text (real? : String → Option Float) (columns : Columns) (base : Nat)
    (rows : List Row) (lines : List (List String))
    (encoded : encodeRows columns base rows = .ok lines) (countable : rows.length < Word.size)
    (readable : ∀ row ∈ rows, row.Readable real?) :
    ∃ values, readPatterns real? columns (Batch.text ⟨lines⟩) = .ok ⟨rows.length, values, []⟩ ∧
      List.Forall₂ (fun row => List.Forall₂ row.Binds columns.list) rows values := by
  obtain ⟨values, done, bound⟩ := readRows_lines (encodeRows_ok encoded) readable 0
  have counted : (UInt64.ofNat rows.length).toNat = rows.length :=
    UInt64.toNat_ofNat_of_lt countable
  refine ⟨values, ?_, bound⟩
  simp only [readPatterns, tokens_text encoded, word?_toString countable, counted, done]
  rfl

/-- A third, whose text goes on to the last digit of a double. -/
def third : Ratio := ⟨1, 3, by decide⟩

/-- A reader that knows the text of one double. -/
def readThird (token : String) : Option Float :=
  if token = Decimal.plain.text third.toFloat then some third.toFloat else none

/-- A row of one value of each kind. -/
def sampleRow (truth : Bool) (number : Int64) (bits : UInt64) : Row :=
  .ofList [("p", .bool truth), ("n", .int number), ("x", .real third), ("v", .bitVec bits 5)]

theorem sampleRow_readable (truth : Bool) (number : Int64) (bits : UInt64) :
    (sampleRow truth number bits).Readable readThird := by
  intro name ratio stored
  rw [sampleRow, Row.get?_ofList (by simp)] at stored
  simp only [List.mem_cons, Prod.mk.injEq, Literal.real.injEq, reduceCtorEq, and_false, false_or,
    List.not_mem_nil, or_false] at stored
  rw [stored.2]
  exact if_pos rfl

theorem readPatterns_text_sampleRow :
    let columns : Columns := ⟨[⟨"p", "v_p", .bool⟩, ⟨"n", "v_n", .int⟩, ⟨"x", "v_x", .real⟩,
      ⟨"v", "v_v", .bitVec 5⟩]⟩
    let rows := [sampleRow true Int64.minValue 0xFFFFFFFFFFFFFFFF,
      sampleRow false Int64.maxValue 32]
    let real := Decimal.plain.text third.toFloat
    let lines := [["1", "-9223372036854775808", real, "18446744073709551615"],
      ["0", "9223372036854775807", real, "32"]]
    encodeRows columns 0 rows = .ok lines ∧ (∀ row ∈ rows, row.Readable readThird) ∧
      ∃ values, readPatterns readThird columns (Batch.text ⟨lines⟩) = .ok ⟨2, values, []⟩ ∧
        List.Forall₂ (fun row => List.Forall₂ row.Binds columns.list) rows values := by
  intro columns rows real lines
  have encoded : encodeRows columns 0 rows = .ok lines := rfl
  have readable : ∀ row ∈ rows, row.Readable readThird := by
    simp only [rows, List.forall_mem_cons, List.not_mem_nil, false_implies, implies_true, and_true]
    exact ⟨sampleRow_readable _ _ _, sampleRow_readable _ _ _⟩
  exact ⟨encoded, readable,
    readPatterns_text readThird columns 0 rows lines encoded (by decide) readable⟩

end Code

end Formulary
