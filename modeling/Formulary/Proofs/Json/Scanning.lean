import Formulary.Json.Writer
import Mathlib.Data.List.Basic
import Mathlib.Tactic.IntervalCases

namespace Formulary.Json.Token

section Strings

/-- A part that gives a string one character. -/
def Piece.Spells (piece : Piece) (c : Char) : Prop :=
  ∀ before more, characters before (piece :: more) = characters (c :: before) more

theorem Piece.char_spells (c : Char) : (Piece.char c).Spells c := by
  intro before more
  rw [characters]

theorem Piece.unit_spells {c : Char} (low : c.toNat < 0xD800) : (Piece.unit c.toNat).Spells c := by
  intro before more
  rw [characters.eq_def]
  dsimp only
  rw [if_pos (.inl low), Char.ofNat_toNat]

/-- Control characters are written as units of two zeros and two further digits. -/
theorem hexUnit?_hexChar {code : Nat} (control : code < 0x20) :
    hexUnit? '0' '0' (hexChar (code / 16)) (hexChar code) = some code := by
  interval_cases code <;> rfl

/-- An escaped character is one part of a string. -/
theorem pieces_escape (c : Char) :
    ∃ piece : Piece, piece.Spells c ∧ ∀ reversed rest,
      pieces reversed (escape c ++ rest) = pieces (piece :: reversed) rest := by
  unfold escape
  split
  · exact ⟨_, Piece.char_spells _, fun _ _ => rfl⟩
  · exact ⟨_, Piece.char_spells _, fun _ _ => rfl⟩
  · exact ⟨_, Piece.char_spells _, fun _ _ => rfl⟩
  · exact ⟨_, Piece.char_spells _, fun _ _ => rfl⟩
  · exact ⟨_, Piece.char_spells _, fun _ _ => rfl⟩
  · exact ⟨_, Piece.char_spells _, fun _ _ => rfl⟩
  · exact ⟨_, Piece.char_spells _, fun _ _ => rfl⟩
  · rename_i quote backslash _ _ _ _ _
    split
    · rename_i control
      refine ⟨_, Piece.unit_spells (by omega), fun reversed rest => ?_⟩
      simp [pieces, hexUnit?_hexChar control]
    · rename_i plain
      refine ⟨_, Piece.char_spells c, fun reversed rest => ?_⟩
      rw [List.singleton_append, pieces.eq_def]
      split <;> simp_all

theorem pieces_text (text : List Char) :
    ∃ parts : List Piece,
      (∀ reversed rest, pieces reversed (text.flatMap escape ++ '"' :: rest) =
        some (parts.reverse ++ reversed, rest)) ∧
      ∀ before, characters before parts = some (before.reverse ++ text) := by
  induction text with
  | nil => exact ⟨[], fun _ _ => by simp [pieces], fun _ => by simp [characters]⟩
  | cons c more ih =>
    obtain ⟨parts, read, spelled⟩ := ih
    obtain ⟨piece, spells, taken⟩ := pieces_escape c
    refine ⟨piece :: parts, fun reversed rest => ?_, fun before => ?_⟩
    · rw [List.flatMap_cons, List.append_assoc, taken, read]
      simp
    · rw [spells, spelled]
      simp

theorem quoted_text (text : String) (rest : List Char) :
    quoted (text.toList.flatMap escape ++ '"' :: rest) = some (some text, rest) := by
  obtain ⟨parts, read, spelled⟩ := pieces_text text.toList
  rw [quoted, read]
  simp [spelled]

/-- Half a pair of units has no text. -/
theorem quoted_half (rest : List Char) :
    quoted ('\\' :: 'u' :: 'd' :: '8' :: '0' :: '0' :: '"' :: rest) = some (none, rest) := by
  have code : hexUnit? 'd' '8' '0' '0' = some 0xD800 := rfl
  simp [quoted, pieces, code, characters]

end Strings

section Numbers

/-- What may stand after a number. -/
def EndsNumber (rest : List Char) : Prop :=
  ∀ c ∈ rest.head?, c.isDigit = false ∧ c ≠ '.' ∧ c ≠ 'e' ∧ c ≠ 'E'

variable {rest : List Char}

theorem EndsNumber.takeWhile (ends : EndsNumber rest) : rest.takeWhile Char.isDigit = [] := by
  cases rest with
  | nil => rfl
  | cons c more =>
    obtain ⟨digit, _⟩ := ends c rfl
    rw [List.takeWhile_cons, digit]
    rfl

theorem EndsNumber.dropWhile (ends : EndsNumber rest) : rest.dropWhile Char.isDigit = rest := by
  cases rest with
  | nil => rfl
  | cons c more =>
    obtain ⟨digit, _⟩ := ends c rfl
    rw [List.dropWhile_cons, digit]
    rfl

theorem EndsNumber.fraction (ends : EndsNumber rest) : fraction rest = some (false, rest) := by
  unfold Token.fraction
  split
  · exact absurd rfl (ends '.' rfl).2.1
  · rfl

theorem EndsNumber.exponent (ends : EndsNumber rest) : exponent rest = some (false, rest) := by
  unfold Token.exponent
  split
  · exact absurd rfl (ends 'e' rfl).2.2.1
  · exact absurd rfl (ends 'E' rfl).2.2.2
  · rfl

theorem digitsValue_toDigits (number : Nat) : digitsValue (Nat.toDigits 10 number) = number := by
  have same : digitsValue (Nat.toDigits 10 number) =
      Nat.ofDigitChars 10 (Nat.toDigits 10 number) 0 := by
    simp only [digitsValue, Nat.ofDigitChars, Nat.mul_comm 10]
  rw [same, Nat.ofDigitChars_ten_toDigits]

/-- Only zero is written with a zero in front. -/
theorem toDigits_leading {number : Nat} (zero : (Nat.toDigits 10 number).head? = some '0') :
    number = 0 := by
  induction number using Nat.strongRecOn with
  | ind number ih =>
    by_cases small : number < 10
    · rw [Nat.toDigits_of_lt_base small] at zero
      interval_cases number <;> first | rfl | cases zero
    · have large : 10 ≤ number := Nat.le_of_not_lt small
      rw [Nat.toDigits_of_base_le (by decide) large,
        List.head?_append_of_ne_nil _ Nat.toDigits_ne_nil] at zero
      have none := ih (number / 10) (by omega) zero
      omega

theorem isDigit_of_toDigits {number : Nat} : ∀ c ∈ Nat.toDigits 10 number, c.isDigit :=
  fun _ member => Nat.isDigit_of_mem_toDigits (by decide) (by decide) member

theorem magnitude_toDigits (negative : Bool) (number : Nat) (ends : EndsNumber rest) :
    magnitude negative (Nat.toDigits 10 number ++ rest) =
      some (.integer negative number, rest) := by
  have digits : (Nat.toDigits 10 number ++ rest).takeWhile Char.isDigit =
      Nat.toDigits 10 number := by
    rw [List.takeWhile_append_of_pos isDigit_of_toDigits, ends.takeWhile, List.append_nil]
  have after : (Nat.toDigits 10 number ++ rest).dropWhile Char.isDigit = rest := by
    rw [List.dropWhile_append_of_pos isDigit_of_toDigits, ends.dropWhile]
  have plain : ((Nat.toDigits 10 number).isEmpty ||
      ((Nat.toDigits 10 number).head? = some '0' && (Nat.toDigits 10 number).length ≠ 1)) =
        false := by
    by_cases zero : (Nat.toDigits 10 number).head? = some '0'
    · rw [toDigits_leading zero]
      rfl
    · simp [zero, Nat.toDigits_ne_nil]
  unfold magnitude
  rw [digits, after]
  dsimp only
  rw [plain, ends.fraction]
  simp [ends.exponent, digitsValue_toDigits]

/-- The one spelling of a number that is no integer. -/
theorem magnitude_half (ends : EndsNumber rest) :
    magnitude false ('0' :: '.' :: '5' :: rest) = some (.fractional, rest) := by
  have after : someDigits ('5' :: rest) = some rest := by
    have dropped := ends.dropWhile
    simpa [someDigits] using dropped
  have fractional : fraction ('.' :: '5' :: rest) = some (true, rest) := by
    simp [fraction, after]
  simp [magnitude, fractional, ends.exponent]

end Numbers

/-- Tokens that what follows may continue. -/
def isNumber : Token → Bool
  | number _ => true
  | _ => false

theorem text_null : null.text = ['n', 'u', 'l', 'l'] := String.toList_ofList

theorem text_true : (bool true).text = ['t', 'r', 'u', 'e'] := String.toList_ofList

theorem text_false : (bool false).text = ['f', 'a', 'l', 's', 'e'] := String.toList_ofList

theorem text_half : (number .fractional).text = ['0', '.', '5'] := String.toList_ofList

theorem text_textless : (string none).text = ['"', '\\', 'u', 'd', '8', '0', '0', '"'] :=
  String.toList_ofList

theorem text_natural (magnitude : Nat) :
    ∃ c more, (number (.integer false magnitude)).text = c :: more ∧ c.isDigit := by
  obtain ⟨c, more, letters⟩ := List.exists_cons_of_ne_nil (@Nat.toDigits_ne_nil magnitude 10)
  have digit : c.isDigit := isDigit_of_toDigits c (letters ▸ List.mem_cons_self)
  exact ⟨c, more, letters, digit⟩

theorem isBlank_digit {c : Char} (digit : c.isDigit) : isBlank c = false := by
  by_contra blank
  simp only [isBlank, Bool.not_eq_false, Bool.or_eq_true, decide_eq_true_eq] at blank
  rcases blank with ((rfl | rfl) | rfl) | rfl <;> cases digit

theorem text_start (token : Token) :
    ∃ c more, token.text = c :: more ∧ isBlank c = false ∧
      (token.isNumber = false → ∀ rest, EndsNumber (c :: rest)) := by
  cases token with
  | openArray | closeArray | openObject | closeObject | comma | colon =>
    exact ⟨_, _, rfl, by decide, fun _ rest => by simp [EndsNumber]⟩
  | null => exact ⟨_, _, text_null, by decide, fun _ rest => by simp [EndsNumber]⟩
  | bool value =>
    cases value with
    | true => exact ⟨_, _, text_true, by decide, fun _ rest => by simp [EndsNumber]⟩
    | false => exact ⟨_, _, text_false, by decide, fun _ rest => by simp [EndsNumber]⟩
  | string value =>
    cases value with
    | none => exact ⟨_, _, text_textless, by decide, fun _ rest => by simp [EndsNumber]⟩
    | some text => exact ⟨_, _, rfl, by decide, fun _ rest => by simp [EndsNumber]⟩
  | number value =>
    cases value with
    | fractional => exact ⟨_, _, text_half, by decide, nofun⟩
    | integer negative magnitude =>
      cases negative with
      | true => exact ⟨_, _, rfl, by decide, nofun⟩
      | false =>
        obtain ⟨c, more, letters, digit⟩ := text_natural magnitude
        exact ⟨c, more, letters, isBlank_digit digit, nofun⟩

theorem first?_quote (rest : List Char) :
    first? ('"' :: rest) = (quoted rest).map fun (text, rest) => (string text, rest) := rfl

theorem first?_digit {c : Char} (digit : c.isDigit) (rest : List Char) :
    first? (c :: rest) =
      (magnitude false (c :: rest)).map fun (value, rest) => (number value, rest) := by
  rw [first?.eq_def]
  split <;> first | rfl | (rename_i letters; cases letters; cases digit)

theorem first?_text (token : Token) (rest : List Char)
    (ends : token.isNumber → EndsNumber rest) :
    first? (token.text ++ rest) = some (token, rest) := by
  cases token with
  | openArray | closeArray | openObject | closeObject | comma | colon => rfl
  | null =>
    rw [text_null]
    rfl
  | bool value =>
    cases value with
    | true =>
      rw [text_true]
      rfl
    | false =>
      rw [text_false]
      rfl
  | string value =>
    cases value with
    | none =>
      rw [text_textless, List.cons_append, first?_quote]
      simp only [List.cons_append, List.nil_append]
      rw [quoted_half]
      rfl
    | some text =>
      have spelled : (string (some text)).text =
        '"' :: (text.toList.flatMap escape ++ ['"']) := rfl
      rw [spelled, List.cons_append, first?_quote, List.append_assoc, List.singleton_append,
        quoted_text]
      rfl
  | number value =>
    cases value with
    | fractional =>
      rw [text_half, List.cons_append, first?_digit (by decide)]
      simp [magnitude_half (ends rfl)]
    | integer negative magnitude =>
      have read := magnitude_toDigits negative magnitude (ends rfl)
      cases negative with
      | true => simp [Token.text, numberText, first?, read]
      | false =>
        obtain ⟨c, more, letters, digit⟩ := text_natural magnitude
        rw [letters, List.cons_append, first?_digit digit, ← List.cons_append, ← letters]
        simp [Token.text, numberText, read]

/-- Tokens that may come after a number. -/
def Stops (tokens : List Token) : Prop := ∀ next ∈ tokens.head?, next.isNumber = false

/-- No number comes right before another. -/
def Separated : List Token → Prop
  | [] => True
  | token :: rest => (token.isNumber → Stops rest) ∧ Separated rest

theorem endsNumber_flatMap {tokens : List Token} (stops : Stops tokens) :
    EndsNumber (tokens.flatMap text) := by
  cases tokens with
  | nil => simp [EndsNumber]
  | cons token rest =>
    obtain ⟨c, more, letters, _, ends⟩ := token.text_start
    rw [List.flatMap_cons, letters]
    exact ends (stops token rfl) _

theorem scan_tokens {tokens : List Token} (separated : Separated tokens) {fuel : Nat}
    (enough : tokens.length ≤ fuel) (reversed : List Token) :
    scan fuel reversed (tokens.flatMap text) = some (tokens.reverse ++ reversed) := by
  induction tokens generalizing fuel reversed with
  | nil => simp [scan]
  | cons token rest ih =>
    obtain ⟨apart, separated⟩ := separated
    obtain ⟨c, more, letters, solid, _⟩ := token.text_start
    -- What follows a number is known from the token after it, so the scanner stops in time.
    have read := first?_text token (rest.flatMap text) fun number =>
      endsNumber_flatMap (apart number)
    cases fuel with
    | zero => cases enough
    | succ fuel =>
      rw [letters] at read
      have next := ih separated (Nat.le_of_succ_le_succ enough) (token :: reversed)
      rw [List.flatMap_cons, letters, List.cons_append, scan, ← List.cons_append, read]
      simp [solid, next]

theorem length_le_flatMap (tokens : List Token) :
    tokens.length ≤ (tokens.flatMap text).length := by
  induction tokens with
  | nil => simp
  | cons token rest ih =>
    obtain ⟨c, more, letters, _⟩ := token.text_start
    rw [List.flatMap_cons, letters, List.length_append, List.length_cons, List.length_cons]
    omega

/-- Written tokens are scanned as they were. -/
theorem ofText?_flatMap {tokens : List Token} (separated : Separated tokens) :
    ofText? (String.ofList (tokens.flatMap text)) = some tokens := by
  have scanned := scan_tokens separated (length_le_flatMap tokens) []
  rw [ofText?, String.toList_ofList, scanned]
  simp

end Formulary.Json.Token
