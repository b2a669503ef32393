import Formulary.Proofs.Code.Meaning

namespace Formulary

/-- A finite double is read back from its text without the sign. -/
structure Decimal.ReadsBack (real? : String → Option Float) (x : Float) : Prop where
  isNumber : x.isNaN = false
  finite : x.isInf = false
  magnitude : ∃ size, real? (programText.magnitude x) = some size ∧
    (if isNegative x then -size else size) = x

namespace Code

/-- Letters that belong to every number they follow. -/
def isPlain (letter : Char) : Bool := isWordLetter letter || letter = '.'

theorem isPlain_of_mem_toDigits {number : Nat} {letter : Char}
    (member : letter ∈ Nat.toDigits 10 number) : isPlain letter = true := by
  have digit := Nat.isDigit_of_mem_toDigits (by decide) (by decide) member
  simp [isPlain, isWordLetter_of_isDigit digit]

theorem isPlain_of_mem_zeros {count : Nat} {letter : Char}
    (member : letter ∈ Decimal.Layout.zeros count) : isPlain letter = true := by
  rw [List.eq_of_mem_replicate member]
  decide

theorem isChain_of_plain {first : Char} {rest : List Char}
    (plain : ∀ letter ∈ rest, isPlain letter = true) :
    (first :: rest).IsChain (continuesNumber · ·) := by
  induction rest generalizing first with
  | nil => exact .singleton _
  | cons second rest ih =>
    rw [List.forall_mem_cons] at plain
    refine List.isChain_cons_cons.mpr ⟨?_, ih plain.2⟩
    simp only [isPlain] at plain
    simp [continuesNumber, plain.1]

theorem isWhole_of_plain {letters : List Char} (starts : letters.head?.any Char.isDigit = true)
    (plain : ∀ letter ∈ letters, isPlain letter = true) : (Token.number letters).IsWhole := by
  cases letters with
  | nil => cases starts
  | cons first rest => exact ⟨starts, isChain_of_plain (List.forall_mem_cons.mp plain).2⟩

theorem toDigits_starts (number : Nat) :
    (Nat.toDigits 10 number).head?.any Char.isDigit = true := by
  cases letters : Nat.toDigits 10 number with
  | nil => exact absurd letters Nat.toDigits_ne_nil
  | cons first rest => exact toDigits_head letters

theorem isNumber_toString (number : Nat) : IsNumber (toString number) := by
  rw [IsNumber, Nat.toString_eq_ofList_toDigits, String.toList_ofList]
  exact isWhole_of_plain (toDigits_starts number) fun _ => isPlain_of_mem_toDigits

theorem numberMeaning_toString (real? : String → Option Float) (number : Nat) :
    numberMeaning real? (toString number) = some (.numeral number) := by
  rw [numberMeaning, Nat.toString_eq_ofList_toDigits, String.toList_ofList, digits?_toDigits]

theorem starts_append {first second : List Char} (starts : first.head?.any Char.isDigit = true) :
    (first ++ second).head?.any Char.isDigit = true := by
  cases first with
  | nil => cases starts
  | cons => exact starts

theorem starts_take {letters : List Char} {count : Nat}
    (starts : letters.head?.any Char.isDigit = true) (some : 0 < count) :
    (letters.take count).head?.any Char.isDigit = true := by
  rw [List.head?_take, if_neg some.ne']
  exact starts

/-- The power of ten after an exponent's letter, which alone may have a sign. -/
theorem isChain_exponent (power : Int) :
    ('e' :: (toString power).toList).IsChain (continuesNumber · ·) := by
  cases power with
  | ofNat number =>
    change ('e' :: (toString number).toList).IsChain _
    rw [Nat.toString_eq_ofList_toDigits, String.toList_ofList]
    exact isChain_of_plain fun _ => isPlain_of_mem_toDigits
  | negSucc number =>
    change ('e' :: ("-" ++ toString (number + 1)).toList).IsChain _
    rw [String.toList_append, Nat.toString_eq_ofList_toDigits, String.toList_ofList,
      String.toList_ofList]
    refine List.isChain_cons_cons.mpr ⟨by decide, ?_⟩
    exact isChain_of_plain fun _ => isPlain_of_mem_toDigits

/-- The digits of a number with an exponent. -/
theorem mantissa_plain (number : Nat) :
    let mantissa := match Nat.toDigits 10 number with
      | first :: second :: rest => first :: '.' :: second :: rest
      | short => short
    mantissa.head?.any Char.isDigit = true ∧ ∀ letter ∈ mantissa, isPlain letter = true := by
  have starts := toDigits_starts number
  have plain : ∀ letter ∈ Nat.toDigits 10 number, isPlain letter = true :=
    fun _ => isPlain_of_mem_toDigits
  split
  · rename_i first second rest letters
    rw [letters] at starts plain
    simp only [List.forall_mem_cons] at plain ⊢
    exact ⟨starts, plain.1, by decide, plain.2⟩
  · exact ⟨starts, plain⟩

theorem unsigned_isWhole (x : Decimal.Shortest) :
    (Token.number (Decimal.programText.unsigned x)).IsWhole ∧
      ∃ letter ∈ Decimal.programText.unsigned x, letter.isDigit = false := by
  have starts := toDigits_starts x.digits
  have plain : ∀ letter ∈ Nat.toDigits 10 x.digits, isPlain letter = true :=
    fun _ => isPlain_of_mem_toDigits
  have zeros : ∀ count, ∀ letter ∈ Decimal.Layout.zeros count, isPlain letter = true :=
    fun _ _ => isPlain_of_mem_zeros
  simp only [Decimal.Layout.unsigned]
  split
  · split
    · have point : '.' ∈ ".0".toList := by decide
      refine ⟨isWhole_of_plain (starts_append (starts_append starts)) ?_, '.',
        List.mem_append_right _ point, by decide⟩
      simp only [List.forall_mem_append]
      exact ⟨⟨plain, zeros _⟩, List.all_eq_true.mp (by decide)⟩
    · split
      · rename_i whole
        refine ⟨isWhole_of_plain (starts_append (starts_take starts ?_)) ?_, '.', by simp,
          by decide⟩
        · omega
        · simp only [List.forall_mem_append, List.forall_mem_cons]
          exact ⟨fun letter member => plain letter (List.mem_of_mem_take member), by decide,
            fun letter member => plain letter (List.mem_of_mem_drop member)⟩
      · refine ⟨isWhole_of_plain rfl ?_, '.', by simp, by decide⟩
        simp only [List.cons_append, List.forall_mem_append, List.forall_mem_cons]
        exact ⟨by decide, by decide, zeros _, plain⟩
  · obtain ⟨starts, plain⟩ := mantissa_plain x.digits
    have last : ∀ letter ∈ ['e'], isPlain letter = true := List.all_eq_true.mp (by decide)
    have ended := isWhole_of_plain (starts_append starts)
      (List.forall_mem_append.mpr ⟨plain, last⟩)
    refine ⟨⟨starts_append starts, ?_⟩, 'e', by simp, by decide⟩
    exact List.isChain_split.mpr ⟨ended.2, isChain_exponent _⟩

theorem magnitude_isNumber {x : Float} (finite : x.isInf = false) :
    IsNumber (Decimal.programText.magnitude x) ∧
      Reader.digits? (Decimal.programText.magnitude x).toList = none := by
  unfold Decimal.Layout.magnitude
  cases Decimal.Double.ofBits? x.toBits with
  | none =>
    rw [finite]
    decide
  | some double =>
    obtain ⟨whole, letter, member, other⟩ := unsigned_isWhole double.shortest
    dsimp only
    rw [IsNumber, String.toList_ofList]
    refine ⟨whole, if_neg fun digits => ?_⟩
    rw [List.all_eq_true.mp digits.2 letter member] at other
    cases other

end Code

end Formulary
