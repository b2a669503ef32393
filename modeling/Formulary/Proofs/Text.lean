import Formulary.Text.Utf8

namespace Formulary.Text

/-- One byte long as UTF-8, and no line break. -/
def IsPlain (letter : Char) : Prop := letter.toNat < 0x80 ∧ letter ≠ '\n' ∧ letter ≠ '\r'

instance : DecidablePred IsPlain := fun letter =>
  inferInstanceAs (Decidable (letter.toNat < 0x80 ∧ letter ≠ '\n' ∧ letter ≠ '\r'))

theorem toList_loop (bytes : ByteArray) (start : Nat) (before : List UInt8) :
    ByteArray.toList.loop bytes start before = before.reverse ++ bytes.data.toList.drop start := by
  fun_induction ByteArray.toList.loop bytes start before with
  | case1 start before inside ih =>
    have within : start < bytes.data.toList.length := by simpa using inside
    rw [ih, List.drop_eq_getElem_cons within]
    simp [ByteArray.get!, inside]
  | case2 start before outside =>
    have empty : bytes.data.toList.drop start = [] :=
      List.drop_eq_nil_of_le (by simpa using Nat.le_of_not_lt outside)
    simp [empty]

theorem ofText_ascii {text : String} (ascii : ∀ letter ∈ text.toList, letter.toNat < 0x80) :
    Bytes.ofText text = text.toList.map Char.toUInt8 := by
  have encoded (letters : List Char) (small : ∀ letter ∈ letters, letter.toNat < 0x80) :
      letters.utf8Encode = (letters.map Char.toUInt8).toByteArray := by
    induction letters with
    | nil => rfl
    | cons letter rest ih =>
      have single : letter.utf8Size = 1 := by
        rw [Char.utf8Size_eq_one_iff, UInt32.le_iff_toNat_le]
        exact Nat.le_of_lt_succ (small letter List.mem_cons_self)
      rw [List.utf8Encode_cons, List.utf8Encode_singleton,
        String.utf8EncodeChar_eq_singleton single,
        ih fun other member => small other (List.mem_cons_of_mem letter member),
        ← List.toByteArray_append]
      rfl
  rw [Bytes.ofText, String.toUTF8_eq_toByteArray, ← String.utf8Encode_toList,
    encoded text.toList ascii, ByteArray.toList, toList_loop, List.data_toByteArray]
  simp

theorem toNat_toUInt8 {letter : Char} (small : letter.toNat < 0x80) :
    letter.toUInt8.toNat = letter.toNat :=
  Nat.mod_eq_of_lt (Nat.lt_of_lt_of_le small (by decide))

theorem decode_ascii {letters : List Char} (ascii : ∀ letter ∈ letters, letter.toNat < 0x80) :
    decode (letters.map Char.toUInt8) = letters.map some := by
  induction letters with
  | nil => simp [decode]
  | cons letter rest ih =>
    have small := ascii letter List.mem_cons_self
    rw [List.map_cons, List.map_cons, decode, toNat_toUInt8 small]
    simp only [lead?, small, if_true, continuation]
    rw [ih fun other member => ascii other (List.mem_cons_of_mem letter member), Option.map_some,
      Char.ofNat_toNat]

theorem text?_ofText {text : String} (ascii : ∀ letter ∈ text.toList, letter.toNat < 0x80) :
    (Bytes.ofText text).text? = some text := by
  have all (letters : List Char) : (letters.map some).mapM id = some letters := by
    induction letters with
    | nil => rfl
    | cons letter rest ih => simp [List.mapM_cons, ih]
  rw [ofText_ascii ascii, Bytes.text?, decode_ascii ascii, all, Option.map_some,
    String.ofList_toList]

theorem lines_plain {letters : List Char} (plain : ∀ letter ∈ letters, IsPlain letter)
    (rest : Bytes) :
    Bytes.lines (letters.map Char.toUInt8 ++ 10 :: rest) =
      letters.map Char.toUInt8 :: Bytes.lines rest := by
  induction letters with
  | nil =>
    rw [List.map_nil, List.nil_append, Bytes.lines.eq_def]
    simp
  | cons letter others ih =>
    obtain ⟨small, notFeed, notReturn⟩ := plain letter List.mem_cons_self
    have byteNe (other : Char) (different : letter ≠ other) (otherCode : UInt8)
        (known : otherCode.toNat = other.toNat) : letter.toUInt8 ≠ otherCode := by
      intro same
      refine different (Char.toNat_inj.mp ?_)
      rw [← toNat_toUInt8 small, same, known]
    rw [List.map_cons, List.cons_append, Bytes.lines.eq_def]
    simp only
    rw [ih fun other member => plain other (List.mem_cons_of_mem letter member)]
    simp [byteNe '\n' notFeed 10 rfl, byteNe '\r' notReturn 13 rfl]

/-- Lines of text, each with a line feed after it. -/
def page (lines : List String) : String := String.join (lines.map (· ++ "\n"))

theorem page_nil : page [] = "" := rfl

theorem page_singleton (line : String) : page [line] = line ++ "\n" := by
  rw [← String.toList_inj]
  simp [page]

theorem page_append (first second : List String) :
    page (first ++ second) = page first ++ page second := by
  rw [← String.toList_inj, String.toList_append]
  simp [page, String.toList_join]

theorem lines_page {lines : List String}
    (plain : ∀ line ∈ lines, ∀ letter ∈ line.toList, IsPlain letter) :
    (Bytes.ofText (page lines)).lines = lines.map Bytes.ofText := by
  have ascii : ∀ letter ∈ (page lines).toList, letter.toNat < 0x80 := by
    intro letter member
    rw [page, String.toList_join, List.mem_flatMap] at member
    obtain ⟨text, listed, inside⟩ := member
    obtain ⟨line, inLines, rfl⟩ := List.mem_map.mp listed
    rw [String.toList_append, List.mem_append] at inside
    rcases inside with before | feed
    · exact (plain line inLines letter before).1
    · rw [List.mem_singleton.mp feed]
      decide
  rw [ofText_ascii ascii, page, String.toList_join]
  clear ascii
  induction lines with
  | nil => simp [Bytes.lines]
  | cons line rest ih =>
    have here := plain line List.mem_cons_self
    have later := ih fun other member => plain other (List.mem_cons_of_mem line member)
    rw [List.map_cons, List.flatMap_cons, String.toList_append, List.map_append, List.map_append,
      List.append_assoc, List.map_cons, ofText_ascii fun letter member => (here letter member).1,
      ← later]
    exact lines_plain here _

end Formulary.Text
