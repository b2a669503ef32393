import Formulary.Code.Expression
import Mathlib.Data.List.Chain

/-! The tokens of a program text. A token takes every letter that can still belong to it, so a
text is read as the tokens it was put together from wherever no token could take a letter of the
next one. -/
namespace Formulary.Code

inductive Mark where
  | opening
  | closing
  | openBlock
  | closeBlock
  | comma
  | semicolon
  | colon
  | doubleColon
  | dot
  | less
  | atMost
  | shiftLeft
  | greater
  | shiftRight
  | assign
  | equal
  | bang
  | minus
  | arrow
  | plus
  | star
  | slash
  | ampersand
  | doubleAmpersand
  | bar
  | doubleBar
  | caret
deriving DecidableEq

namespace Mark

def letters : Mark → List Char
  | opening => ['(']
  | closing => [')']
  | openBlock => ['\x7b']
  | closeBlock => ['\x7d']
  | comma => [',']
  | semicolon => [';']
  | colon => [':']
  | doubleColon => [':', ':']
  | dot => ['.']
  | less => ['<']
  | atMost => ['<', '=']
  | shiftLeft => ['<', '<']
  | greater => ['>']
  | shiftRight => ['>', '>']
  | assign => ['=']
  | equal => ['=', '=']
  | bang => ['!']
  | minus => ['-']
  | arrow => ['-', '>']
  | plus => ['+']
  | star => ['*']
  | slash => ['/']
  | ampersand => ['&']
  | doubleAmpersand => ['&', '&']
  | bar => ['|']
  | doubleBar => ['|', '|']
  | caret => ['^']

def ofLetter? : Char → Option Mark
  | '(' => some opening
  | ')' => some closing
  | '\x7b' => some openBlock
  | '\x7d' => some closeBlock
  | ',' => some comma
  | ';' => some semicolon
  | ':' => some colon
  | '.' => some dot
  | '<' => some less
  | '>' => some greater
  | '=' => some assign
  | '!' => some bang
  | '-' => some minus
  | '+' => some plus
  | '*' => some star
  | '/' => some slash
  | '&' => some ampersand
  | '|' => some bar
  | '^' => some caret
  | _ => none

/-- The mark that a mark becomes with one more letter. -/
def extend? : Mark → Char → Option Mark
  | colon, ':' => some doubleColon
  | less, '=' => some atMost
  | less, '<' => some shiftLeft
  | greater, '>' => some shiftRight
  | assign, '=' => some equal
  | minus, '>' => some arrow
  | ampersand, '&' => some doubleAmpersand
  | bar, '|' => some doubleBar
  | _, _ => none

end Mark

/-- Names, which start with a letter or an underscore, numbers, which start with a digit, and
marks. -/
inductive Token where
  | name (letters : List Char)
  | number (letters : List Char)
  | mark (symbol : Mark)
deriving DecidableEq

def isWordLetter (letter : Char) : Bool := letter.isAlphanum || letter = '_'

/-- A sign belongs to a number only where an exponent begins. -/
def continuesNumber (last next : Char) : Bool :=
  isWordLetter next || next = '.' || (last = 'e' && next = '-')

namespace Token

def word (text : String) : Token := .name text.toList

def letters : Token → List Char
  | name letters | number letters => letters
  | mark symbol => symbol.letters

def start? (letter : Char) : Option Token :=
  if letter.isDigit then some (number [letter])
  else if isWordLetter letter then some (name [letter])
  else (Mark.ofLetter? letter).map mark

def extend? : Token → Char → Option Token
  | name letters, next => if isWordLetter next then some (name (letters ++ [next])) else none
  | number letters, next =>
    if letters.getLast?.any (continuesNumber · next) then some (number (letters ++ [next]))
    else none
  | mark symbol, next => (symbol.extend? next).map mark

def IsWhole : Token → Prop
  | name letters => letters.head?.any (!·.isDigit) ∧ letters.all isWordLetter
  | number letters => letters.head?.any (·.isDigit) ∧ letters.IsChain (continuesNumber · ·)
  | mark _ => True

instance : DecidablePred IsWhole
  | name _ | number _ => inferInstanceAs (Decidable (_ ∧ _))
  | mark _ => inferInstanceAs (Decidable True)

def isNumber : Token → Bool
  | number _ => true
  | _ => false

/-- Tokens with which a term can start. -/
def opens : Token → Bool
  | name _ | number _ => true
  | mark symbol => symbol ∈ [.opening, .minus, .bang]

/-- Tokens with which a term can end. -/
def closes : Token → Bool
  | name _ | number _ => true
  | mark symbol => symbol ∈ [.closing, .closeBlock, .greater]

/-- Tokens with which a term that takes methods can end. -/
def points (token : Token) : Bool := token.closes && !token.isNumber

end Token

/-- Tokens in the order in which they are read, the last one first. Whether it is complete is not
known while letters `follow` it at once. -/
structure Scan where
  tokens : List Token
  follow : Bool

namespace Scan

def step (scan : Scan) (letter : Char) : Option Scan :=
  if letter = ' ' then some { scan with follow := false }
  else
    match scan.follow, scan.tokens with
    | true, last :: before =>
      match last.extend? letter with
      | some longer => some ⟨longer :: before, true⟩
      | none => (Token.start? letter).map fun token => ⟨token :: last :: before, true⟩
    | _, tokens => (Token.start? letter).map fun token => ⟨token :: tokens, true⟩

end Scan

def scan (letters : List Char) : Option (List Token) :=
  (letters.foldlM Scan.step ⟨[], false⟩).map (·.tokens.reverse)

/-- Tokens with blanks between them. -/
abbrev Layout := List (Option Token)

namespace Layout

def letters (layout : Layout) : List Char :=
  layout.flatMap fun piece => (piece.map Token.letters).getD [' ']

def tokens (layout : Layout) : List Token := layout.filterMap id

@[simp] theorem letters_nil : letters [] = [] := rfl

@[simp] theorem letters_append (first second : Layout) :
    letters (first ++ second) = letters first ++ letters second := List.flatMap_append

@[simp] theorem letters_blank (rest : Layout) : letters (none :: rest) = ' ' :: letters rest := rfl

@[simp] theorem letters_token (token : Token) (rest : Layout) :
    letters (some token :: rest) = token.letters ++ letters rest := rfl

@[simp] theorem tokens_nil : tokens [] = [] := rfl

@[simp] theorem tokens_append (first second : Layout) :
    tokens (first ++ second) = tokens first ++ tokens second := List.filterMap_append

@[simp] theorem tokens_blank (rest : Layout) : tokens (none :: rest) = tokens rest := rfl

@[simp] theorem tokens_token (token : Token) (rest : Layout) :
    tokens (some token :: rest) = token :: tokens rest := rfl

/-- No letter of the second piece can belong to the first. -/
def Apart : Option Token → Option Token → Prop
  | some first, some second => ∀ letter ∈ second.letters.head?, first.extend? letter = none
  | _, _ => True

end Layout

open Layout (Apart)

section Scanning

variable {before : List Token} {token : Token}

theorem Scan.step_start {scan : Scan} {letter : Char} (solid : letter ≠ ' ')
    (apart : scan.follow = true → ∀ last ∈ scan.tokens.head?, last.extend? letter = none) :
    scan.step letter = (Token.start? letter).map fun token => ⟨token :: scan.tokens, true⟩ := by
  obtain ⟨tokens, follow⟩ := scan
  unfold Scan.step
  rw [if_neg solid]
  cases follow with
  | false => rfl
  | true =>
    cases tokens with
    | nil => rfl
    | cons last before =>
      have refused := apart rfl last rfl
      dsimp only
      rw [refused]

theorem Scan.step_extend {last longer : Token} {letter : Char} (solid : letter ≠ ' ')
    (extended : last.extend? letter = some longer) :
    Scan.step ⟨last :: before, true⟩ letter = some ⟨longer :: before, true⟩ := by
  unfold Scan.step
  rw [if_neg solid]
  dsimp only
  rw [extended]

theorem ne_blank_of_isWordLetter {letter : Char} (belongs : isWordLetter letter = true) :
    letter ≠ ' ' := by
  rintro rfl
  cases belongs

theorem ne_blank_of_continuesNumber {last next : Char} (belongs : continuesNumber last next) :
    next ≠ ' ' := by
  rintro rfl
  cases last == 'e' <;> simp [continuesNumber, isWordLetter] at belongs

theorem foldlM_name {first : List Char} {rest : List Char} (belong : rest.all isWordLetter) :
    rest.foldlM Scan.step ⟨.name first :: before, true⟩ =
      some ⟨.name (first ++ rest) :: before, true⟩ := by
  induction rest generalizing first with
  | nil => simp
  | cons next rest ih =>
    obtain ⟨here, later⟩ := by simpa only [List.all_cons, Bool.and_eq_true] using belong
    have extended : (Token.name first).extend? next = some (.name (first ++ [next])) := if_pos here
    rw [List.foldlM_cons, Scan.step_extend (ne_blank_of_isWordLetter here) extended]
    exact (ih later).trans (by simp)

theorem foldlM_number {first : List Char} {last : Char} {rest : List Char}
    (belong : (last :: rest).IsChain (continuesNumber · ·)) :
    rest.foldlM Scan.step ⟨.number (first ++ [last]) :: before, true⟩ =
      some ⟨.number (first ++ last :: rest) :: before, true⟩ := by
  induction rest generalizing first last with
  | nil => rfl
  | cons next rest ih =>
    obtain ⟨here, later⟩ := List.isChain_cons_cons.mp belong
    have extended : (Token.number (first ++ [last])).extend? next =
        some (.number (first ++ [last] ++ [next])) := by
      simp only [Token.extend?, List.getLast?_append, List.getLast?_singleton, Option.some_or,
        Option.any_some, here, if_true]
    rw [List.foldlM_cons, Scan.step_extend (ne_blank_of_continuesNumber here) extended]
    exact (ih later).trans (by simp)

/-- A whole token is read as itself where its first letter starts it. -/
theorem foldlM_token {scan : Scan} (whole : token.IsWhole)
    (apart : scan.follow = true → ∀ last ∈ scan.tokens.head?, ∀ letter ∈ token.letters.head?,
      last.extend? letter = none) :
    token.letters.foldlM Scan.step scan = some ⟨token :: scan.tokens, true⟩ := by
  cases token with
  | name letters =>
    obtain ⟨starts, belong⟩ := whole
    cases letters with
    | nil => cases starts
    | cons first rest =>
      obtain ⟨here, later⟩ := by simpa only [List.all_cons, Bool.and_eq_true] using belong
      have started : Token.start? first = some (.name [first]) := by
        simp only [List.head?_cons, Option.any_some, Bool.not_eq_true'] at starts
        simp [Token.start?, starts, here]
      have solid := ne_blank_of_isWordLetter here
      rw [Token.letters, List.foldlM_cons,
        Scan.step_start solid fun follow last known => apart follow last known first rfl, started]
      exact foldlM_name later
  | number letters =>
    obtain ⟨starts, belong⟩ := whole
    cases letters with
    | nil => cases starts
    | cons first rest =>
      simp only [List.head?_cons, Option.any_some] at starts
      have started : Token.start? first = some (.number [first]) := if_pos starts
      have solid : first ≠ ' ' := by
        rintro rfl
        cases starts
      rw [Token.letters, List.foldlM_cons,
        Scan.step_start solid fun follow last known => apart follow last known first rfl, started]
      exact @foldlM_number _ [] first rest belong
  | mark symbol =>
    have first : ∃ letter rest, symbol.letters = letter :: rest ∧ letter ≠ ' ' ∧
        ((Token.start? letter).bind fun token =>
          rest.foldlM Scan.step ⟨token :: scan.tokens, true⟩) =
            some ⟨.mark symbol :: scan.tokens, true⟩ := by
      cases symbol <;> exact ⟨_, _, rfl, by decide, rfl⟩
    obtain ⟨letter, rest, spelled, solid, read⟩ := first
    have leads : letter ∈ (Token.mark symbol).letters.head? := by
      rw [Token.letters, spelled]
      rfl
    rw [Token.letters, spelled, List.foldlM_cons,
      Scan.step_start solid fun follow last known => apart follow last known letter leads, ← read]
    cases Token.start? letter <;> rfl

/-- The piece of a layout that was read last. -/
def Scan.EndsIn (scan : Scan) : Option Token → Prop
  | none => scan.follow = false
  | some token => scan.tokens.head? = some token

theorem foldlM_layout {layout : Layout} {last : Option Token} {scan : Scan}
    (ended : scan.EndsIn last) (whole : ∀ token ∈ layout.tokens, token.IsWhole)
    (apart : (last :: layout).IsChain Apart) :
    ∃ follow, layout.letters.foldlM Scan.step scan =
      some ⟨layout.tokens.reverse ++ scan.tokens, follow⟩ := by
  induction layout generalizing last scan with
  | nil => exact ⟨scan.follow, rfl⟩
  | cons piece rest ih =>
    obtain ⟨here, later⟩ := List.isChain_cons_cons.mp apart
    cases piece with
    | none =>
      let blank : Scan := { scan with follow := false }
      have read : scan.step ' ' = some blank := rfl
      rw [Layout.letters_blank, List.foldlM_cons, read]
      have ended : blank.EndsIn none := rfl
      exact ih ended whole later
    | some token =>
      rw [Layout.tokens_token, List.forall_mem_cons] at whole
      let next : Scan := ⟨token :: scan.tokens, true⟩
      have read : token.letters.foldlM Scan.step scan = some next := by
        refine foldlM_token whole.1 fun follow known top letter head => ?_
        cases last with
        | none =>
          rw [ended] at follow
          cases follow
        | some last =>
          cases ended.symm.trans top
          exact here letter head
      rw [Layout.letters_token, List.foldlM_append, read]
      have ended : next.EndsIn (some token) := rfl
      obtain ⟨follow, done⟩ := ih ended whole.2 later
      exact ⟨follow, done.trans (by simp [next])⟩

/-- A text is read as the tokens that it was put together from. -/
theorem scan_layout {layout : Layout} (whole : ∀ token ∈ layout.tokens, token.IsWhole)
    (apart : layout.IsChain Apart) : scan layout.letters = some layout.tokens := by
  have chained : ((none : Option Token) :: layout).IsChain Apart := by
    cases layout with
    | nil => exact .singleton _
    | cons piece rest => exact List.isChain_cons_cons.mpr ⟨trivial, apart⟩
  have ended : Scan.EndsIn ⟨[], false⟩ none := rfl
  obtain ⟨follow, done⟩ := foldlM_layout ended whole chained
  rw [scan, done]
  simp

end Scanning

section Apartness

variable {token : Token} {symbol : Mark}

theorem Mark.extend?_word {letter : Char} (belongs : isWordLetter letter = true) :
    symbol.extend? letter = none := by
  unfold Mark.extend?
  split <;> first | rfl | exact absurd belongs (by decide)

theorem isWordLetter_of_isDigit {letter : Char} (digit : letter.isDigit = true) :
    isWordLetter letter = true := by
  simp [isWordLetter, Char.isAlphanum, digit]

theorem Token.extend?_number_of_refused {letters : List Char} {next : Char}
    (refused : ∀ last, continuesNumber last next = false) :
    (Token.number letters).extend? next = none := by
  refine if_neg (Bool.not_eq_true _ ▸ ?_)
  cases letters.getLast? <;> simp [refused]

/-- No mark takes the start of a term. -/
theorem apart_of_opens (whole : token.IsWhole) (opens : token.opens = true) :
    Apart (some (.mark symbol)) (some token) := by
  intro letter leads
  cases token with
  | name letters =>
    obtain ⟨first, rest⟩ := letters
    · cases leads
    · cases leads
      have belongs := (List.all_cons ▸ whole.2)
      simp only [Bool.and_eq_true] at belongs
      simp [Token.extend?, Mark.extend?_word belongs.1]
  | number letters =>
    obtain ⟨first, rest⟩ := letters
    · cases leads
    · cases leads
      simp [Token.extend?, Mark.extend?_word (isWordLetter_of_isDigit whole.1)]
  | mark other =>
    cases other with
    | opening | minus | bang =>
      cases leads
      cases symbol <;> rfl
    | _ => cases opens

/-- The end of a term takes none of the marks that may follow it. -/
theorem apart_of_closes (closes : token.closes = true)
    (follows : symbol ∈ [.opening, .closing, .comma, .semicolon, .colon, .doubleColon, .dot])
    (points : symbol = .dot → token.points = true) :
    Apart (some token) (some (.mark symbol)) := by
  intro letter leads
  simp only [List.mem_cons, List.not_mem_nil, or_false] at follows
  cases token with
  | name letters =>
    rcases follows with rfl | rfl | rfl | rfl | rfl | rfl | rfl <;> cases leads <;> rfl
  | number letters =>
    have refused : ∀ last, continuesNumber last letter = false := by
      intro last
      rcases follows with rfl | rfl | rfl | rfl | rfl | rfl | rfl
      case inr.inr.inr.inr.inr.inr => cases points rfl
      all_goals
        cases leads
        simp [continuesNumber, isWordLetter]
    exact Token.extend?_number_of_refused refused
  | mark other =>
    cases other with
    | closing | closeBlock | greater =>
      rcases follows with rfl | rfl | rfl | rfl | rfl | rfl | rfl <;> cases leads <;> rfl
    | _ => cases closes

theorem Token.closes_of_points (points : token.points = true) : token.closes = true :=
  (Bool.and_eq_true_iff.mp points).1

theorem Token.closes_of_isNumber (number : token.isNumber = true) : token.closes = true := by
  cases token with
  | number => rfl
  | name | mark => cases number

/-- The numbers between angle brackets end before the second one. -/
theorem apart_greater (number : token.isNumber = true) :
    Apart (some token) (some (.mark .greater)) := by
  cases token with
  | number letters =>
    intro letter leads
    cases leads
    exact Token.extend?_number_of_refused fun last => by simp [continuesNumber, isWordLetter]
  | name | mark => cases number

/-- A layout that is read as its tokens, and the first and the last of these. -/
structure Framed (layout : Layout) (first last : Token) : Prop where
  whole : ∀ token ∈ layout.tokens, token.IsWhole
  apart : layout.IsChain Apart
  head : layout.head? = some (some first)
  foot : layout.getLast? = some (some last)

namespace Framed

variable {left right : Layout} {first middle next last : Token}

theorem single (whole : token.IsWhole) : Framed [some token] token token where
  whole := List.forall_mem_singleton.mpr whole
  apart := .singleton _
  head := rfl
  foot := rfl

theorem append (one : Framed left first middle) (two : Framed right next last)
    (apart : Apart (some middle) (some next)) : Framed (left ++ right) first last where
  whole := by
    rw [Layout.tokens_append]
    exact List.forall_mem_append.mpr ⟨one.whole, two.whole⟩
  apart := by
    refine List.isChain_append.mpr ⟨one.apart, two.apart, fun piece ends other starts => ?_⟩
    cases one.foot.symm.trans ends
    cases two.head.symm.trans starts
    exact apart
  head := by rw [List.head?_append, one.head, Option.some_or]
  foot := by rw [List.getLast?_append, two.foot, Option.some_or]

/-- A blank keeps any two tokens apart. -/
theorem blank (one : Framed left first middle) (two : Framed right next last) :
    Framed (left ++ none :: right) first last where
  whole := by
    rw [Layout.tokens_append, Layout.tokens_blank]
    exact List.forall_mem_append.mpr ⟨one.whole, two.whole⟩
  apart := by
    have spaced : (none :: right).IsChain Apart := by
      cases right with
      | nil => exact .singleton _
      | cons piece rest => exact List.isChain_cons_cons.mpr ⟨trivial, two.apart⟩
    refine List.isChain_append.mpr ⟨one.apart, spaced, fun piece _ other starts => ?_⟩
    cases starts
    cases piece <;> trivial
  head := by rw [List.head?_append, one.head, Option.some_or]
  foot := by rw [List.getLast?_append, List.getLast?_cons, two.foot]; rfl

theorem first_whole (framed : Framed left first last) : first.IsWhole :=
  framed.whole first (List.mem_filterMap.mpr ⟨_, List.mem_of_head? framed.head, rfl⟩)

theorem scan (framed : Framed left first last) : scan left.letters = some left.tokens :=
  scan_layout framed.whole framed.apart

end Framed

end Apartness

end Formulary.Code
