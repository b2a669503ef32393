import Formulary.Json.Reader
import Formulary.Proofs.Json.Scanning

namespace Formulary.Json

open Token (Separated Stops)

theorem stops_cons {token : Token} (plain : token.isNumber = false) (rest : List Token) :
    Stops (token :: rest) := by
  simpa [Stops] using plain

theorem separated_cons {token : Token} (plain : token.isNumber = false) {rest : List Token}
    (separated : Separated rest) : Separated (token :: rest) :=
  ⟨fun number => absurd number (by simp [plain]), separated⟩

mutual

theorem separated_tokens (document : Json) (rest : List Token) (separated : Separated rest)
    (stops : Stops rest) : Separated (document.tokens ++ rest) := by
  cases document with
  | null | bool | string => exact separated_cons rfl separated
  | number value => exact ⟨fun _ => stops, separated⟩
  | array list =>
    rw [tokens, List.cons_append, List.append_assoc]
    apply separated_cons rfl
    exact separated_items list _ (separated_cons rfl separated) (stops_cons rfl rest)
  | object list =>
    rw [tokens, List.cons_append, List.append_assoc]
    apply separated_cons rfl
    exact separated_members list _ (separated_cons rfl separated) (stops_cons rfl rest)

theorem separated_items (list : List Json) (rest : List Token) (separated : Separated rest)
    (stops : Stops rest) : Separated (itemTokens list ++ rest) := by
  match list with
  | [] => exact separated
  | [only] => exact separated_tokens only rest separated stops
  | first :: second :: more =>
    have others := separated_items (second :: more) rest separated stops
    rw [itemTokens, List.append_assoc, List.cons_append]
    exact separated_tokens first _ (separated_cons rfl others) (stops_cons rfl _)

theorem separated_members (list : List (Option String × Json)) (rest : List Token)
    (separated : Separated rest) (stops : Stops rest) :
    Separated (memberTokens list ++ rest) := by
  match list with
  | [] => exact separated
  | [(key, only)] =>
    exact separated_cons rfl (separated_cons rfl (separated_tokens only rest separated stops))
  | (key, first) :: second :: more =>
    have others := separated_members (second :: more) rest separated stops
    rw [memberTokens, List.cons_append, List.cons_append, List.append_assoc, List.cons_append]
    apply separated_cons rfl
    apply separated_cons rfl
    exact separated_tokens first _ (separated_cons rfl others) (stops_cons rfl _)

end

/-- A value starts with no closing bracket. -/
theorem tokens_opened (document : Json) (more rest : List Token) :
    document.tokens ++ more ≠ .closeArray :: rest := by
  cases document <;> simp [tokens]

theorem tokens_length_pos (document : Json) : 0 < document.tokens.length := by
  cases document <;> simp [tokens]

theorem value_openArray {fuel : Nat} {tokens : List Token}
    (opened : ∀ rest, tokens ≠ .closeArray :: rest) :
    value (fuel + 1) (.openArray :: tokens) =
      (items fuel tokens).map fun (list, rest) => (array list, rest) := by
  rw [value.eq_def]
  split <;> simp_all

theorem value_openObject {fuel : Nat} {tokens : List Token}
    (opened : ∀ rest, tokens ≠ .closeObject :: rest) :
    value (fuel + 1) (.openObject :: tokens) =
      (members fuel tokens).map fun (list, rest) => (object list, rest) := by
  rw [value.eq_def]
  split <;> simp_all

-- The induction is on fuel: each call of the reader passes on one less, and what is left to read
-- is shorter by a token at least.
mutual

/-- A value is read from its tokens with as much fuel as there are tokens. -/
theorem value_tokens (document : Json) (fuel : Nat) (rest : List Token)
    (enough : document.tokens.length ≤ fuel) :
    value fuel (document.tokens ++ rest) = some (document, rest) := by
  cases fuel with
  | zero => exact absurd enough (Nat.not_le.mpr document.tokens_length_pos)
  | succ fuel =>
    cases document with
    | null | bool | number | string => simp [tokens, value]
    | array list =>
      cases list with
      | nil => simp [tokens, itemTokens, value]
      | cons first more =>
        have opened : ∀ other, itemTokens (first :: more) ++ .closeArray :: rest ≠
            .closeArray :: other := by
          intro other
          cases more with
          | nil => exact tokens_opened first _ other
          | cons second more =>
            rw [itemTokens, List.append_assoc]
            exact tokens_opened first _ other
        rw [tokens, List.length_cons, List.length_append] at enough
        have read := items_tokens first more fuel rest (Nat.le_of_succ_le_succ enough)
        rw [tokens, List.cons_append, List.append_assoc, List.singleton_append,
          value_openArray opened, read]
        rfl
    | object list =>
      cases list with
      | nil => simp [tokens, memberTokens, value]
      | cons first more =>
        have opened : ∀ other, memberTokens (first :: more) ++ .closeObject :: rest ≠
            .closeObject :: other := by
          intro other
          obtain ⟨key, first⟩ := first
          cases more <;> simp [memberTokens]
        rw [tokens, List.length_cons, List.length_append] at enough
        have read := members_tokens first more fuel rest (Nat.le_of_succ_le_succ enough)
        rw [tokens, List.cons_append, List.append_assoc, List.singleton_append,
          value_openObject opened, read]
        rfl
termination_by fuel

theorem items_tokens (first : Json) (more : List Json) (fuel : Nat) (rest : List Token)
    (enough : (itemTokens (first :: more)).length < fuel) :
    items fuel (itemTokens (first :: more) ++ .closeArray :: rest) =
      some (first :: more, rest) := by
  cases fuel with
  | zero => cases enough
  | succ fuel =>
    cases more with
    | nil =>
      rw [itemTokens] at enough ⊢
      rw [items, value_tokens first fuel _ (Nat.le_of_lt_succ enough)]
    | cons second more =>
      rw [itemTokens, List.length_append, List.length_cons] at enough
      have positive := first.tokens_length_pos
      rw [itemTokens, List.append_assoc, List.cons_append, items,
        value_tokens first fuel _ (by omega)]
      simp [items_tokens second more fuel rest (by omega)]
termination_by fuel

theorem members_tokens (first : Option String × Json) (more : List (Option String × Json))
    (fuel : Nat) (rest : List Token) (enough : (memberTokens (first :: more)).length < fuel) :
    members fuel (memberTokens (first :: more) ++ .closeObject :: rest) =
      some (first :: more, rest) := by
  obtain ⟨key, document⟩ := first
  cases fuel with
  | zero => cases enough
  | succ fuel =>
    cases more with
    | nil =>
      rw [memberTokens, List.length_cons, List.length_cons] at enough
      rw [memberTokens, List.cons_append, List.cons_append, members,
        value_tokens document fuel _ (by omega)]
    | cons second more =>
      rw [memberTokens, List.length_cons, List.length_cons, List.length_append,
        List.length_cons] at enough
      rw [memberTokens, List.cons_append, List.cons_append, List.append_assoc, List.cons_append,
        members, value_tokens document fuel _ (by omega)]
      simp [members_tokens second more fuel rest (by omega)]
termination_by fuel

end

/-- Every document is read back from its text. -/
theorem parse?_text (document : Json) : parse? document.text = some document := by
  have separated : Separated document.tokens := by
    have followed := separated_tokens document [] trivial (by simp [Stops])
    rwa [List.append_nil] at followed
  have read := value_tokens document document.tokens.length [] (Nat.le_refl _)
  rw [List.append_nil] at read
  rw [parse?, text, Token.ofText?_flatMap separated]
  simp [read]

end Formulary.Json
