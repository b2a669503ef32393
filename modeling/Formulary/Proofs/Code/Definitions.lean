import Formulary.Proofs.Code.Correspondence
import Formulary.Code.Program

namespace Formulary.Code

open Layout

def readType : List Token → Option NativeType
  | [.name letters] =>
    [("bool", .bool), ("i64", .int), ("f64", .real)].lookup (String.ofList letters)
  | [.name letters, .mark .less, .number width, .mark .greater] =>
    if letters = "Bv".toList then (Reader.digits? width).map .bitVec else none
  | _ => none

def typeLayout : NativeType → Layout
  | .bitVec width =>
    ofWord "Bv" ++ ofMark .less ++ ofNumber (toString width) ++ ofMark .greater
  | type => ofWord type.name

theorem letters_typeLayout (type : NativeType) :
    (typeLayout type).letters = type.name.toList := by
  cases type with
  | bitVec width =>
    simp [typeLayout, NativeType.name, letters_ofWord, letters_ofMark, letters_ofNumber,
      Mark.letters]
  | _ => exact letters_ofWord _

theorem readType_tokens (type : NativeType) : readType (typeLayout type).tokens = some type := by
  cases type with
  | bitVec width =>
    simp [typeLayout, readType, Token.word, tokens_ofWord, tokens_ofMark, tokens_ofNumber,
      digits?_toDigits]
  | _ => rfl

theorem ending_typeLayout (type : NativeType) : Ending Token.closes (typeLayout type) := by
  cases type with
  | bitVec width =>
    have number := isNumber_toString width
    have opened := (framed_word (by decide : IsWord "Bv")).append (framed_mark .less)
      (by rintro _ ⟨⟩; rfl)
    have sized := opened.append (.single number) (apart_of_opens number rfl)
    exact ⟨_, _, sized.append (framed_mark .greater) (apart_greater rfl), rfl, rfl⟩
  | bool => exact ⟨_, _, framed_word (by decide), rfl, rfl⟩
  | int => exact ⟨_, _, framed_word (by decide), rfl, rfl⟩
  | real => exact ⟨_, _, framed_word (by decide), rfl, rfl⟩

theorem not_mem_typeLayout {type : NativeType} {symbol : Mark}
    (other : symbol ≠ .less ∧ symbol ≠ .greater) :
    .mark symbol ∉ (typeLayout type).tokens := by
  cases type <;> simp [typeLayout, tokens_ofWord, tokens_ofMark, tokens_ofNumber, Token.word, other]

structure Parameter where
  name : String
  type : NativeType
deriving DecidableEq

namespace Parameter

def read : List Token → Option Parameter
  | .name letters :: .mark .colon :: type => (readType type).map (⟨.ofList letters, ·⟩)
  | _ => none

def layout (parameter : Parameter) : Layout :=
  ofWord parameter.name ++ ofMark .colon ++ [none] ++ typeLayout parameter.type

theorem letters_layout (parameter : Parameter) :
    parameter.layout.letters = (parameter.name ++ ": " ++ parameter.type.name).toList := by
  simp [layout, letters_ofWord, letters_ofMark, letters_typeLayout, Mark.letters]

theorem tokens_layout (parameter : Parameter) :
    parameter.layout.tokens =
      .word parameter.name :: .mark .colon :: (typeLayout parameter.type).tokens := by
  simp [layout, tokens_ofWord, tokens_ofMark]

theorem read_tokens (parameter : Parameter) : read parameter.layout.tokens = some parameter := by
  rw [tokens_layout, Token.word, read, readType_tokens]
  simp

theorem ending_layout {parameter : Parameter} (named : IsWord parameter.name) :
    Ending Token.closes parameter.layout := by
  obtain ⟨_, last, framed, _, closes⟩ := ending_typeLayout parameter.type
  have colon := (framed_word named).append (framed_mark .colon)
    (apart_of_closes rfl (by simp) (by simp))
  refine ⟨.word parameter.name, last, ?_, rfl, closes⟩
  simpa [layout] using colon.blank framed

theorem not_mem_layout {parameter : Parameter} {symbol : Mark}
    (other : symbol ∉ [.less, .greater, .colon]) : .mark symbol ∉ parameter.layout.tokens := by
  simp only [List.mem_cons, List.not_mem_nil, or_false, not_or] at other
  rw [tokens_layout]
  simp [Token.word, other, not_mem_typeLayout ⟨other.1, other.2.1⟩]

end Parameter

structure Signature where
  parameters : List Parameter
  result : NativeType
deriving DecidableEq

namespace Signature

def readParameters (tokens : List Token) : Option (List Parameter) :=
  if tokens = [] then some [] else (tokens.splitOn (.mark .comma)).mapM Parameter.read

/-- Reads the line with which the function begins. -/
def read (tokens : List Token) : Option Signature :=
  match tokens.splitOn (.mark .closing) with
  | [.name keyword :: .name name :: .mark .opening :: parameters, .mark .arrow :: result] => do
    if keyword = "fn".toList ∧ name = "formula".toList ∧
        result.getLast? = some (.mark .openBlock) then
      return ⟨← readParameters parameters, ← readType result.dropLast⟩
    else none
  | _ => none

def layout (signature : Signature) : Layout :=
  ofWord "fn" ++ [none] ++ ofWord "formula" ++ ofMark .opening ++
    listed (signature.parameters.map Parameter.layout) ++ ofMark .closing ++
    spaced (ofMark .arrow) ++ typeLayout signature.result ++ [none] ++ ofMark .openBlock

theorem tokens_listed_eq (layouts : List Layout) :
    (listed layouts).tokens = [Token.mark .comma].intercalate (layouts.map Layout.tokens) := by
  induction layouts with
  | nil => rfl
  | cons first rest ih =>
    cases rest with
    | nil => simp [listed]
    | cons second rest =>
      rw [tokens_listed, ih]
      simp [List.intercalate_cons_cons]

theorem readParameters_tokens (parameters : List Parameter) :
    readParameters (listed (parameters.map Parameter.layout)).tokens = some parameters := by
  cases parameters with
  | nil => rfl
  | cons first rest =>
    have present : (listed ((first :: rest).map Parameter.layout)).tokens ≠ [] := by
      simp [listed, Parameter.tokens_layout]
    have apart : ∀ tokens ∈ ((first :: rest).map Parameter.layout).map Layout.tokens,
        .mark .comma ∉ tokens := by
      simp only [List.forall_mem_map]
      exact fun parameter _ => Parameter.not_mem_layout (by simp)
    rw [readParameters, if_neg present, tokens_listed_eq,
      List.splitOn_intercalate _ apart (by simp), List.mapM_map, List.mapM_map]
    simp only [Function.comp_def, Parameter.read_tokens]
    simpa using (List.mapM_pure : (first :: rest).mapM (m := Option) (pure ∘ id) = _)

theorem tokens_layout (signature : Signature) :
    signature.layout.tokens = [Token.mark .closing].intercalate
      [.word "fn" :: .word "formula" :: .mark .opening ::
          (listed (signature.parameters.map Parameter.layout)).tokens,
        .mark .arrow :: ((typeLayout signature.result).tokens ++ [.mark .openBlock])] := by
  simp [layout, tokens_ofWord, tokens_ofMark, tokens_spaced]

theorem not_mem_parameters (parameters : List Parameter) :
    .mark .closing ∉ (listed (parameters.map Parameter.layout)).tokens := by
  induction parameters with
  | nil => exact List.not_mem_nil
  | cons first rest ih =>
    have here : .mark .closing ∉ first.layout.tokens := Parameter.not_mem_layout (by simp)
    cases rest with
    | nil => simpa [listed] using here
    | cons second rest =>
      rw [List.map_cons, List.map_cons, tokens_listed]
      rw [List.map_cons] at ih
      simp [here, ih]

theorem read_tokens (signature : Signature) : read signature.layout.tokens = some signature := by
  have apart : ∀ tokens ∈ [.word "fn" :: .word "formula" :: .mark .opening ::
          (listed (signature.parameters.map Parameter.layout)).tokens,
        .mark .arrow :: ((typeLayout signature.result).tokens ++ [.mark .openBlock])],
      .mark .closing ∉ tokens := by
    have inside : .mark .closing ∉ (typeLayout signature.result).tokens :=
      not_mem_typeLayout (by simp)
    simp [Token.word, not_mem_parameters, inside]
  rw [read, tokens_layout, List.splitOn_intercalate _ apart (by simp)]
  simp [Token.word, readParameters_tokens, readType_tokens]

theorem framed_layout {signature : Signature}
    (named : ∀ parameter ∈ signature.parameters, IsWord parameter.name) :
    Framed signature.layout (.word "fn") (.mark .openBlock) := by
  have called := (framed_word (by decide : IsWord "formula")).append (framed_mark .opening)
    (apart_of_closes rfl (by simp) (by simp))
  have endings : ∀ layout ∈ signature.parameters.map Parameter.layout,
      Ending Token.closes layout :=
    List.forall_mem_map.mpr fun parameter member => Parameter.ending_layout (named parameter member)
  obtain ⟨_, _, typed, _⟩ := ending_typeLayout signature.result
  have front := (framed_word (by decide : IsWord "fn")).blank (framed_arguments called endings)
  have whole := ((front.blank (framed_mark .arrow)).blank typed).blank (framed_mark .openBlock)
  simpa [layout, spaced] using whole

end Signature

/-- Reads a line that declares a value: what is declared, and what its value is. -/
def readDeclaration : List Token → Option (Parameter × Term)
  | .name keyword :: rest =>
    if keyword = "let".toList ∧ rest.getLast? = some (.mark .semicolon) then do
      let declared := rest.dropLast.takeWhile (· != .mark .assign)
      let value := (rest.dropLast.dropWhile (· != .mark .assign)).tail
      return (← Parameter.read declared, ← parse value)
    else none
  | _ => none

def declarationLayout (parameter : Parameter) (term : Term) : Layout :=
  ofWord "let" ++ [none] ++ parameter.layout ++ spaced (ofMark .assign) ++ term.layout ++
    ofMark .semicolon

section Declarations

variable {parameter : Parameter} {term : Term}

theorem readDeclaration_tokens (fits : term.Fits) :
    readDeclaration (declarationLayout parameter term).tokens = some (parameter, term) := by
  have apart : ∀ token ∈ parameter.layout.tokens, (token != .mark .assign) = true := by
    intro token member
    refine bne_iff_ne.mpr fun same => ?_
    exact Parameter.not_mem_layout (by simp) (same ▸ member)
  have spelled : (declarationLayout parameter term).tokens = .word "let" ::
      (parameter.layout.tokens ++ .mark .assign :: term.layout.tokens ++ [.mark .semicolon]) := by
    simp [declarationLayout, tokens_ofWord, tokens_ofMark, tokens_spaced]
  rw [spelled, Token.word, readDeclaration, if_pos ⟨rfl, List.getLast?_concat⟩,
    List.dropLast_concat, List.takeWhile_append_of_pos apart, List.dropWhile_append_of_pos apart]
  simp [Parameter.read_tokens, fits.parse_tokens]

theorem framed_declaration (named : IsWord parameter.name) (fits : term.Fits) :
    Framed (declarationLayout parameter term) (.word "let") (.mark .semicolon) := by
  obtain ⟨_, _, declared, _⟩ := Parameter.ending_layout named
  obtain ⟨_, _, valued, _, closes⟩ := fits.ending.1
  have ended := valued.append (framed_mark .semicolon) (apart_of_closes closes (by simp) (by simp))
  have opened := (framed_word (by decide : IsWord "let")).blank declared
  have front := opened.blank (framed_mark .assign)
  simpa [declarationLayout, spaced] using front.blank ended

end Declarations

end Formulary.Code
