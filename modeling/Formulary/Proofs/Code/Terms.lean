import Formulary.Proofs.Code.Machine
import Formulary.Proofs.Code.Tokens

namespace Formulary.Code

def IsWord (text : String) : Prop := (Token.word text).IsWhole

def IsNumber (text : String) : Prop := (Token.number text.toList).IsWhole

instance : DecidablePred IsWord := fun text => inferInstanceAs (Decidable (Token.word text).IsWhole)

instance : DecidablePred IsNumber :=
  fun text => inferInstanceAs (Decidable (Token.number text.toList).IsWhole)

/-- A part of a path, with the numbers it is instantiated at. -/
structure Segment where
  name : String
  parameters : List String
deriving DecidableEq

def Segment.IsSpelled (segment : Segment) : Prop :=
  IsWord segment.name ∧ ∀ parameter ∈ segment.parameters, IsNumber parameter

instance : DecidablePred Segment.IsSpelled := fun _ => inferInstanceAs (Decidable (_ ∧ _))

inductive Term where
  | number (text : String)
  | path (segments : List Segment)
  | unary (operator : UnaryOperator) (operand : Term)
  | binary (operator : ChainOperator) (left right : Term)
  | cast (operand : Term) (type : String)
  | call (function : List Segment) (arguments : List Term)
  | method (receiver : Term) (name : String) (arguments : List Term)
  | group (inner : Term)
  | conditional (condition first second : Term)

def ChainOperator.level : ChainOperator → Nat
  | or => 1
  | and => 2
  | equal | atMost | below => 3
  | bitOr => 4
  | bitXor => 5
  | bitAnd => 6
  | shiftLeft | shiftRight => 7
  | plus | minus => 8
  | times | divide => 9

def castLevel : Nat := 10

def unaryLevel : Nat := 11

/-- The level of terms that nothing can take apart. -/
def tightLevel : Nat := 12

theorem ChainOperator.level_lt (operator : ChainOperator) : operator.level < castLevel := by
  cases operator <;> decide

namespace Term

/-- How tightly the outermost operator of a term binds. -/
def level : Term → Nat
  | binary operator _ _ => operator.level
  | cast _ _ => castLevel
  | unary _ _ => unaryLevel
  | _ => tightLevel

def isComparison : Term → Bool
  | binary operator _ _ => operator.isComparison
  | _ => false

end Term

def UnaryOperator.mark : UnaryOperator → Mark
  | not => .bang
  | negate => .minus

def ChainOperator.mark : ChainOperator → Mark
  | and => .doubleAmpersand
  | or => .doubleBar
  | equal => .equal
  | atMost => .atMost
  | below => .less
  | plus => .plus
  | minus => .minus
  | times => .star
  | divide => .slash
  | bitAnd => .ampersand
  | bitOr => .bar
  | bitXor => .caret
  | shiftLeft => .shiftLeft
  | shiftRight => .shiftRight

def Mark.operator? : Mark → Option ChainOperator
  | doubleAmpersand => some .and
  | doubleBar => some .or
  | equal => some .equal
  | atMost => some .atMost
  | less => some .below
  | plus => some .plus
  | minus => some .minus
  | star => some .times
  | slash => some .divide
  | ampersand => some .bitAnd
  | bar => some .bitOr
  | caret => some .bitXor
  | shiftLeft => some .shiftLeft
  | shiftRight => some .shiftRight
  | _ => none

namespace Layout

def ofMark (mark : Mark) : Layout := [some (.mark mark)]

def ofWord (text : String) : Layout := [some (.word text)]

def ofNumber (text : String) : Layout := [some (.number text.toList)]

def listed : List Layout → Layout
  | [] => []
  | first :: rest => first ++ rest.flatMap fun next => ofMark .comma ++ [none] ++ next

/-- A layout between blanks. -/
def spaced (layout : Layout) : Layout := none :: layout ++ [none]

end Layout

namespace Segment

open Layout

def parametersLayout : List String → Layout
  | [] => []
  | parameters =>
    ofMark .doubleColon ++ ofMark .less ++ listed (parameters.map ofNumber) ++ ofMark .greater

def layout (segment : Segment) : Layout :=
  ofWord segment.name ++ parametersLayout segment.parameters

def pathLayout : List Segment → Layout
  | [] => []
  | first :: rest => first.layout ++ rest.flatMap fun next => ofMark .doubleColon ++ next.layout

end Segment

namespace Term

open Layout Segment

mutual

def layout : Term → Layout
  | number text => ofNumber text
  | path segments => pathLayout segments
  | unary operator operand => ofMark operator.mark ++ operand.layout
  | binary operator left right => left.layout ++ spaced (ofMark operator.mark) ++ right.layout
  | cast operand type => operand.layout ++ spaced (ofWord "as") ++ ofWord type
  | call function arguments =>
    pathLayout function ++ ofMark .opening ++ listed (layouts arguments) ++ ofMark .closing
  | method receiver name arguments =>
    receiver.layout ++ ofMark .dot ++ ofWord name ++ ofMark .opening ++
      listed (layouts arguments) ++ ofMark .closing
  | group inner => ofMark .opening ++ inner.layout ++ ofMark .closing
  | conditional condition first second =>
    ofWord "if" ++ [none] ++ condition.layout ++ spaced (ofMark .openBlock) ++ first.layout ++
      spaced (ofMark .closeBlock) ++ ofWord "else" ++ spaced (ofMark .openBlock) ++
      second.layout ++ [none] ++ ofMark .closeBlock

def layouts : List Term → List Layout
  | [] => []
  | first :: rest => first.layout :: layouts rest

end

def letters (term : Term) : List Char := term.layout.letters

theorem layouts_eq (terms : List Term) : layouts terms = terms.map layout := by
  induction terms with
  | nil => rfl
  | cons first rest ih => rw [layouts, ih, List.map_cons]

/-- The term is spelled with whole tokens and bracketed as the levels ask for. Comparisons do not
associate, and a number does not take methods. -/
inductive Fits : Term → Prop where
  | number {text : String} (whole : IsNumber text) : Fits (number text)
  | path {first : Segment} {rest : List Segment} (other : first.name ≠ "if")
      (spelled : ∀ segment ∈ first :: rest, segment.IsSpelled) : Fits (path (first :: rest))
  | unary {operator : UnaryOperator} {operand : Term} (fits : Fits operand)
      (binds : unaryLevel ≤ operand.level) : Fits (unary operator operand)
  | binary {operator : ChainOperator} {left right : Term} (leftFits : Fits left)
      (rightFits : Fits right) (leftBinds : operator.level ≤ left.level)
      (rightBinds : operator.level < right.level)
      (single : operator.isComparison = true → left.isComparison = false) :
      Fits (binary operator left right)
  | cast {operand : Term} {type : String} (fits : Fits operand)
      (binds : castLevel ≤ operand.level) (spelled : IsWord type) : Fits (cast operand type)
  | call {first : Segment} {rest : List Segment} {arguments : List Term}
      (other : first.name ≠ "if") (spelled : ∀ segment ∈ first :: rest, segment.IsSpelled)
      (fit : ∀ argument ∈ arguments, Fits argument) : Fits (call (first :: rest) arguments)
  | method {receiver : Term} {name : String} {arguments : List Term} (fits : Fits receiver)
      (binds : tightLevel ≤ receiver.level) (points : ∀ text, receiver ≠ .number text)
      (spelled : IsWord name) (fit : ∀ argument ∈ arguments, Fits argument) :
      Fits (method receiver name arguments)
  | group {inner : Term} (fits : Fits inner) : Fits (group inner)
  | conditional {condition first second : Term} (conditionFits : Fits condition)
      (firstFits : Fits first) (secondFits : Fits second) :
      Fits (conditional condition first second)

end Term

section Spelling

open Layout Segment

variable {layout : Layout} {first : Token}

/-- The layout is read as its tokens, starts as terms do and ends in a token of this kind. -/
def Ending (kind : Token → Bool) (layout : Layout) : Prop :=
  ∃ first last, Framed layout first last ∧ first.opens = true ∧ kind last = true

theorem Ending.mono {kind other : Token → Bool} (ending : Ending kind layout)
    (each : ∀ token, kind token = true → other token = true) : Ending other layout := by
  obtain ⟨first, last, framed, opens, ends⟩ := ending
  exact ⟨first, last, framed, opens, each last ends⟩

theorem framed_mark (symbol : Mark) : Framed (ofMark symbol) (.mark symbol) (.mark symbol) :=
  .single trivial

theorem framed_word {text : String} (word : IsWord text) :
    Framed (ofWord text) (.word text) (.word text) := .single word

theorem ending_listed {kind : Token → Bool} (closing : ∀ token, kind token = true → token.closes)
    {first : Layout} {rest : List Layout} (endings : ∀ layout ∈ first :: rest, Ending kind layout) :
    Ending kind (listed (first :: rest)) := by
  induction rest generalizing first with
  | nil => simpa [listed] using endings
  | cons second rest ih =>
    rw [List.forall_mem_cons] at endings
    obtain ⟨start, stop, framed, opens, ends⟩ := endings.1
    obtain ⟨_, last, later, _, lastEnds⟩ := ih endings.2
    have comma := framed.append (framed_mark .comma)
      (apart_of_closes (closing stop ends) (by simp) (by simp))
    refine ⟨start, last, ?_, opens, lastEnds⟩
    simpa [listed] using comma.blank later

theorem framed_parameters {first : String} {rest : List String}
    (numbers : ∀ parameter ∈ first :: rest, IsNumber parameter) :
    Framed (parametersLayout (first :: rest)) (.mark .doubleColon) (.mark .greater) := by
  have endings : ∀ layout ∈ (first :: rest).map ofNumber, Ending Token.isNumber layout :=
    List.forall_mem_map.mpr fun text member => ⟨_, _, .single (numbers text member), rfl, rfl⟩
  obtain ⟨start, last, framed, opens, number⟩ :=
    ending_listed (fun _ => Token.closes_of_isNumber) endings
  have front := (framed_mark .doubleColon).append (framed_mark .less) (by rintro _ ⟨⟩; rfl)
  have inner := front.append framed (apart_of_opens framed.first_whole opens)
  exact inner.append (framed_mark .greater) (apart_greater number)

theorem Segment.IsSpelled.framed {segment : Segment} (spelled : segment.IsSpelled) :
    ∃ last, Framed segment.layout (.word segment.name) last ∧ last.points = true := by
  obtain ⟨name, parameters⟩ := segment
  obtain ⟨named, numbers⟩ := spelled
  cases parameters with
  | nil => exact ⟨_, framed_word named, rfl⟩
  | cons first rest =>
    have apart := @apart_of_closes (.word name) .doubleColon rfl (by simp) (by simp)
    exact ⟨_, (framed_word named).append (framed_parameters numbers) apart, rfl⟩

theorem framed_path {first : Segment} {rest : List Segment}
    (spelled : ∀ segment ∈ first :: rest, segment.IsSpelled) :
    ∃ last, Framed (pathLayout (first :: rest)) (.word first.name) last ∧
      last.points = true := by
  induction rest generalizing first with
  | nil => simpa [pathLayout] using (spelled first List.mem_cons_self).framed
  | cons second rest ih =>
    rw [List.forall_mem_cons] at spelled
    obtain ⟨last, framed, points⟩ := spelled.1.framed
    obtain ⟨stop, later, ends⟩ := ih spelled.2
    have front := framed.append (framed_mark .doubleColon)
      (apart_of_closes (Token.closes_of_points points) (by simp) (by simp))
    refine ⟨stop, ?_, ends⟩
    simpa [pathLayout] using front.append later (apart_of_opens later.first_whole rfl)

/-- Arguments and the brackets around them. -/
theorem framed_arguments {front : Layout} {arguments : List Layout}
    (framed : Framed front first (.mark .opening))
    (endings : ∀ argument ∈ arguments, Ending Token.closes argument) :
    Framed (front ++ listed arguments ++ ofMark .closing) first (.mark .closing) := by
  cases arguments with
  | nil =>
    rw [listed, List.append_nil]
    exact framed.append (framed_mark .closing) (by rintro _ ⟨⟩; rfl)
  | cons argument rest =>
    obtain ⟨start, last, inner, opens, closes⟩ := ending_listed (fun _ => id) endings
    exact (framed.append inner (apart_of_opens inner.first_whole opens)).append
      (framed_mark .closing) (apart_of_closes closes (by simp) (by simp))

/-- A term ends as terms do, and one that takes methods so that a dot may follow. -/
theorem Term.Fits.ending {term : Term} (fits : term.Fits) :
    Ending Token.closes term.layout ∧ (tightLevel ≤ term.level → (∀ text, term ≠ .number text) →
      Ending Token.points term.layout) := by
  induction fits with
  | @number text whole =>
    exact ⟨⟨_, _, .single whole, rfl, rfl⟩, fun _ other => absurd rfl (other text)⟩
  | path _ spelled =>
    obtain ⟨last, framed, points⟩ := framed_path spelled
    have pointed : Ending Token.points (pathLayout _) := ⟨_, last, framed, rfl, points⟩
    exact ⟨pointed.mono fun _ => Token.closes_of_points, fun _ _ => pointed⟩
  | @unary operator operand _ binds ih =>
    obtain ⟨start, last, framed, opens, closes⟩ := ih.1
    have opened : (Token.mark operator.mark).opens := by cases operator <;> rfl
    refine ⟨⟨_, last, (framed_mark operator.mark).append framed
      (apart_of_opens framed.first_whole opens), opened, closes⟩, fun tight => ?_⟩
    exact absurd tight (by decide : ¬ tightLevel ≤ unaryLevel)
  | @binary operator left right _ _ _ _ _ ihLeft ihRight =>
    obtain ⟨start, _, leftFramed, opens, _⟩ := ihLeft.1
    obtain ⟨_, last, rightFramed, _, closes⟩ := ihRight.1
    refine ⟨⟨start, last, ?_, opens, closes⟩, fun tight => ?_⟩
    · have joined := (leftFramed.blank (framed_mark operator.mark)).blank rightFramed
      simpa [Term.layout, spaced] using joined
    · exact absurd (Nat.lt_of_le_of_lt tight operator.level_lt) (by decide)
  | @cast operand type _ _ word ih =>
    obtain ⟨start, _, framed, opens, _⟩ := ih.1
    refine ⟨⟨start, .word type, ?_, opens, rfl⟩, fun tight => ?_⟩
    · have joined := (framed.blank (framed_word (by decide : IsWord "as"))).blank (framed_word word)
      simpa [Term.layout, spaced] using joined
    · exact absurd tight (by decide : ¬ tightLevel ≤ castLevel)
  | @call first rest arguments _ spelled _ ih =>
    obtain ⟨last, framed, points⟩ := framed_path spelled
    have front := framed.append (framed_mark .opening)
      (apart_of_closes (Token.closes_of_points points) (by simp) (by simp))
    have each : ∀ layout ∈ Term.layouts arguments, Ending Token.closes layout := by
      rw [Term.layouts_eq]
      exact List.forall_mem_map.mpr fun argument member => (ih argument member).1
    have pointed : Ending Token.points (Term.layout (.call (first :: rest) arguments)) :=
      ⟨_, _, framed_arguments front each, rfl, rfl⟩
    exact ⟨pointed.mono fun _ => Token.closes_of_points, fun _ _ => pointed⟩
  | @method receiver name arguments _ tight points word _ ihReceiver ih =>
    obtain ⟨start, last, framed, opens, ends⟩ := ihReceiver.2 tight points
    have dotted := framed.append (framed_mark .dot)
      (apart_of_closes (Token.closes_of_points ends) (by simp) fun _ => ends)
    have named := dotted.append (framed_word word) (apart_of_opens word rfl)
    have front := named.append (framed_mark .opening) (apart_of_closes rfl (by simp) (by simp))
    have each : ∀ layout ∈ Term.layouts arguments, Ending Token.closes layout := by
      rw [Term.layouts_eq]
      exact List.forall_mem_map.mpr fun argument member => (ih argument member).1
    have pointed : Ending Token.points (Term.layout (.method receiver name arguments)) :=
      ⟨start, _, framed_arguments front each, opens, rfl⟩
    exact ⟨pointed.mono fun _ => Token.closes_of_points, fun _ _ => pointed⟩
  | @group inner _ ih =>
    have framed := framed_arguments (framed_mark .opening) (List.forall_mem_singleton.mpr ih.1)
    rw [listed, List.flatMap_nil, List.append_nil] at framed
    have pointed : Ending Token.points (Term.layout (.group inner)) := ⟨_, _, framed, rfl, rfl⟩
    exact ⟨pointed.mono fun _ => Token.closes_of_points, fun _ _ => pointed⟩
  | @conditional condition first second _ _ _ ihCondition ihFirst ihSecond =>
    obtain ⟨_, _, conditionFramed, _, _⟩ := ihCondition.1
    obtain ⟨_, _, firstFramed, _, _⟩ := ihFirst.1
    obtain ⟨_, _, secondFramed, _, _⟩ := ihSecond.1
    have decided := (framed_word (by decide : IsWord "if")).blank conditionFramed
    have taken := (decided.blank (framed_mark .openBlock)).blank firstFramed
    have turned := (taken.blank (framed_mark .closeBlock)).blank
      (framed_word (by decide : IsWord "else"))
    have refused := (turned.blank (framed_mark .openBlock)).blank secondFramed
    have pointed : Ending Token.points (Term.layout (.conditional condition first second)) := by
      refine ⟨.word "if", .mark .closeBlock, ?_, rfl, rfl⟩
      simpa [Term.layout, spaced] using refused.blank (framed_mark .closeBlock)
    exact ⟨pointed.mono fun _ => Token.closes_of_points, fun _ _ => pointed⟩

/-- The letters of a term are read as its tokens. -/
theorem Term.Fits.scan_letters {term : Term} (fits : term.Fits) :
    scan term.letters = some term.layout.tokens := by
  obtain ⟨_, _, framed, _⟩ := fits.ending.1
  exact framed.scan

end Spelling

end Formulary.Code
