import Formulary.Proofs.Code.Terms

/-! How terms are read. Operators bind by their levels: a reader puts off what it has begun until
it meets a token that binds no tighter. Every term that is bracketed as the levels ask for is read
back as itself. -/
namespace Formulary.Code

/-- What a list of arguments is for. -/
inductive Callee where
  | function (segments : List Segment)
  | method (receiver : Term) (name : String)

def Callee.apply : Callee → List Term → Term
  | function segments, arguments => .call segments arguments
  | method receiver name, arguments => .method receiver name arguments

/-- What has begun and is not complete. -/
inductive Frame where
  | unary (operator : UnaryOperator)
  | binary (operator : ChainOperator) (left : Term)
  | group
  | arguments (callee : Callee) (before : List Term)
  | condition
  | first (condition : Term)
  | second (condition first : Term)

/-- What is expected next. The segments of a path are kept last one first. -/
inductive Mode where
  | operand
  | complete (term : Term)
  | path (segments : List Segment)
  | colons (segments : List Segment)
  | parameter (segments : List Segment) (before : List String)
  | parameterEnd (segments : List Segment) (before : List String)
  | dot (receiver : Term)
  | methodName (receiver : Term) (name : String)
  | castType (operand : Term)
  | otherwise (condition first : Term)
  | otherwiseBlock (condition first : Term)

structure Parsing where
  frames : List Frame
  mode : Mode

/-- The term that could end here. -/
def Mode.term? : Mode → Option Term
  | complete term => some term
  | path segments => some (.path segments.reverse)
  | _ => none

/-- Completes what binds at least as tightly as a level. -/
def reduce (level : Nat) : Term → List Frame → Term × List Frame
  | term, .unary operator :: frames => reduce level (.unary operator term) frames
  | term, .binary operator left :: frames =>
    if level ≤ operator.level then reduce level (.binary operator left term) frames
    else (term, .binary operator left :: frames)
  | term, frames => (term, frames)

namespace Parsing

def begin (frames : List Frame) : Token → Option Parsing
  | .name letters =>
    if letters = "if".toList then some ⟨.condition :: frames, .operand⟩
    else some ⟨frames, .path [⟨.ofList letters, []⟩]⟩
  | .number letters => some ⟨frames, .complete (.number (.ofList letters))⟩
  | .mark .opening => some ⟨.group :: frames, .operand⟩
  | .mark .minus => some ⟨.unary .negate :: frames, .operand⟩
  | .mark .bang => some ⟨.unary .not :: frames, .operand⟩
  | .mark .closing =>
    match frames with
    | .arguments callee [] :: frames => some ⟨frames, .complete (callee.apply [])⟩
    | _ => none
  | .mark _ => none

/-- A mark that ends what the innermost frame has begun. -/
def close (term : Term) : List Frame → Mark → Option Parsing
  | .group :: frames, .closing => some ⟨frames, .complete (.group term)⟩
  | .arguments callee before :: frames, .comma =>
    some ⟨.arguments callee (before ++ [term]) :: frames, .operand⟩
  | .arguments callee before :: frames, .closing =>
    some ⟨frames, .complete (callee.apply (before ++ [term]))⟩
  | .condition :: frames, .openBlock => some ⟨.first term :: frames, .operand⟩
  | .first condition :: frames, .closeBlock => some ⟨frames, .otherwise condition term⟩
  | .second condition first :: frames, .closeBlock =>
    some ⟨frames, .complete (.conditional condition first term)⟩
  | _, _ => none

/-- A token after a term that could end there. -/
def resume (frames : List Frame) (term : Term) : Token → Option Parsing
  | .name letters =>
    if letters = "as".toList then
      let (operand, frames) := reduce castLevel term frames
      some ⟨frames, .castType operand⟩
    else none
  | .number _ => none
  | .mark .dot => some ⟨frames, .dot term⟩
  | .mark mark =>
    match mark.operator? with
    | some operator =>
      let (left, frames) := reduce operator.level term frames
      if operator.isComparison && left.isComparison then none
      else some ⟨.binary operator left :: frames, .operand⟩
    | none =>
      let (term, frames) := reduce 0 term frames
      close term frames mark

def step (parsing : Parsing) (token : Token) : Option Parsing :=
  let frames := parsing.frames
  match parsing.mode, token with
  | .operand, token => begin frames token
  | .complete term, token => resume frames term token
  | .path segments, .mark .doubleColon => some ⟨frames, .colons segments⟩
  | .path segments, .mark .opening =>
    some ⟨.arguments (.function segments.reverse) [] :: frames, .operand⟩
  | .path segments, token => resume frames (.path segments.reverse) token
  | .colons segments, .name letters => some ⟨frames, .path (⟨.ofList letters, []⟩ :: segments)⟩
  | .colons segments, .mark .less => some ⟨frames, .parameter segments []⟩
  | .parameter segments before, .number letters =>
    some ⟨frames, .parameterEnd segments (before ++ [.ofList letters])⟩
  | .parameterEnd segments before, .mark .comma => some ⟨frames, .parameter segments before⟩
  | .parameterEnd (last :: segments) before, .mark .greater =>
    some ⟨frames, .path ({ last with parameters := before } :: segments)⟩
  | .dot receiver, .name letters => some ⟨frames, .methodName receiver (.ofList letters)⟩
  | .methodName receiver name, .mark .opening =>
    some ⟨.arguments (.method receiver name) [] :: frames, .operand⟩
  | .castType operand, .name letters => some ⟨frames, .complete (.cast operand (.ofList letters))⟩
  | .otherwise condition first, .name letters =>
    if letters = "else".toList then some ⟨frames, .otherwiseBlock condition first⟩ else none
  | .otherwiseBlock condition first, .mark .openBlock =>
    some ⟨.second condition first :: frames, .operand⟩
  | _, _ => none

end Parsing

def parse (tokens : List Token) : Option Term := do
  let parsing ← tokens.foldlM Parsing.step ⟨[], .operand⟩
  match reduce 0 (← parsing.mode.term?) parsing.frames with
  | (term, []) => some term
  | _ => none

section Reading

open Layout Segment

variable {frames : List Frame}

theorem Parsing.step_eq_resume {mode : Mode} {term : Term} {token : Token}
    (ended : mode.term? = some term) (noPath : token ≠ .mark .doubleColon)
    (noCall : token ≠ .mark .opening) : step ⟨frames, mode⟩ token = resume frames term token := by
  cases mode with
  | complete =>
    cases ended
    rfl
  | path segments =>
    cases ended
    cases token with
    | name | number => rfl
    | mark symbol =>
      cases symbol with
      | doubleColon => exact absurd rfl noPath
      | opening => exact absurd rfl noCall
      | _ => rfl
  | _ => cases ended

theorem resume_operator {term : Term} (operator : ChainOperator) :
    Parsing.resume frames term (.mark operator.mark) =
      let (left, frames) := reduce operator.level term frames
      if operator.isComparison && left.isComparison then none
      else some ⟨.binary operator left :: frames, .operand⟩ := by
  cases operator <;> rfl

/-- Nothing in the frames takes part of a term of this level. -/
def Admits (level : Nat) (frames : List Frame) : Prop :=
  ∀ bound term, level ≤ bound → bound ≤ castLevel → reduce bound term frames = (term, frames)

theorem Admits.mono {level above : Nat} (admits : Admits level frames) (le : level ≤ above) :
    Admits above frames :=
  fun bound term least most => admits bound term (le.trans least) most

theorem Admits.unary {level : Nat} {operator : UnaryOperator} (tight : unaryLevel ≤ level) :
    Admits level (.unary operator :: frames) := by
  intro bound term least most
  exact absurd (tight.trans (least.trans most)) (by decide)

theorem Admits.binary {level : Nat} {operator : ChainOperator} {left : Term}
    (tighter : operator.level < level) : Admits level (.binary operator left :: frames) :=
  fun _ _ least _ => if_neg (Nat.not_le.mpr (Nat.lt_of_lt_of_le tighter least))

/-- The parsing has read a term, though it may have put off some of it. -/
def Stands (term : Term) (frames : List Frame) (parsing : Parsing) : Prop :=
  ∃ last, parsing.mode.term? = some last ∧
    (∀ bound ≤ term.level, reduce bound last parsing.frames = reduce bound term frames) ∧
    (tightLevel ≤ term.level → last = term ∧ parsing.frames = frames)

namespace Stands

variable {term : Term} {parsing : Parsing}

theorem complete (term : Term) (frames : List Frame) :
    Stands term frames ⟨frames, .complete term⟩ :=
  ⟨term, rfl, fun _ _ => rfl, fun _ => ⟨rfl, rfl⟩⟩

theorem close (stands : Stands term frames parsing) (whole : reduce 0 term frames = (term, frames))
    {symbol : Mark} (ends : symbol ∈ [.comma, .closing, .openBlock, .closeBlock]) :
    parsing.step (.mark symbol) = Parsing.close term frames symbol := by
  obtain ⟨last, ended, reduced, _⟩ := stands
  have resumed : parsing.step (.mark symbol) =
      Parsing.close (reduce 0 last parsing.frames).1 (reduce 0 last parsing.frames).2 symbol := by
    simp only [List.mem_cons, List.not_mem_nil, or_false] at ends
    rcases ends with rfl | rfl | rfl | rfl
    all_goals exact Parsing.step_eq_resume ended (by simp) (by simp)
  rw [resumed, reduced 0 (Nat.zero_le _), whole]

theorem operator (stands : Stands term frames parsing) {operator : ChainOperator}
    (admits : Admits operator.level frames) (binds : operator.level ≤ term.level)
    (single : operator.isComparison = true → term.isComparison = false) :
    parsing.step (.mark operator.mark) = some ⟨.binary operator term :: frames, .operand⟩ := by
  obtain ⟨last, ended, reduced, _⟩ := stands
  have whole : reduce operator.level last parsing.frames = (term, frames) := by
    rw [reduced _ binds]
    exact admits _ _ (Nat.le_refl _) operator.level_lt.le
  rw [Parsing.step_eq_resume ended (by cases operator <;> simp [ChainOperator.mark])
    (by cases operator <;> simp [ChainOperator.mark]), resume_operator, whole]
  cases compares : operator.isComparison with
  | false => simp
  | true => simp [single compares]

theorem cast (stands : Stands term frames parsing) (admits : Admits castLevel frames)
    (binds : castLevel ≤ term.level) :
    parsing.step (.word "as") = some ⟨frames, .castType term⟩ := by
  obtain ⟨last, ended, reduced, _⟩ := stands
  have whole : reduce castLevel last parsing.frames = (term, frames) := by
    rw [reduced _ binds]
    exact admits _ _ (Nat.le_refl _) (Nat.le_refl _)
  rw [Parsing.step_eq_resume ended (by simp [Token.word]) (by simp [Token.word])]
  simp only [Parsing.resume, Token.word, if_true, whole]

theorem dot (stands : Stands term frames parsing) (tight : tightLevel ≤ term.level) :
    parsing.step (.mark .dot) = some ⟨frames, .dot term⟩ := by
  obtain ⟨last, ended, _, same⟩ := stands
  obtain ⟨rfl, rfl⟩ := same tight
  rw [Parsing.step_eq_resume ended (by simp) (by simp)]
  rfl

end Stands

/-- Tokens take a parsing from one state to another. -/
def Parsing.Leads (parsing : Parsing) (tokens : List Token) (after : Parsing) : Prop :=
  tokens.foldlM step parsing = some after

namespace Parsing.Leads

variable {parsing middle after : Parsing} {token : Token} {tokens more : List Token}

theorem single (read : parsing.step token = some after) : Leads parsing [token] after := by
  rw [Leads, List.foldlM_cons, read]
  rfl

theorem append (first : Leads parsing tokens middle) (second : Leads middle more after) :
    Leads parsing (tokens ++ more) after := by
  rw [Leads, List.foldlM_append, first]
  exact second

theorem cons (read : parsing.step token = some middle) (later : Leads middle tokens after) :
    Leads parsing (token :: tokens) after := (single read).append later

end Parsing.Leads

open Parsing (Leads)

theorem tokens_ofMark (mark : Mark) : (ofMark mark).tokens = [.mark mark] := rfl

theorem tokens_ofWord (text : String) : (ofWord text).tokens = [.word text] := rfl

theorem tokens_ofNumber (text : String) : (ofNumber text).tokens = [.number text.toList] := rfl

theorem tokens_spaced (layout : Layout) : (spaced layout).tokens = layout.tokens := by
  simp [spaced]

theorem tokens_listed (first second : Layout) (rest : List Layout) :
    (listed (first :: second :: rest)).tokens =
      first.tokens ++ .mark .comma :: (listed (second :: rest)).tokens := by
  simp [listed, tokens_ofMark]

/-- Numbers between commas are read one after the other. -/
theorem leads_parameters {segments : List Segment} (before : List String) (first : String)
    (rest : List String) :
    Leads ⟨frames, .parameter segments before⟩ (listed ((first :: rest).map ofNumber)).tokens
      ⟨frames, .parameterEnd segments (before ++ first :: rest)⟩ := by
  induction rest generalizing before first with
  | nil =>
    refine .single ?_
    simp [Parsing.step]
  | cons second rest ih =>
    rw [List.map_cons, List.map_cons, tokens_listed, ← List.map_cons, tokens_ofNumber]
    have read : Parsing.step ⟨frames, .parameter segments before⟩ (.number first.toList) =
        some ⟨frames, .parameterEnd segments (before ++ [first])⟩ := by simp [Parsing.step]
    have later := ih (before ++ [first]) second
    rw [List.append_assoc] at later
    exact .cons read (.cons rfl later)

theorem leads_segment (segment : Segment) (before : List Segment) :
    Leads ⟨frames, .path (⟨segment.name, []⟩ :: before)⟩
      (parametersLayout segment.parameters).tokens ⟨frames, .path (segment :: before)⟩ := by
  obtain ⟨name, parameters⟩ := segment
  cases parameters with
  | nil => rfl
  | cons first rest =>
    have numbers := @leads_parameters frames (⟨name, []⟩ :: before) [] first rest
    rw [parametersLayout, tokens_append, tokens_append, tokens_append]
    · exact ((Leads.single rfl).append (.single rfl) |>.append numbers).append (.single rfl)
    · simp

theorem leads_segments (segments before : List Segment) :
    Leads ⟨frames, .path before⟩
      (tokens (segments.flatMap fun next => ofMark .doubleColon ++ next.layout))
      ⟨frames, .path (segments.reverse ++ before)⟩ := by
  induction segments generalizing before with
  | nil => rfl
  | cons next rest ih =>
    have named : Parsing.step ⟨frames, .colons before⟩ (.word next.name) =
        some ⟨frames, .path (⟨next.name, []⟩ :: before)⟩ := by
      simp [Parsing.step, Token.word]
    have later := ih (next :: before)
    rw [← List.singleton_append, ← List.append_assoc, ← List.reverse_cons] at later
    rw [List.flatMap_cons, Segment.layout, tokens_append, tokens_append, tokens_append]
    exact (Leads.cons rfl (.cons named (leads_segment next before))).append later

theorem leads_path {first : Segment} (rest : List Segment) (other : first.name ≠ "if") :
    Leads ⟨frames, .operand⟩ (pathLayout (first :: rest)).tokens
      ⟨frames, .path (first :: rest).reverse⟩ := by
  have named : Parsing.step ⟨frames, .operand⟩ (.word first.name) =
      some ⟨frames, .path [⟨first.name, []⟩]⟩ := by
    have apart : first.name.toList ≠ "if".toList := fun same => other (String.toList_inj.mp same)
    simp only [Parsing.step, Parsing.begin, Token.word, if_neg apart, String.ofList_toList]
  have later := @leads_segments frames rest [first]
  rw [← List.reverse_cons] at later
  rw [pathLayout, Segment.layout, tokens_append, tokens_append]
  exact (Leads.cons named (leads_segment first [])).append later

/-- The tokens of a term are read to its end, whatever has begun before. -/
def Reads (term : Term) : Prop :=
  ∀ frames, Admits term.level frames →
    ∃ parsing, Leads ⟨frames, .operand⟩ term.layout.tokens parsing ∧ Stands term frames parsing

theorem leads_arguments {callee : Callee} {first : Term} {rest : List Term} (before : List Term)
    (reads : ∀ argument ∈ first :: rest, Reads argument) :
    Leads ⟨.arguments callee before :: frames, .operand⟩
      ((listed (Term.layouts (first :: rest))).tokens ++ [.mark .closing])
      ⟨frames, .complete (callee.apply (before ++ first :: rest))⟩ := by
  obtain ⟨parsing, leads, stands⟩ :=
    reads first List.mem_cons_self (.arguments callee before :: frames) fun _ _ _ _ => rfl
  induction rest generalizing first before parsing with
  | nil =>
    rw [Term.layouts, Term.layouts, listed, List.flatMap_nil, List.append_nil]
    exact leads.append (.single (stands.close rfl (by simp)))
  | cons second rest ih =>
    have others := (List.forall_mem_cons.mp reads).2
    obtain ⟨next, leadsNext, standsNext⟩ := others second List.mem_cons_self
      (.arguments callee (before ++ [first]) :: frames) fun _ _ _ _ => rfl
    have later := ih (before ++ [first]) others next leadsNext standsNext
    rw [Term.layouts, Term.layouts, tokens_listed, List.append_assoc, List.cons_append,
      ← Term.layouts]
    rw [List.append_assoc] at later
    exact leads.append (.cons (stands.close rfl (by simp)) later)

theorem leads_call {callee : Callee} {arguments : List Term}
    (reads : ∀ argument ∈ arguments, Reads argument) :
    Leads ⟨.arguments callee [] :: frames, .operand⟩
      ((listed (Term.layouts arguments)).tokens ++ [.mark .closing])
      ⟨frames, .complete (callee.apply arguments)⟩ := by
  cases arguments with
  | nil => exact .single rfl
  | cons first rest => exact leads_arguments [] reads

/-- A term that is bracketed as the levels ask for is read to its end. -/
theorem Term.Fits.reads {term : Term} (fits : term.Fits) : Reads term := by
  induction fits with
  | number =>
    intro frames _
    refine ⟨_, .single ?_, .complete _ _⟩
    simp [Parsing.step, Parsing.begin]
  | @path first rest other =>
    intro frames _
    have reversed : (first :: rest).reverse.reverse = first :: rest := List.reverse_reverse _
    refine ⟨_, leads_path rest other, .path (first :: rest), ?_, fun _ _ => rfl,
      fun _ => ⟨rfl, rfl⟩⟩
    rw [Mode.term?, reversed]
  | @unary operator operand _ binds ih =>
    intro frames _
    obtain ⟨parsing, leads, last, ended, reduced, _⟩ :=
      ih (.unary operator :: frames) (.unary binds)
    have began : Parsing.step ⟨frames, .operand⟩ (.mark operator.mark) =
        some ⟨.unary operator :: frames, .operand⟩ := by cases operator <;> rfl
    refine ⟨parsing, .cons began leads, last, ended, fun bound le => ?_, fun tight => ?_⟩
    · exact reduced bound (Nat.le_trans le binds)
    · have loose : unaryLevel < tightLevel := by decide
      exact absurd tight (Nat.not_le.mpr loose)
  | @binary operator left right _ _ leftBinds rightBinds single ihLeft ihRight =>
    intro frames admits
    obtain ⟨middle, leadsLeft, stands⟩ := ihLeft frames (admits.mono leftBinds)
    obtain ⟨parsing, leadsRight, last, ended, reduced, _⟩ :=
      ihRight (.binary operator left :: frames) (.binary rightBinds)
    refine ⟨parsing, ?_, last, ended, fun bound le => ?_, fun tight => ?_⟩
    · rw [Term.layout, tokens_append, tokens_append, tokens_spaced, List.append_assoc]
      exact leadsLeft.append (.cons (stands.operator admits leftBinds single) leadsRight)
    · rw [reduced bound (Nat.le_trans le rightBinds.le)]
      exact if_pos le
    · exact absurd (Nat.lt_of_le_of_lt tight operator.level_lt) (by decide)
  | @cast operand type _ binds _ ih =>
    intro frames admits
    obtain ⟨middle, leads, stands⟩ := ih frames (admits.mono binds)
    refine ⟨_, ?_, .complete _ _⟩
    rw [Term.layout, tokens_append, tokens_append, tokens_spaced, List.append_assoc]
    refine leads.append (.cons (stands.cast admits binds) (.single ?_))
    simp [Parsing.step, Token.word]
  | @call first rest arguments other _ _ ih =>
    intro frames _
    refine ⟨_, ?_, .complete _ _⟩
    have opened : Parsing.step ⟨frames, .path (first :: rest).reverse⟩ (.mark .opening) =
        some ⟨.arguments (.function (first :: rest)) [] :: frames, .operand⟩ := by
      simp [Parsing.step]
    rw [Term.layout, tokens_append, tokens_append, tokens_append, List.append_assoc]
    exact ((leads_path rest other).append (.single opened)).append (leads_call ih)
  | @method receiver name arguments _ binds _ _ _ ihReceiver ih =>
    intro frames admits
    obtain ⟨middle, leads, stands⟩ := ihReceiver frames (admits.mono binds)
    have named : Parsing.step ⟨frames, .dot receiver⟩ (.word name) =
        some ⟨frames, .methodName receiver name⟩ := by simp [Parsing.step, Token.word]
    have opened : Leads middle [.mark .dot, .word name, .mark .opening]
        ⟨.arguments (.method receiver name) [] :: frames, .operand⟩ :=
      .cons (stands.dot binds) (.cons named (.single rfl))
    have called : Leads ⟨.arguments (.method receiver name) [] :: frames, .operand⟩ _
        ⟨frames, .complete (.method receiver name arguments)⟩ := leads_call ih
    refine ⟨_, ?_, .complete _ _⟩
    simpa [Term.layout, tokens_ofMark, tokens_ofWord] using leads.append (opened.append called)
  | group _ ih =>
    intro frames _
    obtain ⟨middle, leads, stands⟩ := ih (.group :: frames) fun _ _ _ _ => rfl
    refine ⟨_, ?_, .complete _ _⟩
    rw [Term.layout, tokens_append, tokens_append]
    exact (Leads.cons rfl leads).append (.single (stands.close rfl (by simp)))
  | @conditional condition first second _ _ _ ihCondition ihFirst ihSecond =>
    intro frames _
    obtain ⟨decided, leadsCondition, standsCondition⟩ :=
      ihCondition (.condition :: frames) fun _ _ _ _ => rfl
    obtain ⟨taken, leadsFirst, standsFirst⟩ :=
      ihFirst (.first condition :: frames) fun _ _ _ _ => rfl
    obtain ⟨refused, leadsSecond, standsSecond⟩ :=
      ihSecond (.second condition first :: frames) fun _ _ _ _ => rfl
    refine ⟨_, ?_, .complete _ _⟩
    have start : Leads ⟨frames, .operand⟩ [.word "if"] ⟨.condition :: frames, .operand⟩ :=
      .single rfl
    have entered : Leads decided [.mark .openBlock] ⟨.first condition :: frames, .operand⟩ :=
      .single (standsCondition.close rfl (by simp))
    have turned : Leads taken [.mark .closeBlock, .word "else", .mark .openBlock]
        ⟨.second condition first :: frames, .operand⟩ :=
      .cons (standsFirst.close rfl (by simp)) (.cons rfl (.single rfl))
    have left : Leads refused [.mark .closeBlock]
        ⟨frames, .complete (.conditional condition first second)⟩ :=
      .single (standsSecond.close rfl (by simp))
    have parts := (start.append (leadsCondition.append entered)).append
      ((leadsFirst.append turned).append (leadsSecond.append left))
    simpa [Term.layout, tokens_spaced, tokens_ofMark, tokens_ofWord] using parts

theorem Term.Fits.parse_tokens {term : Term} (fits : term.Fits) :
    parse term.layout.tokens = some term := by
  obtain ⟨parsing, leads, last, ended, reduced, _⟩ := fits.reads [] fun _ _ _ _ => rfl
  have whole : reduce 0 last parsing.frames = (term, []) := reduced 0 (Nat.zero_le _)
  have read : term.layout.tokens.foldlM Parsing.step ⟨[], .operand⟩ = some parsing := leads
  simp only [parse, read, ended, whole, Option.bind_eq_bind, Option.bind_some]

/-- The term that a text spells. -/
def readTerm (letters : List Char) : Option Term := (scan letters).bind parse

/-- Every term that is bracketed as the levels ask for is read back from its letters. -/
theorem Term.Fits.readTerm_letters {term : Term} (fits : term.Fits) :
    readTerm term.letters = some term := by
  rw [readTerm, fits.scan_letters, Option.bind_some, fits.parse_tokens]

end Reading

end Formulary.Code
