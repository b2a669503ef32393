import Formulary.Format.Formula
import Formulary.Proofs.Json.Documents

namespace Formulary

namespace Json

mutual

/-- How many arrays and objects stand inside one another. -/
def depth : Json → Nat
  | array items => itemsDepth items + 1
  | object members => membersDepth members + 1
  | null | bool _ | number _ | string _ => 0

def itemsDepth : List Json → Nat
  | [] => 0
  | first :: rest => max first.depth (itemsDepth rest)

def membersDepth : List (Option String × Json) → Nat
  | [] => 0
  | (_, first) :: rest => max first.depth (membersDepth rest)

end

theorem itemsDepth_le {items : List Json} {bound : Nat} :
    itemsDepth items ≤ bound ↔ ∀ item ∈ items, item.depth ≤ bound := by
  induction items with
  | nil => simp [itemsDepth]
  | cons first rest ih => simp [itemsDepth, ih]

theorem membersDepth_le {members : List (Option String × Json)} {bound : Nat} :
    membersDepth members ≤ bound ↔ ∀ member ∈ members, member.2.depth ≤ bound := by
  induction members with
  | nil => simp [membersDepth]
  | cons first rest ih =>
    obtain ⟨key, document⟩ := first
    simp [membersDepth, ih]

@[simp] theorem depth_ofNat (number : Nat) : (ofNat number).depth = 0 := rfl

@[simp] theorem depth_ofInt (number : Int) : (ofInt number).depth = 0 := rfl

theorem depth_tagged (name : String) (content : Json) :
    (Format.tagged name content).depth = content.depth + 1 := by
  simp [Format.tagged, record, depth, membersDepth]

end Json

namespace Format

theorem word32_ofNat {number : Nat} (small : number < Word.halfSize) :
    word32 (.ofNat number) = some number := if_pos small

theorem unsigned_ofNat (bits : UInt64) : unsigned (.ofNat bits.toNat) = some bits := by
  have read : natural Word.size (.ofNat bits.toNat) = some bits.toNat := if_pos bits.toNat_lt
  rw [unsigned, read, Option.map_some, UInt64.ofNat_toNat]

theorem signed_ofInt (value : Int64) : signed (.ofInt value.toInt) = some value := by
  have least := value.le_toInt
  have most := value.toInt_lt
  by_cases negative : value.toInt < 0
  · have written : Json.ofInt value.toInt = .number (.integer true value.toInt.natAbs) := by
      simp [Json.ofInt, negative]
    rw [written, signed, if_pos (by omega)]
    have same : -(value.toInt.natAbs : Int) = value.toInt := by omega
    rw [same, Int64.ofInt_toInt]
  · have written : Json.ofInt value.toInt = .number (.integer false value.toInt.natAbs) := by
      simp [Json.ofInt, negative]
    rw [written, signed, if_pos (by omega)]
    have same : (value.toInt.natAbs : Int) = value.toInt := by omega
    rw [same, Int64.ofInt_toInt]

/-- The decoder reads the value from the document, and only nesting can prevent it. -/
def Restores {α : Type} (decoder : Decoder α) (document : Json) (value : α) : Prop :=
  ∀ nesting, decoder nesting document = if document.depth ≤ nesting then some value else none

section Shapes

variable {α β : Type} {decoder : Decoder α} {document : Json} {value : α}

theorem Restores.leaf (flat : document.depth = 0)
    (read : ∀ nesting, decoder nesting document = some value) :
    Restores decoder document value := by
  intro nesting
  rw [read, if_pos (flat ▸ Nat.zero_le nesting)]

/-- What opens an array or object needs one level more than what is inside. -/
theorem Restores.opening {inside : Nat} (outer : document.depth = inside + 1)
    (shut : decoder 0 document = none)
    (opened : ∀ inner, decoder (inner + 1) document =
      if inside ≤ inner then some value else none) : Restores decoder document value := by
  intro nesting
  cases nesting with
  | zero => rw [shut, if_neg (by omega)]
  | succ inner =>
    rw [opened, outer]
    simp only [Nat.add_le_add_iff_right]

theorem Restores.tagged {name : String} {payload : Decoder α}
    (restores : Restores payload document value)
    (shut : decoder 0 (Format.tagged name document) = none)
    (opened : ∀ inner, decoder (inner + 1) (Format.tagged name document) =
      payload inner document) : Restores decoder (Format.tagged name document) value :=
  .opening (Json.depth_tagged name document) shut fun inner => (opened inner).trans (restores inner)

theorem Restores.map (restores : Restores decoder document value) (form : α → β) :
    Restores (fun nesting document => (decoder nesting document).map form) document
      (form value) := by
  intro nesting
  dsimp only
  rw [restores nesting]
  split <;> rfl

theorem mapM_map {γ : Type} {encode : α → β} {decode : β → Option γ} {meaning : α → γ}
    {Fine : α → Prop} [DecidablePred Fine] {list : List α}
    (each : ∀ element ∈ list,
      decode (encode element) = if Fine element then some (meaning element) else none) :
    (list.map encode).mapM decode =
      if ∀ element ∈ list, Fine element then some (list.map meaning) else none := by
  induction list with
  | nil => simp
  | cons first rest ih =>
    have others := ih fun element listed => each element (List.mem_cons_of_mem first listed)
    rw [List.map_cons, List.mapM_cons, each first List.mem_cons_self, others]
    by_cases fine : Fine first
    · by_cases more : ∀ element ∈ rest, Fine element
      · rw [if_pos fine, if_pos more, if_pos (List.forall_mem_cons.mpr ⟨fine, more⟩)]
        rfl
      · rw [if_pos fine, if_neg more, if_neg fun all => more (List.forall_mem_cons.mp all).2]
        rfl
    · rw [if_neg fine, if_neg fun all => fine (List.forall_mem_cons.mp all).1]
      rfl

theorem Restores.list {encode : α → Json} {list : List α}
    (each : ∀ element ∈ list, Restores decoder (encode element) element) :
    Restores (Format.list decoder) (.array (list.map encode)) list := by
  refine .opening (by rw [Json.depth]) rfl fun inner => ?_
  have decoded : (list.map encode).mapM (decoder inner) =
      if ∀ element ∈ list, (encode element).depth ≤ inner then some (list.map id) else none :=
    mapM_map fun element listed => each element listed inner
  rw [List.map_id] at decoded
  simp only [Json.itemsDepth_le, List.forall_mem_map]
  exact decoded

theorem bind_both {γ : Type} {p q : Prop} [Decidable p] [Decidable q] {first : α} {second : β}
    (form : α → β → γ) :
    ((if p then some first else none) >>= fun a =>
      (if q then some second else none) >>= fun b => pure (form a b)) =
      if p ∧ q then some (form first second) else none := by
  by_cases left : p <;> by_cases right : q <;> simp [left, right]

theorem choice_tagged (inner : Nat) (name : String) (content : Json) :
    choice (inner + 1) (Format.tagged name content) = some ⟨name, some content, inner⟩ := rfl

/-- A key that is not repeated has one member. -/
theorem member_record {entries : List (String × Json)}
    (distinct : (entries.map (·.1)).Nodup) {entry : String × Json} (listed : entry ∈ entries) :
    member (entries.map fun entry => (some entry.1, entry.2)) entry.1 = some entry.2 := by
  suffices only : (entries.map fun entry => (some entry.1, entry.2)).filter
      (fun candidate => candidate.1 = some entry.1) = [(some entry.1, entry.2)] by
    rw [member, only]
  induction entries with
  | nil => cases listed
  | cons first rest ih =>
    obtain ⟨fresh, distinct⟩ := List.nodup_cons.mp distinct
    rw [List.map_cons, List.filter_cons]
    rcases List.mem_cons.mp listed with rfl | later
    · have others : (rest.map fun entry => (some entry.1, entry.2)).filter
          (fun candidate => candidate.1 = some entry.1) = [] := by
        rw [List.filter_eq_nil_iff]
        intro candidate member same
        obtain ⟨other, otherListed, rfl⟩ := List.mem_map.mp member
        exact fresh (List.mem_map.mpr ⟨other, otherListed, by simpa using same⟩)
      simp [others]
    · have different : first.1 ≠ entry.1 := fun same =>
        fresh (List.mem_map.mpr ⟨entry, later, same.symm⟩)
      simp [different, ih distinct later]

/-- A structure's fields are found under their names. -/
theorem fields_record {entries : List (String × Json)} (inner : Nat)
    (distinct : (entries.map (·.1)).Nodup) :
    fields (entries.map (·.1)) (inner + 1) (.record entries) =
      some (inner, entries.map (·.2)) := by
  have found : (entries.map (·.1)).mapM
      (member (entries.map fun entry => (some entry.1, entry.2))) =
        if ∀ entry ∈ entries, True then some (entries.map (·.2)) else none := by
    apply mapM_map
    intro entry listed
    rw [if_pos trivial]
    exact member_record distinct listed
  rw [if_pos fun _ _ => trivial] at found
  simp [fields, Json.record, descend, found]

end Shapes

end Format

namespace TermSort

mutual

def Sized : TermSort → Prop
  | bitVec width => width < Word.halfSize
  | array index element => index.Sized ∧ element.Sized
  | function arguments result => AllSized arguments ∧ result.Sized
  | bool | int | real | uninterpreted _ => True

def AllSized : List TermSort → Prop
  | [] => True
  | sort :: rest => sort.Sized ∧ AllSized rest

end

open Format (Restores)

mutual

theorem restores (sort : TermSort) (sized : sort.Sized) : Restores ofJson sort.toJson sort := by
  cases sort with
  | bool | int | real =>
    refine .leaf rfl fun nesting => ?_
    simp [toJson, Json.ofText, ofJson, scalar]
  | bitVec width =>
    have read : Format.word32 (.ofNat width) = some width := Format.word32_ofNat sized
    have leaf : Restores (fun _ => Format.word32) (.ofNat width) width := .leaf rfl fun _ => read
    refine (leaf.map bitVec).tagged ?_ ?_
    · simp [Format.tagged, Json.record, ofJson]
    · simp [Format.tagged, Json.record, ofJson, Json.ofNat]
  | uninterpreted name =>
    have leaf : Restores (fun _ => Format.text) (.ofText name) name := .leaf rfl fun _ => rfl
    refine (leaf.map uninterpreted).tagged ?_ ?_
    · simp [Format.tagged, Json.record, ofJson]
    · simp [Format.tagged, Json.record, ofJson, Json.ofText]
  | array index element =>
    have first := restores index sized.1
    have second := restores element sized.2
    have pair : Restores
        (fun nesting content => ofJson (nesting + 1) (Format.tagged "Array" content))
        (.array [index.toJson, element.toJson]) (array index element) := by
      refine .opening (by rw [Json.depth]) ?_ fun inner => ?_
      · simp [Format.tagged, Json.record, ofJson]
      · simp only [Format.tagged, Json.record, ofJson, List.map_cons, List.map_nil]
        rw [first inner, second inner, Format.bind_both]
        simp [Json.itemsDepth]
    exact pair.tagged (by simp [Format.tagged, Json.record, ofJson]) fun _ => rfl
  | function arguments result =>
    have first := restores_all arguments sized.1
    have second := restores result sized.2
    have pair : Restores
        (fun nesting content => ofJson (nesting + 1) (Format.tagged "Function" content))
        (.array [.array (allToJson arguments), result.toJson]) (function arguments result) := by
      refine .opening (by rw [Json.depth]) ?_ fun inner => ?_
      · simp [Format.tagged, Json.record, ofJson]
      · -- The arguments are an array of their own, so they are a level deeper than the result.
        cases inner with
        | zero => simp [Format.tagged, Json.record, ofJson, Json.itemsDepth, Json.depth]
        | succ inner =>
          simp only [Format.tagged, Json.record, ofJson, List.map_cons, List.map_nil]
          rw [first inner, second (inner + 1), Format.bind_both]
          simp [Json.itemsDepth, Json.depth]
    exact pair.tagged (by simp [Format.tagged, Json.record, ofJson]) fun _ => rfl

theorem restores_all (sorts : List TermSort) (sized : AllSized sorts) (nesting : Nat) :
    (allToJson sorts).mapM (ofJson nesting) =
      if Json.itemsDepth (allToJson sorts) ≤ nesting then some sorts else none := by
  cases sorts with
  | nil => simp [allToJson, Json.itemsDepth]
  | cons sort rest =>
    have first := restores sort sized.1 nesting
    have others := restores_all rest sized.2 nesting
    rw [allToJson, List.mapM_cons, first, others, Format.bind_both, Json.itemsDepth]
    simp only [Nat.max_le]

end

end TermSort

namespace Literal

open Format (Restores)

def Sized : Literal → Prop
  | bitVec _ width => width < Word.halfSize
  | bool _ | int _ | real _ => True

/-- A fraction is kept as it is, reduced or not. -/
theorem restores_fraction (value : Ratio) :
    Restores fraction (.array [.ofInt value.numerator.toInt, .ofInt value.denominator.toInt])
      (real value) := by
  have kept : Ratio.ofParts? value.numerator value.denominator = some value :=
    dif_pos value.nonzero
  refine .opening (by rw [Json.depth]) rfl fun inner => ?_
  simp [fraction, Format.list, Format.descend, Format.signed_ofInt, kept, Json.itemsDepth]

/-- A vector keeps all its bits, also those above its width. -/
theorem restores_vectorFields (bits : UInt64) {width : Nat} (sized : width < Word.halfSize) :
    Restores vectorFields (.record [("value", .ofNat bits.toNat), ("width", .ofNat width)])
      (bitVec bits width) := by
  refine .opening (by rw [Json.record, Json.depth]) rfl fun inner => ?_
  have found : Format.fields ["value", "width"] (inner + 1)
      (.record [("value", .ofNat bits.toNat), ("width", .ofNat width)]) =
        some (inner, [.ofNat bits.toNat, .ofNat width]) :=
    Format.fields_record inner (show ["value", "width"].Nodup by decide)
  rw [vectorFields, found]
  simp [Format.unsigned_ofNat, Format.word32_ofNat sized, Json.membersDepth]

theorem toJson_depth (literal : Literal) : literal.toJson.depth ≤ 2 := by
  cases literal <;>
    simp [toJson, Json.depth_tagged, Json.record, Json.depth, Json.itemsDepth, Json.membersDepth]

theorem restores (literal : Literal) (sized : literal.Sized) :
    Restores ofJson literal.toJson literal := by
  cases literal with
  | bool value =>
    have leaf : Restores (fun _ => Format.boolean) (.bool value) value := .leaf rfl fun _ => rfl
    exact (leaf.map bool).tagged rfl (by simp [ofJson, Format.choice_tagged])
  | int value =>
    have leaf : Restores (fun _ => Format.signed) (.ofInt value.toInt) value :=
      .leaf rfl fun _ => Format.signed_ofInt value
    exact (leaf.map int).tagged rfl (by simp [ofJson, Format.choice_tagged])
  | real value =>
    exact (restores_fraction value).tagged rfl (by simp [ofJson, Format.choice_tagged])
  | bitVec bits width =>
    exact (restores_vectorFields bits sized).tagged rfl (by simp [ofJson, Format.choice_tagged])

end Literal

namespace Operator

open Format (Restores)

def Sized : Operator → Prop
  | constant value => value.Sized
  | bvRotateLeft amount | bvRotateRight amount | bvZeroExtend amount | bvSignExtend amount =>
    amount < Word.halfSize
  | bvExtract low high => low < Word.halfSize ∧ high < Word.halfSize
  | _ => True

theorem restores_extractFields {low high : Nat} (lowSized : low < Word.halfSize)
    (highSized : high < Word.halfSize) :
    Restores extractFields (.record [("start", .ofNat low), ("end", .ofNat high)])
      (bvExtract low high) := by
  refine .opening (by rw [Json.record, Json.depth]) rfl fun inner => ?_
  have found : Format.fields ["start", "end"] (inner + 1)
      (.record [("start", .ofNat low), ("end", .ofNat high)]) =
        some (inner, [.ofNat low, .ofNat high]) :=
    Format.fields_record inner (show ["start", "end"].Nodup by decide)
  rw [extractFields, found]
  simp [Format.word32_ofNat lowSized, Format.word32_ofNat highSized, Json.membersDepth]

theorem restores_names (bound : List String) :
    Restores (Format.list fun _ => Format.text) (names bound) bound :=
  .list fun _ _ => .leaf rfl fun _ => rfl

/-- What is written with data is decoded from the data, one level further in. -/
theorem restores_tagged {name : String} {content : Json} {operator : Operator}
    (data : bareNames.lookup name = none)
    (restores : Restores (fun nesting content => withData name content nesting) content operator) :
    Restores ofJson (Format.tagged name content) operator :=
  restores.tagged rfl fun inner => by
    rw [ofJson, Format.choice_tagged]
    simp [data]

theorem restores (operator : Operator) (sized : operator.Sized) :
    Restores ofJson operator.toJson operator := by
  cases operator with
  | symbol name | apply name =>
    exact restores_tagged (by decide) (.leaf rfl fun _ => rfl)
  | constant value =>
    apply restores_tagged (by decide)
    exact (value.restores sized).map constant
  | bvRotateLeft amount | bvRotateRight amount | bvZeroExtend amount | bvSignExtend amount =>
    have read : Format.word32 (.ofNat amount) = some amount := Format.word32_ofNat sized
    refine restores_tagged (by decide) (.leaf rfl fun _ => ?_)
    simp [withData, read]
  | bvExtract low high =>
    apply restores_tagged (by decide)
    exact restores_extractFields sized.1 sized.2
  | forAll bound =>
    apply restores_tagged (by decide)
    exact (restores_names bound).map forAll
  | «exists» bound =>
    apply restores_tagged (by decide)
    exact (restores_names bound).map «exists»
  | _ => exact .leaf rfl fun _ => rfl

end Operator

namespace NodeId

theorem ofJson_toJson (id : NodeId) : ofJson id.toJson = some id := by
  rw [ofJson, toJson, Format.word32_ofNat id.isLt, Option.map_some, ofPosition_val]

end NodeId

namespace Node

open Format (Restores)

/-- Half words are enough for the node. -/
structure Sized (node : Node) : Prop where
  operator : node.operator.Sized
  sort : node.sort.Sized

theorem restores (node : Node) (sized : node.Sized) : Restores ofJson node.toJson node := by
  have operator := node.operator.restores sized.operator
  have children : Restores (Format.list fun _ => NodeId.ofJson)
      (.array (node.children.map NodeId.toJson)) node.children :=
    .list fun child _ => .leaf rfl fun _ => child.ofJson_toJson
  have sort := node.sort.restores sized.sort
  refine .opening (by rw [toJson, Json.record, Json.depth]) rfl fun inner => ?_
  have found : Format.fields ["op", "children", "sort"] (inner + 1) node.toJson =
      some (inner, [node.operator.toJson, .array (node.children.map NodeId.toJson),
        node.sort.toJson]) :=
    Format.fields_record inner (show ["op", "children", "sort"].Nodup by decide)
  have shape : ofJson (inner + 1) node.toJson =
      (Operator.ofJson inner node.operator.toJson >>= fun operator =>
        Format.list (fun _ => NodeId.ofJson) inner (.array (node.children.map NodeId.toJson)) >>=
          fun children => TermSort.ofJson inner node.sort.toJson >>= fun sort =>
            pure ⟨operator, children, sort⟩) := by
    rw [ofJson, found]
    rfl
  rw [shape, operator inner, children inner, sort inner]
  simp only [Json.membersDepth, List.map_cons, List.map_nil, Nat.max_le, Nat.zero_le, and_true]
  by_cases first : node.operator.toJson.depth ≤ inner
  · rw [if_pos first]
    refine (Format.bind_both (Node.mk node.operator)).trans ?_
    simp only [first, true_and]
  · simp only [first, if_false, false_and]
    rfl

end Node

namespace FormulaFile

open Format (Restores)

def Sized (file : FormulaFile) : Prop := ∀ node ∈ file.nodes, node.Sized

theorem restores (file : FormulaFile) (sized : file.Sized) :
    Restores ofJson file.toJson file := by
  have nodes : Restores (Format.list Node.ofJson) (.array (file.nodes.map Node.toJson))
      file.nodes := .list fun node listed => node.restores (sized node listed)
  refine .opening (by rw [toJson, Json.record, Json.depth]) rfl fun inner => ?_
  have found : Format.fields ["nodes", "root"] (inner + 1) file.toJson =
      some (inner, [.array (file.nodes.map Node.toJson), file.root.toJson]) :=
    Format.fields_record inner (show ["nodes", "root"].Nodup by decide)
  have shape : ofJson (inner + 1) file.toJson =
      (Format.list Node.ofJson inner (.array (file.nodes.map Node.toJson)) >>= fun nodes =>
        NodeId.ofJson file.root.toJson >>= fun root => pure ⟨nodes, root⟩) := by
    rw [ofJson, found]
    rfl
  rw [shape, nodes inner, file.root.ofJson_toJson]
  by_cases within : (Json.array (file.nodes.map Node.toJson)).depth ≤ inner <;>
    simp [Json.membersDepth, within, NodeId.toJson]

end FormulaFile

namespace Row

open Format (Restores)

def Sized (row : Row) : Prop := ∀ entry ∈ row.entries, entry.2.Sized

/-- A binding after all others goes to the end. -/
theorem insertEntry_last {name : String} {value : Literal} {entries : List (String × Literal)}
    (last : ∀ entry ∈ entries, entry.1 < name) :
    insertEntry name value entries = entries ++ [(name, value)] := by
  induction entries with
  | nil => rfl
  | cons entry rest ih =>
    have below := last entry List.mem_cons_self
    have others := ih fun other listed => last other (List.mem_cons_of_mem entry listed)
    have different : name ≠ entry.1 := fun same => String.lt_irrefl _ (same ▸ below)
    rw [insertEntry, if_neg (String.lt_asymm below), if_neg different, others]
    rfl

theorem foldl_insert (bindings : List (String × Literal)) (row : Row)
    (ordered : (row.entries ++ bindings).Pairwise fun left right => left.1 < right.1) :
    (bindings.foldl (fun row binding => row.insert binding.1 binding.2) row).entries =
      row.entries ++ bindings := by
  induction bindings generalizing row with
  | nil => simp
  | cons binding rest ih =>
    have last : (row.insert binding.1 binding.2).entries = row.entries ++ [binding] :=
      insertEntry_last fun entry listed =>
        (List.pairwise_append.mp ordered).2.2 entry listed binding List.mem_cons_self
    have more := ih (row.insert binding.1 binding.2) (by rw [last]; simpa using ordered)
    rw [List.foldl_cons, more, last]
    simp

theorem ofList_entries (row : Row) : ofList row.entries = row := by
  have entries : (ofList row.entries).entries = row.entries :=
    foldl_insert row.entries empty row.ordered
  generalize ofList row.entries = made at entries
  cases made
  cases row
  cases entries
  rfl

theorem toJson_depth (row : Row) : row.toJson.depth ≤ 3 := by
  rw [toJson, Json.record, Json.depth]
  apply Nat.succ_le_succ
  simp only [Json.membersDepth_le, List.forall_mem_map]
  exact fun entry _ => entry.2.toJson_depth

theorem restores (row : Row) (sized : row.Sized) : Restores ofJson row.toJson row := by
  refine .opening (by rw [toJson, Json.record, Json.depth]) rfl fun inner => ?_
  have bindings : (row.entries.map fun entry => (some entry.1, entry.2.toJson)).mapM
      (binding inner) =
        if ∀ entry ∈ row.entries, entry.2.toJson.depth ≤ inner then some (row.entries.map id)
        else none := by
    apply Format.mapM_map
    intro entry listed
    simp only [binding, entry.2.restores (sized entry listed) inner]
    split <;> rfl
  have members : row.toJson =
      .object (row.entries.map fun entry => (some entry.1, entry.2.toJson)) := by
    simp [toJson, Json.record]
  rw [List.map_id] at bindings
  simp only [Json.membersDepth_le, List.forall_mem_map]
  have shape : ofJson (inner + 1) row.toJson =
      ((row.entries.map fun entry => (some entry.1, entry.2.toJson)).mapM (binding inner) >>=
        fun bindings => pure (ofList bindings)) := by
    rw [members]
    rfl
  rw [shape, bindings]
  split
  · exact congrArg some row.ofList_entries
  · rfl

end Row

namespace Format

theorem Restores.decodeText {α : Type} {decoder : Decoder α} {document : Json} {value : α}
    (restores : Restores decoder document value) :
    decodeText decoder document.text =
      if document.depth ≤ maxNesting then .ok value else .error .undecodable := by
  rw [Format.decodeText, Json.parse?_text]
  dsimp only
  rw [decode, restores maxNesting]
  by_cases within : document.depth ≤ maxNesting <;> simp only [within, if_true, if_false]

end Format

/-- The text of a formula file is read back as the same file, and refused only if it is nested
too deep. -/
theorem FormulaFile.decodeText_text {file : FormulaFile} (sized : file.Sized) :
    Format.decodeText ofJson file.text =
      if file.toJson.depth ≤ Format.maxNesting then .ok file else .error .undecodable :=
  (file.restores sized).decodeText

theorem Row.decodeText_text {row : Row} (sized : row.Sized) :
    Format.decodeText ofJson row.text = .ok row := by
  have within : row.toJson.depth ≤ Format.maxNesting := Nat.le_trans row.toJson_depth (by decide)
  exact (row.restores sized).decodeText.trans (if_pos within)

end Formulary
