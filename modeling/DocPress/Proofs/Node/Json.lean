import DocPress.Node.Json
import DocPress.Proofs.Json.Read
import DocPress.Proofs.Result

/-!
Reading back trees. The reader of each kind accepts the fields that the kind is written as and makes
the kind of them again; a tree is read back from its text when the text opens no more brackets at
once than the reader allows, and from a text that opens more nothing is read. A tree is written no
deeper than it was read, so whatever was read once is read back.
-/

namespace DocPress

open Json

/-! ### Single values -/

section Values

/-- A number below the bound is read back. -/
theorem readBelow_ofNat {bound n : Nat} (name : String) (below : n < bound) :
    readBelow bound name (.ofNat n) = .ok n := by
  have bounded : (n : Int) < bound := Int.ofNat_lt.2 below
  simp [readBelow, Json.ofNat, bounded]

@[simp] theorem readByte_ofNat (n : UInt8) : readByte (.ofNat n.toNat) = .ok n := by
  have bounded : n.toNat < UInt8.size := n.toNat_lt
  rw [readByte, readBelow_ofNat _ bounded]
  exact congrArg Except.ok UInt8.ofNat_toNat

@[simp] theorem readSize_ofNat (n : UInt32) : readSize (.ofNat n.toNat) = .ok n := by
  have bounded : n.toNat < UInt32.size := n.toNat_lt
  rw [readSize, readBelow_ofNat _ bounded]
  exact congrArg Except.ok UInt32.ofNat_toNat

@[simp] theorem readStart_ofNat (n : UInt64) : readStart (.ofNat n.toNat) = .ok n := by
  have bounded : n.toNat < UInt64.size := n.toNat_lt
  rw [readStart, readBelow_ofNat _ bounded]
  exact congrArg Except.ok UInt64.ofNat_toNat

@[simp] theorem readOrdinal_ofNat (n : UInt64) : readOrdinal (.ofNat n.toNat) = .ok n := by
  have bounded : n.toNat < UInt64.size := n.toNat_lt
  rw [readOrdinal, readBelow_ofNat _ bounded]
  exact congrArg Except.ok UInt64.ofNat_toNat

@[simp] theorem readString_string (text : String) : readString (.string text) = .ok text := rfl

@[simp] theorem readBool_bool (b : Bool) : readBool (.bool b) = .ok b := rfl

@[simp] theorem ofNat_ne_null (n : Nat) : Json.ofNat n ≠ .null := by
  simp [Json.ofNat]

@[simp] theorem readAlign_keyword (align : Align) :
    readAlign (.string align.keyword) = .ok align := by
  cases align <;> rfl

/-- A value that is not null is read by the reader for values. -/
theorem readOptional_of_ne {α : Type} {read : Json → Except ShapeError α} {value : Json}
    (present : value ≠ .null) : readOptional read value = (read value).map some := by
  cases value <;> first | rfl | exact absurd rfl present

/-- A step that succeeds hands its value on. -/
@[simp] theorem ok_bind {α β ε : Type} (value : α) (next : α → Except ε β) :
    (Except.ok value >>= next) = next value := rfl

@[simp] theorem map_ok {α β ε : Type} (f : α → β) (value : α) :
    (Except.ok value : Except ε α).map f = .ok (f value) := rfl

@[simp] theorem pure_eq_ok {α ε : Type} (value : α) : (pure value : Except ε α) = .ok value := rfl

/-- A list is read back when its items are. -/
theorem mapM_map {α β : Type} {ε : Type} (read : β → Except ε α) (write : α → β)
    (inverse : ∀ value, read (write value) = .ok value) (values : List α) :
    (values.map write).mapM read = .ok values := by
  induction values with
  | nil => rfl
  | cons value rest ih => simp [inverse, ih]

/-- An alignment is read back, also where there is none. -/
theorem readOptional_alignJson (align : Option Align) :
    readOptional readAlign (alignJson align) = .ok align := by
  cases align with
  | none => rfl
  | some align => exact congrArg (Except.map some) (readAlign_keyword align)

@[simp] theorem readList_alignments (alignments : List (Option Align)) :
    readList (readOptional readAlign) (.array (alignments.map alignJson)) = .ok alignments :=
  mapM_map (readOptional readAlign) alignJson readOptional_alignJson alignments

/-- The attributes of a custom node are read back. -/
@[simp] theorem readAttributes_entries (attributes : Attributes) :
    readAttributes (.object (attributes.entries.map fun entry => (entry.1, .string entry.2))) =
      .ok attributes := by
  have entries : (attributes.entries.map fun entry => (entry.1, Json.string entry.2)).mapM
      (fun field : String × Json => return (field.1, ← readString field.2)) =
        (.ok attributes.entries : Except ShapeError (List (String × String))) :=
    mapM_map _ (fun entry => (entry.1, Json.string entry.2)) (fun entry => rfl) attributes.entries
  rw [readAttributes, entries]
  exact congrArg Except.ok (Catalog.ofList_entries attributes)

theorem mem_of_required {α : Type} {name : String} {read : Json → Except ShapeError α}
    {fields : List (String × Json)} {value : α} (found : required name read fields = .ok value) :
    ∃ field ∈ fields, read field.2 = .ok value := by
  rw [required] at found
  split at found
  · next key written here => exact ⟨_, List.mem_of_find?_eq_some here, found⟩
  · cases found

theorem mem_of_defaulted {α : Type} {name : String} {default : α}
    {read : Json → Except ShapeError α} {fields : List (String × Json)} {value : α}
    (found : defaulted name default read fields = .ok value) :
    value = default ∨ ∃ field ∈ fields, read field.2 = .ok value := by
  rw [defaulted] at found
  split at found
  · next key written here => exact .inr ⟨_, List.mem_of_find?_eq_some here, found⟩
  · exact .inl (Except.ok.inj found).symm

/-- What is read as a list has a level of brackets. -/
theorem depth_of_readList {α : Type} {read : Json → Except ShapeError α} {value : Json}
    {items : List α} (done : readList read value = .ok items) : 1 ≤ value.depth := by
  cases value with
  | array items => exact Nat.le_add_left 1 _
  | _ => cases done

/-- What is read as attributes has a level of brackets. -/
theorem depth_of_readAttributes {value : Json} {attributes : Attributes}
    (done : readAttributes value = .ok attributes) : 1 ≤ value.depth := by
  cases value with
  | object fields => exact Nat.le_add_left 1 _
  | _ => cases done

end Values

/-! ### Kinds -/

/-- Whether a reader accepts the fields that a kind is written as and makes the kind of them. -/
def KindReader.Reads (reader : KindReader) (kind : NodeKind) : Prop :=
  checkFields reader.checks [] kind.fields = .ok () ∧ reader.make kind.fields = .ok kind

namespace NodeKind

section Readers

attribute [local simp] fields optionalField nonemptyField KindReader.target KindReader.numbered
  checkFields checked required defaulted readOptional_of_ne

/-- The reader that belongs to the name of a kind reads the kind. -/
theorem exists_reader (kind : NodeKind) :
    ∃ reader, reader? kind.name = some reader ∧ reader.Reads kind := by
  cases kind with
  | heading level id => refine ⟨_, rfl, ?_, ?_⟩ <;> cases id <;> simp
  | codeBlock language info code =>
      refine ⟨_, rfl, ?_, ?_⟩ <;> cases language <;> cases info <;> simp
  | codeBlockWithTitle title language code =>
      refine ⟨_, rfl, ?_, ?_⟩ <;> cases language <;> simp
  | image url title =>
      refine ⟨_, rfl, ?_, ?_⟩ <;> by_cases untitled : title = "" <;> simp [untitled]
  | imageComponent url alt width height =>
      refine ⟨_, rfl, ?_, ?_⟩ <;> cases width <;> cases height <;> simp
  | link url title =>
      refine ⟨_, rfl, ?_, ?_⟩ <;> by_cases untitled : title = "" <;> simp [untitled]
  | list ordered start => refine ⟨_, rfl, ?_, ?_⟩ <;> cases start <;> simp
  | listItem checked => refine ⟨_, rfl, ?_, ?_⟩ <;> cases checked <;> simp
  | table alignments => refine ⟨_, rfl, ?_, ?_⟩ <;> simp
  | tableCell header align => refine ⟨_, rfl, ?_, ?_⟩ <;> cases align <;> simp
  | footnoteCrossReference label ordinal => refine ⟨_, rfl, ?_, ?_⟩ <;> simp
  | footnoteItem label ordinal => refine ⟨_, rfl, ?_, ?_⟩ <;> simp
  | «section» depth => refine ⟨_, rfl, ?_, ?_⟩ <;> simp
  | custom name attributes =>
      by_cases bare : attributes.isEmpty = true
      · obtain rfl : attributes = .empty := Catalog.eq_of_entries (List.isEmpty_iff.1 bare)
        exact ⟨_, rfl, rfl, rfl⟩
      · refine ⟨_, rfl, ?_, ?_⟩ <;> simp [bare]
  | _ => exact ⟨_, rfl, rfl, rfl⟩

end Readers

/-- Whether a field can be told from the name and the children of a node, and its value is read back
as it was written. -/
structure IsAttribute (field : String × Json) : Prop where
  notType : field.1 ≠ "type"
  notChildren : field.1 ≠ "children"
  readable : IsReadable field.2

theorem isAttribute_string {name text : String} (notType : name ≠ "type")
    (notChildren : name ≠ "children") : IsAttribute (name, .string text) :=
  ⟨notType, notChildren, trivial⟩

theorem isAttribute_bool {name : String} {b : Bool} (notType : name ≠ "type")
    (notChildren : name ≠ "children") : IsAttribute (name, .bool b) :=
  ⟨notType, notChildren, trivial⟩

theorem isAttribute_word {name : String} {n : UInt64} (notType : name ≠ "type")
    (notChildren : name ≠ "children") : IsAttribute (name, .ofNat n.toNat) :=
  ⟨notType, notChildren, isReadable_ofNat n.toNat_lt⟩

theorem isAttribute_size {name : String} {n : UInt32} (notType : name ≠ "type")
    (notChildren : name ≠ "children") : IsAttribute (name, .ofNat n.toNat) :=
  ⟨notType, notChildren, isReadable_ofNat (Nat.lt_trans n.toNat_lt (by decide))⟩

theorem isAttribute_byte {name : String} {n : UInt8} (notType : name ≠ "type")
    (notChildren : name ≠ "children") : IsAttribute (name, .ofNat n.toNat) :=
  ⟨notType, notChildren, isReadable_ofNat (Nat.lt_trans n.toNat_lt (by decide))⟩

/-- The alignments of a table are written as an attribute. -/
theorem isAttribute_alignments (alignments : List (Option Align)) :
    IsAttribute ("alignments", .array (alignments.map alignJson)) := by
  have flat : ∀ item ∈ alignments.map alignJson, IsReadable item := by
    intro item member
    obtain ⟨align, -, rfl⟩ := List.mem_map.1 member
    cases align <;> trivial
  exact ⟨by simp, by simp, areReadable_iff.2 flat⟩

/-- The attributes of a custom node are written as an attribute. -/
theorem isAttribute_attributes (attributes : Attributes) :
    IsAttribute ("attributes",
      .object (attributes.entries.map fun entry => (entry.1, .string entry.2))) := by
  have texts : ∀ field ∈ attributes.entries.map fun entry => (entry.1, Json.string entry.2),
      IsReadable field.2 := by
    intro field member
    obtain ⟨entry, -, rfl⟩ := List.mem_map.1 member
    trivial
  exact ⟨by simp, by simp, areReadableFields_iff.2 texts⟩

section Fields

attribute [local simp] fields optionalField nonemptyField isAttribute_string isAttribute_bool
  isAttribute_word isAttribute_size isAttribute_byte isAttribute_alignments

/-- The fields of a kind are attributes. -/
theorem isAttribute_of_mem_fields (kind : NodeKind) : ∀ field ∈ kind.fields, IsAttribute field := by
  cases kind with
  | heading level id => cases id <;> simp
  | codeBlock language info code => cases language <;> cases info <;> simp
  | codeBlockWithTitle title language code => cases language <;> simp
  | image url title => by_cases untitled : title = "" <;> simp [untitled]
  | imageComponent url alt width height => cases width <;> cases height <;> simp
  | link url title => by_cases untitled : title = "" <;> simp [untitled]
  | list ordered start => cases start <;> simp
  | listItem checked => cases checked <;> simp
  | tableCell header align => cases align <;> simp
  | custom name attributes =>
      by_cases bare : attributes.isEmpty = true
      · simp [bare]
      · simpa [bare] using isAttribute_attributes attributes
  | _ => simp

end Fields

/-- Fields other than that of the type are left when the type is known. -/
theorem splitType_of_forall_ne {name : String} {fields : List (String × Json)}
    (others : ∀ field ∈ fields, field.1 ≠ "type") :
    splitType (some name) fields = .ok (name, fields) := by
  induction fields with
  | nil => rfl
  | cons field fields ih =>
      have here := others field List.mem_cons_self
      have behind := ih fun other member => others other (List.mem_cons_of_mem _ member)
      rw [splitType, if_neg here, behind]
      rfl

/-- A kind is read back from its name and its fields. -/
theorem ofFields_fields (kind : NodeKind) :
    ofFields (("type", .string kind.name) :: kind.fields) = .ok kind := by
  obtain ⟨reader, known, accepts, makes⟩ := exists_reader kind
  have named : readName (.string kind.name) = .ok kind.name := by
    cases kind <;> rfl
  have split : splitType none (("type", .string kind.name) :: kind.fields) =
      .ok (kind.name, kind.fields) := by
    rw [splitType, if_pos rfl]
    simp only [named, ok_bind]
    exact splitType_of_forall_ne fun field member =>
      (isAttribute_of_mem_fields kind field member).notType
  rw [ofFields, split]
  simp only [ok_bind, known, accepts, makes]

/-! ### Depth of kinds -/

/-- Whether a step gives a kind with the name, if it gives one. -/
def Gives (name : String) (step : Except ShapeError NodeKind) : Prop :=
  ∀ kind, step = .ok kind → kind.name = name

/-- A kind with the name is what the name gives. -/
theorem gives_ok {name : String} {kind : NodeKind} (same : kind.name = name) :
    Gives name (.ok kind) := by
  intro other made
  exact Except.ok.inj made ▸ same

/-- A step gives a kind with the name if what follows it does. -/
theorem gives_bind {α : Type} {name : String} {first : Except ShapeError α}
    {next : α → Except ShapeError NodeKind} (each : ∀ value, Gives name (next value)) :
    Gives name (first >>= next) := by
  intro kind made
  obtain ⟨value, -, made⟩ := bind_eq_ok_iff.1 made
  exact each value kind made

/-- The reader that belongs to a name makes kinds of this name. -/
theorem name_of_reader? {name : String} {reader : KindReader} (known : reader? name = some reader)
    (fields : List (String × Json)) : Gives name (reader.make fields) := by
  unfold reader? at known
  split at known
  case h_38 => cases known
  all_goals
    obtain rfl := Option.some.inj known
    repeat refine gives_bind fun _ => ?_
    exact gives_ok rfl

/-- Only the fields of tables and of custom nodes have brackets in them. -/
theorem depthFields_fields {kind : NodeKind} (noTable : ∀ alignments, kind ≠ .table alignments)
    (noCustom : ∀ name attributes, kind ≠ .custom name attributes) : depthFields kind.fields = 0 := by
  cases kind with
  | heading level id => cases id <;> rfl
  | codeBlock language info code => cases language <;> cases info <;> rfl
  | codeBlockWithTitle title language code => cases language <;> rfl
  | image url title => by_cases untitled : title = "" <;> simp [fields, nonemptyField, untitled, depthFields, depth]
  | imageComponent url alt width height => cases width <;> cases height <;> rfl
  | link url title => by_cases untitled : title = "" <;> simp [fields, nonemptyField, untitled, depthFields, depth]
  | list ordered start => cases start <;> rfl
  | listItem checked => cases checked <;> rfl
  | table alignments => exact absurd rfl (noTable alignments)
  | tableCell header align => cases align <;> rfl
  | custom name attributes => exact absurd rfl (noCustom name attributes)
  | _ => rfl

/-- The fields of a kind have one level of brackets at most. -/
theorem depthFields_fields_le (kind : NodeKind) : depthFields kind.fields ≤ 1 := by
  cases kind with
  | table alignments =>
      have flat : depthAll (alignments.map alignJson) ≤ 0 := by
        apply depthAll_le
        intro item member
        obtain ⟨align, -, rfl⟩ := List.mem_map.1 member
        cases align <;> exact Nat.zero_le 0
      exact Nat.max_le.2 ⟨Nat.succ_le_succ flat, Nat.zero_le 1⟩
  | custom name attributes =>
      rw [fields]
      split
      · exact Nat.zero_le 1
      · have flat : depthFields (attributes.entries.map fun e => (e.1, .string e.2)) ≤ 0 := by
          apply depthFields_le
          intro field member
          obtain ⟨entry, -, rfl⟩ := List.mem_map.1 member
          exact Nat.zero_le 0
        exact Nat.max_le.2 ⟨Nat.zero_le 1, Nat.max_le.2 ⟨Nat.succ_le_succ flat, Nat.zero_le 1⟩⟩
  | _ => exact Nat.le_trans (Nat.le_of_eq (depthFields_fields (by simp) (by simp))) (Nat.zero_le 1)

/-- Kinds that are read are written with no more brackets than they were read from. -/
theorem depthFields_of_make {name : String} {reader : KindReader}
    (known : reader? name = some reader) {fields : List (String × Json)} {kind : NodeKind}
    (made : reader.make fields = .ok kind) : depthFields kind.fields ≤ depthFields fields := by
  obtain rfl := name_of_reader? known fields kind made
  by_cases table : ∃ alignments, kind = .table alignments
  · obtain ⟨alignments, rfl⟩ := table
    obtain rfl := Option.some.inj known
    obtain ⟨_, found, same⟩ := bind_eq_ok_iff.1 made
    obtain ⟨field, member, read⟩ := mem_of_required found
    exact Nat.le_trans (depthFields_fields_le _)
      (Nat.le_trans (depth_of_readList read) (depth_le_depthFields member))
  · by_cases custom : ∃ name attributes, kind = .custom name attributes
    · obtain ⟨name, attributes, rfl⟩ := custom
      obtain rfl := Option.some.inj known
      obtain ⟨_, -, made⟩ := bind_eq_ok_iff.1 made
      obtain ⟨_, found, same⟩ := bind_eq_ok_iff.1 made
      obtain ⟨rfl, rfl⟩ := NodeKind.custom.inj (pure_eq_ok_iff.1 same)
      rcases mem_of_defaulted found with rfl | ⟨field, member, read⟩
      · exact Nat.zero_le _
      · exact Nat.le_trans (depthFields_fields_le _)
          (Nat.le_trans (depth_of_readAttributes read) (depth_le_depthFields member))
    · rw [depthFields_fields (fun alignments same => table ⟨alignments, same⟩)
        fun name attributes same => custom ⟨name, attributes, same⟩]
      exact Nat.zero_le _

/-- The fields that are left behind the type are no deeper than all of them. -/
theorem depthFields_of_splitType {named : Option String} {name : String}
    {fields others : List (String × Json)} (split : splitType named fields = .ok (name, others)) :
    depthFields others ≤ depthFields fields := by
  induction fields generalizing named name others with
  | nil =>
      cases named with
      | none => cases split
      | some own =>
        obtain ⟨rfl, rfl⟩ := Prod.mk.inj (Except.ok.inj split)
        exact Nat.le_refl _
  | cons field fields ih =>
      obtain ⟨key, value⟩ := field
      unfold splitType at split
      split at split
      · cases named with
        | some own => cases split
        | none =>
          obtain ⟨own, -, behind⟩ := bind_eq_ok_iff.1 split
          exact Nat.le_trans (ih behind) (Nat.le_max_right _ _)
      · obtain ⟨⟨own, left⟩, behind, same⟩ := bind_eq_ok_iff.1 split
        obtain ⟨rfl, rfl⟩ := Prod.mk.inj (Except.ok.inj same)
        rw [depthFields, depthFields]
        exact Nat.max_le.2 ⟨Nat.le_max_left _ _, Nat.le_trans (ih behind) (Nat.le_max_right _ _)⟩

/-- A kind is written with no deeper fields than it is read from. -/
theorem depthFields_of_ofFields {fields : List (String × Json)} {kind : NodeKind}
    (read : ofFields fields = .ok kind) : depthFields kind.fields ≤ depthFields fields := by
  obtain ⟨⟨name, others⟩, split, made⟩ := bind_eq_ok_iff.1 read
  dsimp only at made
  split at made
  · cases made
  · next reader known =>
    obtain ⟨_, -, made⟩ := bind_eq_ok_iff.1 made
    exact Nat.le_trans (depthFields_of_make known made) (depthFields_of_splitType split)

end NodeKind

/-! ### Trees -/

namespace Node

/-- The field with the children of a node, left out when there are none. -/
def childrenField : List Node → List (String × Json)
  | [] => []
  | child :: rest => [("children", .array (child.toJson :: toJsons rest))]

theorem toJson_mk (kind : NodeKind) (children : List Node) :
    (Node.mk kind children).toJson =
      .object ((("type", .string kind.name) :: kind.fields) ++ childrenField children) := by
  cases children <;> simp [toJson, childrenField]

mutual

/-- The numbers in a tree are whole and fit in 64 bits. -/
theorem isReadable_toJson : ∀ node : Node, IsReadable node.toJson
  | ⟨kind, children⟩ => by
      rw [toJson_mk, IsReadable, areReadableFields_iff, List.forall_mem_append,
        List.forall_mem_cons]
      refine ⟨⟨trivial, fun field member => ?_⟩, ?_⟩
      · exact (NodeKind.isAttribute_of_mem_fields kind field member).readable
      · cases children with
        | nil => simp [childrenField]
        | cons child rest =>
            intro field member
            obtain rfl := List.mem_singleton.1 member
            exact ⟨isReadable_toJson child, areReadable_toJsons rest⟩

theorem areReadable_toJsons : ∀ nodes : List Node, AreReadable (toJsons nodes)
  | [] => trivial
  | node :: rest => ⟨isReadable_toJson node, areReadable_toJsons rest⟩

end

/-- Fields that are not the children of a node are read as they stand. -/
theorem readNodeFields_append {fields more : List (String × Json)}
    (plain : ∀ field ∈ fields, field.1 ≠ "children") :
    ∀ {parts : List (String × Place × Located)}, ShowsFields (fields ++ more) parts →
      ∃ behind, ShowsFields more behind ∧ readNodeFields parts none =
        (readNodeFields behind none).map fun read => (fields ++ read.1, read.2) := by
  induction fields with
  | nil =>
      intro parts shows
      refine ⟨parts, shows, ?_⟩
      cases readNodeFields parts none <;> rfl
  | cons field fields ih =>
      rintro parts ⟨place, first, others, rfl, here, left⟩
      have notChildren := plain field List.mem_cons_self
      obtain ⟨behind, shows, read⟩ :=
        ih (fun other member => plain other (List.mem_cons_of_mem _ member)) left
      refine ⟨behind, shows, ?_⟩
      have erased : eraseField first = .ok field.2 := by
        rw [eraseField, here.unplaced]
      rw [readNodeFields, if_neg notChildren, erased, read]
      cases readNodeFields behind none <;> rfl

mutual

/-- A tree is read from the value that it is written as. -/
theorem ofLocated_of_shows : ∀ {node : Node} {located : Located}, Shows node.toJson located →
    ofLocated located = .ok node
  | ⟨kind, nodes⟩, located, shows => by
      rw [toJson_mk] at shows
      obtain ⟨start, parts, close, rfl, inner⟩ := shows
      have plain : ∀ field ∈ ("type", Json.string kind.name) :: kind.fields,
          field.1 ≠ "children" :=
        List.forall_mem_cons.2 ⟨by simp, fun field member =>
          (NodeKind.isAttribute_of_mem_fields kind field member).notChildren⟩
      obtain ⟨behind, left, read⟩ := readNodeFields_append plain inner
      have children : (readNodeFields behind none) =
          .ok ([], if nodes.isEmpty then none else some nodes) := by
        cases nodes with
        | nil =>
            obtain rfl : behind = [] := left
            rfl
        | cons child rest =>
            obtain ⟨place, part, others, rfl, shown, rfl⟩ := left
            obtain ⟨start, items, close, rfl, all⟩ := shown
            have below : readChildren (.array start items (.ok close)) = .ok (child :: rest) := by
              have trees : ofLocateds items = .ok (child :: rest) := ofLocateds_of_shows all
              rw [readChildren, trees]
              rfl
            rw [readNodeFields, if_pos rfl, below]
            rfl
      have made := NodeKind.ofFields_fields kind
      rw [ofLocated, read, children]
      simp only [map_ok, ok_bind, closed, List.append_nil, made, atPlace, pure_eq_ok]
      cases nodes <;> rfl

/-- Nodes are read back from what shows their JSON. -/
theorem ofLocateds_of_shows : ∀ {nodes : List Node} {parts : List Located},
    ShowsAll (toJsons nodes) parts → ofLocateds parts = .ok nodes
  | [], _, same => by
      rw [show _ = [] from same]
      rfl
  | node :: rest, _, ⟨first, others, same, here, behind⟩ => by
      rw [same, ofLocateds, ofLocated_of_shows here, ofLocateds_of_shows behind]
      rfl

end

/-- No tree is read from a value that broke off. -/
theorem exists_error_of_isCut {located : Located} (cut : located.isCut = true) :
    ∃ reason, ofLocated located = .error reason := by
  cases located with
  | scalar value stop => exact absurd cut (by simp [Located.isCut])
  | array start items close => exact ⟨_, rfl⟩
  | broken reason => exact ⟨_, rfl⟩
  | object start fields close =>
      cases close with
      | ok place => exact absurd cut (by simp [Located.isCut])
      | error reason =>
          cases read : readNodeFields fields none with
          | error fault => exact ⟨fault, by rw [ofLocated, read]; rfl⟩
          | ok parts => exact ⟨.text reason, by rw [ofLocated, read]; rfl⟩

/-- A tree is read back from its text when the text opens no more brackets at once than the reader
allows; from any other text of a tree nothing is read. -/
theorem parse_write (node : Node) :
    if node.toJson.depth ≤ usualDepth then parse node.write = .ok node
    else ∃ reason, parse node.write = .error reason := by
  have located := locate_chars (isReadable_toJson node) usualDepth
  have text : node.write.toList = node.toJson.chars := String.toList_ofList
  rcases read : locate usualDepth node.toJson.chars with ⟨value, trailing⟩
  rw [read] at located
  by_cases shallow : node.toJson.depth ≤ usualDepth
  · rw [if_pos shallow] at located ⊢
    obtain ⟨shows, rfl⟩ := located
    rw [parse, text, read]
    simp only [ofLocated_of_shows shows, ok_bind]
    rfl
  · rw [if_neg shallow] at located ⊢
    obtain ⟨reason, failed⟩ := exists_error_of_isCut located
    refine ⟨reason, ?_⟩
    rw [parse, text, read]
    simp only [failed]
    rfl

/-! ### Depth of trees -/

theorem atPlace_eq_ok_iff {α : Type} {place : Place} {step : Except ShapeError α} {value : α} :
    atPlace place step = .ok value ↔ step = .ok value := by
  cases step <;> simp [atPlace]

/-- Forgetting places does not change what a field with places is. -/
theorem unplaced_of_eraseField {located : Located} {value : Json}
    (erased : eraseField located = .ok value) : located.unplaced = .ok value := by
  rw [eraseField] at erased
  split at erased
  · next same => rw [same, Except.ok.inj erased]
  · cases erased

/-- A written node is one level deeper than its fields and its children. -/
theorem depth_toJson (kind : NodeKind) (children : List Node) :
    (Node.mk kind children).toJson.depth =
      max (depthFields kind.fields) (depthFields (childrenField children)) + 1 := by
  rw [toJson_mk, depth, List.cons_append, depthFields, depthFields_append]
  exact congrArg (· + 1) (Nat.zero_max _)

/-- The field for the children is one level deeper than they are. -/
theorem depthFields_childrenField_le (children : List Node) :
    depthFields (childrenField children) ≤ depthAll (toJsons children) + 1 := by
  cases children with
  | nil => exact Nat.zero_le _
  | cons child rest => exact Nat.max_le.2 ⟨Nat.le_refl _, Nat.zero_le _⟩

mutual

/-- A tree is written no deeper than it was read. -/
theorem depth_of_ofLocated : ∀ {located : Located} {node : Node},
    ofLocated located = .ok node → node.toJson.depth ≤ located.depth
  | .object _ parts _, node, read => by
      obtain ⟨⟨others, children⟩, fields, read⟩ := bind_eq_ok_iff.1 read
      obtain ⟨stop, -, read⟩ := bind_eq_ok_iff.1 read
      obtain ⟨kind, made, same⟩ := bind_eq_ok_iff.1 read
      obtain rfl := pure_eq_ok_iff.1 same
      obtain ⟨own, below⟩ := depth_of_readNodeFields fields
      have kept := NodeKind.depthFields_of_ofFields (atPlace_eq_ok_iff.1 made)
      have nested : depthFields (childrenField (children.getD [])) ≤ fieldsDepth parts := by
        rcases below with rfl | ⟨nodes, rfl, deep⟩
        · exact Nat.zero_le _
        · exact Nat.le_trans (depthFields_childrenField_le nodes) deep
      rw [depth_toJson, Located.depth]
      exact Nat.succ_le_succ (Nat.max_le.2 ⟨Nat.le_trans kept own, nested⟩)
  | .array _ _ _, _, read | .scalar _ _, _, read | .broken _, _, read => by cases read

/-- The other fields of a node are as deep as they are in the text, and so are the children. -/
theorem depth_of_readNodeFields : ∀ {parts : List (String × Place × Located)}
    {before after : Option (List Node)} {others : List (String × Json)},
    readNodeFields parts before = .ok (others, after) →
    depthFields others ≤ fieldsDepth parts ∧
      (after = before ∨
        ∃ nodes, after = some nodes ∧ depthAll (toJsons nodes) + 1 ≤ fieldsDepth parts)
  | [], _, _, _, read => by
      obtain ⟨rfl, rfl⟩ := Prod.mk.inj (Except.ok.inj read)
      exact ⟨Nat.le_refl _, .inl rfl⟩
  | (key, place, value) :: parts, before, after, others, read => by
      unfold readNodeFields at read
      rw [fieldsDepth]
      split at read
      · cases before with
        | some nodes => cases read
        | none =>
            obtain ⟨nodes, children, read⟩ := bind_eq_ok_iff.1 read
            have here := depth_of_readChildren children
            obtain ⟨own, below⟩ := depth_of_readNodeFields read
            refine ⟨Nat.le_trans own (Nat.le_max_right _ _), .inr ?_⟩
            rcases below with rfl | ⟨later, rfl, deep⟩
            · exact ⟨nodes, rfl, Nat.le_trans here (Nat.le_max_left _ _)⟩
            · exact ⟨later, rfl, Nat.le_trans deep (Nat.le_max_right _ _)⟩
      · obtain ⟨plain, erased, more⟩ := bind_eq_ok_iff.1 read
        obtain ⟨⟨left, kids⟩, rest, same⟩ := bind_eq_ok_iff.1 more
        obtain ⟨rfl, rfl⟩ := Prod.mk.inj (pure_eq_ok_iff.1 same)
        have here := depth_of_unplaced (unplaced_of_eraseField erased)
        obtain ⟨own, below⟩ := depth_of_readNodeFields rest
        rw [depthFields, here]
        refine ⟨Nat.max_le.2 ⟨Nat.le_max_left _ _, Nat.le_trans own (Nat.le_max_right _ _)⟩, ?_⟩
        rcases below with rfl | ⟨later, rfl, deep⟩
        · exact .inl rfl
        · exact .inr ⟨later, rfl, Nat.le_trans deep (Nat.le_max_right _ _)⟩

/-- Children that are read are written with no more brackets than they were read from. -/
theorem depth_of_readChildren : ∀ {located : Located} {nodes : List Node},
    readChildren located = .ok nodes → depthAll (toJsons nodes) + 1 ≤ located.depth
  | .array _ items _, nodes, read => by
      obtain ⟨trees, inner, more⟩ := bind_eq_ok_iff.1 read
      obtain ⟨_, -, same⟩ := bind_eq_ok_iff.1 more
      obtain rfl := pure_eq_ok_iff.1 same
      exact Nat.succ_le_succ (depthAll_of_ofLocateds inner)
  | .object _ _ _, _, read | .scalar _ _, _, read | .broken _, _, read => by cases read

/-- Items that are read are written with no more brackets than they were read from. -/
theorem depthAll_of_ofLocateds : ∀ {items : List Located} {nodes : List Node},
    ofLocateds items = .ok nodes → depthAll (toJsons nodes) ≤ itemsDepth items
  | [], _, read => by
      obtain rfl := Except.ok.inj read
      exact Nat.zero_le _
  | item :: items, _, read => by
      obtain ⟨first, here, read⟩ := bind_eq_ok_iff.1 read
      obtain ⟨rest, behind, same⟩ := bind_eq_ok_iff.1 read
      obtain rfl := pure_eq_ok_iff.1 same
      have front := depth_of_ofLocated here
      have back := depthAll_of_ofLocateds behind
      exact Nat.max_le.2 ⟨Nat.le_trans front (Nat.le_max_left _ _),
        Nat.le_trans back (Nat.le_max_right _ _)⟩

end

/-- A tree that was read from a text opens no more brackets at once than the reader allows. -/
theorem depth_of_parse {text : String} {node : Node} (read : parse text = .ok node) :
    node.toJson.depth ≤ usualDepth := by
  rw [parse] at read
  have within := depth_locate_le usualDepth text.toList
  rcases located : locate usualDepth text.toList with ⟨value, trailing⟩
  rw [located] at read within
  obtain ⟨tree, made, same⟩ := bind_eq_ok_iff.1 read
  cases trailing with
  | some reason => cases same
  | none =>
      obtain rfl := Except.ok.inj same
      exact Nat.le_trans (depth_of_ofLocated made) within

/-- Every tree whose JSON opens no more brackets at once than the reader allows is read back from its
text, and so is every tree that was read from any text. -/
theorem reads_back :
    (∀ node : Node, node.toJson.depth ≤ 127 → parse node.write = .ok node) ∧
      ∀ (text : String) (node : Node), parse text = .ok node → parse node.write = .ok node := by
  have shallow : ∀ node : Node, node.toJson.depth ≤ 127 → parse node.write = .ok node := by
    intro node within
    have written := parse_write node
    rwa [if_pos (show node.toJson.depth ≤ usualDepth from within)] at written
  refine ⟨shallow, ?_⟩
  intro text node read
  exact shallow node (depth_of_parse read)

/-- A tree with a column that has no alignment, an empty title, a start number, no check mark, and a
custom node with and one without attributes. -/
def sampler : Node :=
  ⟨.document,
    [⟨.table [some .left, none], []⟩, ⟨.image "a.png" "", []⟩,
      ⟨.list true (some 3), [⟨.listItem none, [.leaf (.text "\"é\n")]⟩]⟩,
      ⟨.custom "note" (.ofList [("k", "v")]), []⟩, ⟨.custom "note" .empty, []⟩]⟩

/-- A text with children in front of the kind, the kind by its number, a key that is not known twice,
and a title that is left out. -/
def looseText : String :=
  "\x7b\"children\":[\x7b\"seen\":[\x7b\x7d],\"url\":\"/\",\"seen\":1,\"type\":\"link\"\x7d], \"type\":0\x7d"

/-- The sample is read back, and so is a text with a field that is not known and one that is left out. -/
theorem reads_back_sampler :
    sampler.toJson.depth ≤ 127 ∧ parse sampler.write = .ok sampler ∧
      parse looseText = .ok ⟨.document, [⟨.link "/" "", []⟩]⟩ ∧
      parse (Node.mk .document [⟨.link "/" "", []⟩]).write =
        .ok ⟨.document, [⟨.link "/" "", []⟩]⟩ := by
  have shallow : sampler.toJson.depth ≤ 127 := by decide +kernel
  have read : parse looseText = .ok ⟨.document, [⟨.link "/" "", []⟩]⟩ :=
    toOption_eq_some_iff.1 (by decide +kernel)
  exact ⟨shallow, reads_back.1 sampler shallow, read, reads_back.2 looseText _ read⟩

end Node
end DocPress
