import DocPress.Markdown.Event

/-!
How the events of a document are nested. Every element that starts ends where it should, and what is
directly in a table is its head and its rows.
-/

namespace DocPress.Markdown

/-- Whether an element is the head or a row of a table. -/
def Tag.isTablePart : Tag → Bool
  | .tableHead | .tableRow => true
  | _ => false

/-- Whether an element belongs to a syntax that the documents read here do not have. -/
def Tag.isExtension : Tag → Bool
  | .metadataBlock _ | .definitionList | .definitionTitle | .definitionDetails | .superscript
  | .subscript => true
  | _ => false

/-- Whether the innermost one of open elements is a table. -/
def inTable : List Tag → Bool
  | .table _ :: _ => true
  | _ => false

/-- The open elements after an event, innermost one first. There are none if the event may not stand
here: it ends another element than the innermost one, or is no part of the table that it is in. -/
def Event.nest? (stack : List Tag) : Event → Option (List Tag)
  | .start tag => if inTable stack && !tag.isTablePart then none else some (tag :: stack)
  | .stop tag => if stack.head? = some tag then some stack.tail else none
  | _ => if inTable stack then none else some stack

/-- The open elements after events in order. -/
def nestAll? : List Tag → List Event → Option (List Tag)
  | stack, [] => some stack
  | stack, event :: rest => (event.nest? stack).bind fun stack => nestAll? stack rest

/-- Whether events make up whole elements that may stand in any element but a table. -/
def IsNested (events : List Event) : Prop :=
  ∀ stack, inTable stack = false → nestAll? stack events = some stack

variable {first second content : List Event} {stack : List Tag} {tag : Tag}

theorem nestAll?_append (stack : List Tag) (first second : List Event) :
    nestAll? stack (first ++ second) =
      (nestAll? stack first).bind fun stack => nestAll? stack second := by
  induction first generalizing stack with
  | nil => rfl
  | cons event rest ih =>
      rw [List.cons_append, nestAll?, nestAll?, Option.bind_assoc]
      simp only [ih]

theorem isNested_nil : IsNested [] :=
  fun _ _ => rfl

theorem IsNested.append (head : IsNested first) (tail : IsNested second) :
    IsNested (first ++ second) := by
  intro stack free
  rw [nestAll?_append, head stack free]
  exact tail stack free

/-- Whether an event is neither the start nor the end of an element. -/
def Event.isLeaf : Event → Bool
  | .start _ | .stop _ => false
  | _ => true

theorem nest?_leaf {event : Event} (leaf : event.isLeaf = true) (stack : List Tag) :
    event.nest? stack = if inTable stack then none else some stack := by
  cases event <;> first | rfl | cases leaf

/-- An event that is neither a start nor an end stands where nothing may be only in a table. -/
theorem outside_of_nest? {event : Event} {after : List Tag} (leaf : event.isLeaf = true)
    (nested : event.nest? stack = some after) : inTable stack = false ∧ after = stack := by
  rw [nest?_leaf leaf] at nested
  split at nested
  · cases nested
  · next free => exact ⟨Bool.eq_false_iff.2 free, (Option.some.inj nested).symm⟩

/-- In a table only its parts may start. -/
theorem nest?_start_eq_some_iff {tag : Tag} {after : List Tag} :
    (Event.start tag).nest? stack = some after ↔
      (inTable stack && !tag.isTablePart) = false ∧ tag :: stack = after := by
  rw [Event.nest?]
  split
  · next refused => simp [refused]
  · next starts => simp [Bool.eq_false_iff.2 starts]

/-- The innermost element may end. -/
theorem nest?_stop_eq_some_iff {tag : Tag} {after : List Tag} :
    (Event.stop tag).nest? stack = some after ↔ stack = tag :: after := by
  rw [Event.nest?]
  split
  · next head =>
      obtain ⟨rest, rfl⟩ := List.head?_eq_some_iff.1 head
      simp
  · next other =>
      simp only [reduceCtorEq, false_iff]
      rintro rfl
      exact other rfl

/-- An event that opens and closes nothing is whole. -/
theorem isNested_leaf {event : Event} (leaf : event.isLeaf = true) : IsNested [event] := by
  intro stack free
  rw [nestAll?, nest?_leaf leaf, free]
  rfl

/-- An element around events ends where it should, if it may start. -/
theorem nestAll?_wrap (starts : (inTable stack && !tag.isTablePart) = false)
    (inside : nestAll? (tag :: stack) content = some (tag :: stack)) :
    nestAll? stack (Event.wrap tag content) = some stack := by
  rw [Event.wrap, List.cons_append, nestAll?, Event.nest?, starts]
  simp [nestAll?_append, inside, nestAll?, Event.nest?]

/-- An element around whole elements is whole, unless it is one of a table. -/
theorem IsNested.wrap (nested : IsNested content) (other : inTable [tag] = false) :
    IsNested (Event.wrap tag content) := by
  intro stack free
  refine nestAll?_wrap (by rw [free, Bool.false_and]) (nested _ ?_)
  cases tag <;> first | rfl | cases other

/-! ### Properties of events -/

/-- Whether events have a property when the ones that they are put together of have it, as long as
there are no tables and no extensions. -/
structure Composes (p : List Event → Prop) : Prop where
  nil : p []
  leaf : ∀ {event : Event}, event.isLeaf = true → p [event]
  append : ∀ {first second : List Event}, p first → p second → p (first ++ second)
  wrap : ∀ {tag : Tag} {content : List Event}, tag.isTablePart = false → inTable [tag] = false →
    tag.isExtension = false → p content → p (Event.wrap tag content)

variable {p q : List Event → Prop}

/-- Events that open and close nothing have every property that is put together. -/
theorem Composes.leaves (composes : Composes p) {events : List Event}
    (leaves : ∀ event ∈ events, event.isLeaf = true) : p events := by
  induction events with
  | nil => exact composes.nil
  | cons event rest ih =>
      rw [List.forall_mem_cons] at leaves
      exact composes.append (composes.leaf leaves.1) (ih leaves.2)

/-- Being whole is a property that is put together of the parts. -/
theorem composes_isNested : Composes IsNested where
  nil := isNested_nil
  leaf := isNested_leaf
  append := IsNested.append
  wrap _ other _ inside := inside.wrap other

/-- Whether a step gives events with a property, whatever is left of the allowance. -/
def Gives (p : List Event → Prop) (step : StateM Nat (List Event)) : Prop :=
  ∀ allowance, p (step.run allowance).1

theorem Gives.pure {events : List Event} (holds : p events) : Gives p (Pure.pure events) :=
  fun _ => holds

/-- Steps one after the other give events one behind the other. -/
theorem Gives.bind {step : StateM Nat (List Event)} {next : List Event → StateM Nat (List Event)}
    (gives : Gives p step) (more : ∀ events, p events → Gives q (next events)) :
    Gives q (step >>= next) :=
  fun allowance => more _ (gives allowance) _

section

variable (composes : Composes p)
include composes

mutual

/-- The events of an inline have every property that is put together of its parts. -/
theorem holds_inline : ∀ inline : Inline, p inline.events
  | .text _ | .code _ | .html _ | .softBreak | .hardBreak | .footnote _ => composes.leaf rfl
  | .emphasis content => composes.wrap rfl rfl rfl (holds_inlineEvents content)
  | .strong content => composes.wrap rfl rfl rfl (holds_inlineEvents content)
  | .strikethrough content => composes.wrap rfl rfl rfl (holds_inlineEvents content)
  | .link _ content => composes.wrap rfl rfl rfl (holds_inlineEvents content)
  | .image _ content => composes.wrap rfl rfl rfl (holds_inlineEvents content)

theorem holds_inlineEvents : ∀ inlines : List Inline, p (inlineEvents inlines)
  | [] => composes.nil
  | inline :: rest => composes.append (holds_inline inline) (holds_inlineEvents rest)

end

/-- The text of a block has the property. -/
theorem gives_inlines (context : BlockContext) (inTable : Bool) (inlines : Inlines) :
    Gives p (inlines.events context inTable) := by
  intro allowance
  refine composes.append ?_ (holds_inlineEvents composes _)
  cases inlines.task with
  | none => exact composes.nil
  | some checked => exact composes.leaf rfl

/-- The events of cells have the property. -/
theorem gives_cellEvents (context : BlockContext) (cells : List Inlines) :
    Gives p (cellEvents context cells) := by
  induction cells with
  | nil => exact .pure composes.nil
  | cons cell rest ih =>
      refine .bind (gives_inlines composes context true cell) fun content inside => ?_
      exact .bind ih fun others behind =>
        .pure (composes.append (composes.wrap rfl rfl rfl inside) behind)

/-- The events of rows have the property, if those of a row have it whose cells do. -/
theorem gives_rows (row : ∀ {content : List Event}, p content → p (Event.wrap tag content))
    (context : BlockContext) (rows : List (List Inlines)) :
    Gives p (rowEvents context tag rows) := by
  induction rows with
  | nil => exact .pure composes.nil
  | cons cells rest ih =>
      refine .bind (gives_cellEvents composes context cells) fun content inside => ?_
      exact .bind ih fun others behind => .pure (composes.append (row inside) behind)

mutual

/-- The events of a block have a property that those of tables have. -/
theorem gives_events (tables : ∀ context columns rows, Gives p (tableEvents context columns rows)) :
    ∀ (context : BlockContext) (block : Block), Gives p (block.events context)
  | context, .paragraph tight content =>
      .bind (gives_inlines composes context false content) fun inner inside => .pure (by
        split
        · exact inside
        · exact composes.wrap rfl rfl rfl inside)
  | context, .heading level id content =>
      .bind (gives_inlines composes context false content) fun _ inside =>
        .pure (composes.wrap rfl rfl rfl inside)
  | _, .rule => .pure (composes.leaf rfl)
  | _, .code info pieces => .pure (composes.wrap rfl rfl rfl (composes.leaves (by
      intro event member
      obtain ⟨piece, -, rfl⟩ := List.mem_map.1 member
      rfl)))
  | _, .html pieces => .pure (composes.wrap rfl rfl rfl (composes.leaves (by
      intro event member
      obtain ⟨piece, -, rfl⟩ := List.mem_map.1 member
      cases piece <;> rfl)))
  | context, .quote blocks =>
      .bind (gives_blockEvents tables _ blocks) fun _ inside => .pure (composes.wrap rfl rfl rfl inside)
  | context, .list start items =>
      .bind (gives_blockEvents tables _ items) fun _ inside => .pure (composes.wrap rfl rfl rfl inside)
  | context, .item indent blocks =>
      .bind (gives_blockEvents tables _ blocks) fun _ inside => .pure (composes.wrap rfl rfl rfl inside)
  | context, .footnote label blocks =>
      .bind (gives_blockEvents tables _ blocks) fun _ inside => .pure (composes.wrap rfl rfl rfl inside)
  | context, .table columns rows => tables context columns rows
  | _, .task checked => .pure (composes.leaf rfl)

/-- The events of blocks have every property that is put together, if those of tables have it. -/
theorem gives_blockEvents
    (tables : ∀ context columns rows, Gives p (tableEvents context columns rows)) :
    ∀ (context : BlockContext) (blocks : List Block), Gives p (blockEvents context blocks)
  | _, [] => .pure composes.nil
  | context, block :: rest =>
      .bind (gives_events tables context block) fun _ head =>
        .bind (gives_blockEvents tables context rest) fun _ tail => .pure (composes.append head tail)

end

end

/-! ### Tables -/

/-- Whether events make up whole elements that may stand anywhere, also in a table. -/
def AreParts (events : List Event) : Prop :=
  ∀ stack, nestAll? stack events = some stack

theorem AreParts.append (head : AreParts first) (tail : AreParts second) :
    AreParts (first ++ second) := by
  intro stack
  rw [nestAll?_append, head stack]
  exact tail stack

/-- The events of rows are parts of a table. -/
theorem gives_rowEvents (context : BlockContext) (part : tag.isTablePart = true)
    (rows : List (List Inlines)) : Gives AreParts (rowEvents context tag rows) := by
  induction rows with
  | nil => exact .pure fun _ => rfl
  | cons cells rest ih =>
      refine .bind (gives_cellEvents composes_isNested context cells) fun content inside => ?_
      refine .bind ih fun others behind => .pure (AreParts.append (fun stack => ?_) behind)
      refine nestAll?_wrap (by rw [part, Bool.not_true, Bool.and_false]) (inside _ ?_)
      cases tag <;> first | rfl | cases part

/-- The events of a table are whole. -/
theorem gives_tableEvents (context : BlockContext) (columns : List ColumnAlign)
    (rows : List (List Inlines)) : Gives IsNested (tableEvents context columns rows) := by
  refine .bind (gives_rowEvents context rfl (rows.take 1)) fun head first => ?_
  refine .bind (gives_rowEvents context rfl (rows.drop 1)) fun body others => .pure fun stack free => ?_
  exact nestAll?_wrap (by rw [free, Bool.false_and]) (first.append others _)

/-! ### Documents -/

/-- Whether an event is a text. -/
def Event.isText : Event → Bool
  | .text _ => true
  | _ => false

theorem mergeAfter_cons_of_not_text {event : Event} (other : event.isText = false)
    (pending : Option (String × Bool)) (rest : List Event) :
    mergeAfter pending (event :: rest) =
      mergeAfter.flush pending ++ event :: mergeAfter none rest := by
  cases event <;> first | rfl | cases other

/-- A text that was merged may stand where its parts stood. -/
theorem nestAll?_flush {pending : Option (String × Bool)}
    (free : pending.isSome = true → inTable stack = false) :
    nestAll? stack (mergeAfter.flush pending) = some stack := by
  cases pending with
  | none => rfl
  | some pair =>
      rw [mergeAfter.flush]
      split
      · rfl
      · exact isNested_leaf rfl stack (free rfl)

/-- Joining texts does not change how events are nested. -/
theorem nestAll?_mergeAfter (events : List Event) {pending : Option (String × Bool)}
    {stack after : List Tag} (free : pending.isSome = true → inTable stack = false)
    (nested : nestAll? stack events = some after) :
    nestAll? stack (mergeAfter pending events) = some after := by
  induction events generalizing pending stack with
  | nil =>
      cases nested
      exact nestAll?_flush free
  | cons event rest ih =>
      obtain ⟨middle, here, behind⟩ := Option.bind_eq_some_iff.1 nested
      cases text : event.isText with
      | false =>
          rw [mergeAfter_cons_of_not_text text, nestAll?_append, nestAll?_flush free, Option.bind_some,
            nestAll?, here]
          exact ih nofun behind
      | true =>
          cases event <;> cases text
          next value =>
            rw [nest?_leaf rfl] at here
            split at here
            · cases here
            · next outside =>
                obtain rfl := Option.some.inj here
                have open' : inTable stack = false := Bool.eq_false_iff.2 outside
                cases pending <;> exact ih (fun _ => open') behind

/-- The events of a document are nested. -/
theorem isNested_events (body : String) : IsNested (events body) := by
  intro stack free
  exact nestAll?_mergeAfter _ nofun
    (gives_blockEvents composes_isNested gives_tableEvents _ _ _ stack free)

/-! ### Heads of tables -/

/-- Whether an event is the start of a table. -/
def Event.startsTable : Event → Bool
  | .start (.table _) => true
  | _ => false

/-- Whether an event is the start of the head of a table. -/
def Event.startsHead : Event → Bool
  | .start .tableHead => true
  | _ => false

/-- Whether heads start directly behind the starts of their tables; `behind` says whether the events
come behind such a start. -/
def headsFirst : Bool → List Event → Bool
  | _, [] => true
  | behind, event :: rest => (behind || !event.startsHead) && headsFirst event.startsTable rest

variable {behind : Bool}

/-- Events that may stand anywhere may also stand directly behind the start of a table. -/
theorem headsFirst_mono (holds : headsFirst false first = true) : headsFirst behind first = true := by
  cases first with
  | nil => rfl
  | cons event rest =>
      rw [headsFirst, Bool.false_or, Bool.and_eq_true] at holds
      rw [headsFirst, holds.1, Bool.or_true, Bool.true_and]
      exact holds.2

theorem headsFirst_append (head : headsFirst behind first = true)
    (tail : headsFirst false second = true) : headsFirst behind (first ++ second) = true := by
  induction first generalizing behind with
  | nil => exact headsFirst_mono tail
  | cons event rest ih =>
      rw [headsFirst, Bool.and_eq_true] at head
      rw [List.cons_append, headsFirst, head.1, ih head.2]
      rfl

/-- An event that opens and closes nothing is no head. -/
theorem headsFirst_leaf {event : Event} (leaf : event.isLeaf = true) (behind : Bool) :
    headsFirst behind [event] = true := by
  cases event with
  | start tag | stop tag => cases leaf
  | _ => cases behind <;> rfl

/-- An element may start where its start is no head, or comes behind that of a table. -/
theorem headsFirst_wrap (starts : (behind || !(Event.start tag).startsHead) = true)
    (inside : headsFirst (Event.start tag).startsTable content = true) :
    headsFirst behind (Event.wrap tag content) = true := by
  rw [Event.wrap, List.cons_append, headsFirst, starts, headsFirst_append inside rfl]
  rfl

/-- That heads come first is put together of the parts. -/
theorem composes_headsFirst : Composes fun events => headsFirst false events = true where
  nil := rfl
  leaf leaf := headsFirst_leaf leaf false
  append := headsFirst_append
  wrap {tag _} part _ _ inside :=
    headsFirst_wrap (by cases tag <;> first | rfl | cases part) (headsFirst_mono inside)

/-- A single head may stand at the start of a table. -/
theorem gives_headsFirst_head (context : BlockContext) {rows : List (List Inlines)}
    (few : rows.length ≤ 1) :
    Gives (fun events => headsFirst true events = true) (rowEvents context .tableHead rows) := by
  cases rows with
  | nil => exact .pure rfl
  | cons cells rest =>
      obtain rfl : rest = [] := List.eq_nil_of_length_eq_zero (by simpa using few)
      refine .bind (gives_cellEvents composes_headsFirst context cells) fun content inside => ?_
      refine .bind (p := (· = [])) (.pure rfl) fun others behind => .pure ?_
      rw [behind, List.append_nil]
      exact headsFirst_wrap rfl inside

/-- In a table the head comes directly behind the start. -/
theorem gives_headsFirst_table (context : BlockContext) (columns : List ColumnAlign)
    (rows : List (List Inlines)) :
    Gives (fun events => headsFirst false events = true) (tableEvents context columns rows) := by
  have few : (rows.take 1).length ≤ 1 := List.length_take_le 1 rows
  have row {content : List Event} (inside : headsFirst false content = true) :
      headsFirst false (Event.wrap .tableRow content) = true := headsFirst_wrap rfl inside
  refine .bind (gives_headsFirst_head context few) fun head first => ?_
  refine .bind (gives_rows composes_headsFirst row context (rows.drop 1)) fun body others => .pure ?_
  exact headsFirst_wrap rfl (headsFirst_append first others)

/-- Joining texts leaves heads where they are. -/
theorem headsFirst_mergeAfter (events : List Event) {pending : Option (String × Bool)} {behind : Bool}
    (holds : headsFirst (behind && pending.isNone) events = true) :
    headsFirst behind (mergeAfter pending events) = true := by
  have flushed (pending : Option (String × Bool)) (behind : Bool) :
      headsFirst behind (mergeAfter.flush pending) = true := by
    cases pending with
    | none => rfl
    | some pair =>
        rw [mergeAfter.flush]
        split
        · rfl
        · exact headsFirst_leaf rfl behind
  induction events generalizing pending behind with
  | nil => exact flushed pending behind
  | cons event rest ih =>
      cases text : event.isText with
      | false =>
          rw [mergeAfter_cons_of_not_text text]
          rw [headsFirst, Bool.and_eq_true] at holds
          have still : headsFirst (behind && pending.isNone) (event :: mergeAfter none rest) = true := by
            rw [headsFirst, holds.1, Bool.true_and]
            exact ih (by rw [Option.isNone_none, Bool.and_true]; exact holds.2)
          cases pending with
          | none =>
              rw [Option.isNone_none, Bool.and_true] at still
              exact still
          | some pair =>
              rw [Option.isNone_some, Bool.and_false] at still
              exact headsFirst_append (flushed _ behind) still
      | true =>
          cases event <;> cases text
          next value =>
            rw [headsFirst, Bool.and_eq_true] at holds
            cases pending <;> exact ih (headsFirst_mono holds.2)

/-- Heads of tables come first among the events of a document. -/
theorem headsFirst_events (body : String) : headsFirst false (events body) = true :=
  headsFirst_mergeAfter _ (gives_blockEvents composes_headsFirst gives_headsFirst_table _ _ _)

/-! ### Extensions -/

/-- Whether an event is the start of an element of an extension. -/
def Event.startsExtension : Event → Bool
  | .start tag => tag.isExtension
  | _ => false

/-- Whether no element among events is one of an extension. -/
def AreBasic (events : List Event) : Prop :=
  ∀ event ∈ events, event.startsExtension = false

theorem areBasic_wrap (basic : tag.isExtension = false) (inside : AreBasic content) :
    AreBasic (Event.wrap tag content) :=
  List.forall_mem_append.2 ⟨List.forall_mem_cons.2 ⟨basic, inside⟩, List.forall_mem_singleton.2 rfl⟩

/-- Being basic is put together of the parts. -/
theorem composes_areBasic : Composes AreBasic where
  nil := fun _ member => absurd member List.not_mem_nil
  leaf {event} leaf := List.forall_mem_singleton.2 (by cases event <;> first | rfl | cases leaf)
  append head tail := List.forall_mem_append.2 ⟨head, tail⟩
  wrap _ _ basic inside := areBasic_wrap basic inside

/-- The events of a table are basic. -/
theorem gives_areBasic_table (context : BlockContext) (columns : List ColumnAlign)
    (rows : List (List Inlines)) : Gives AreBasic (tableEvents context columns rows) := by
  refine .bind (gives_rows composes_areBasic (areBasic_wrap rfl) context (rows.take 1))
    fun head first => ?_
  refine .bind (gives_rows composes_areBasic (areBasic_wrap rfl) context (rows.drop 1))
    fun body others => .pure ?_
  exact areBasic_wrap rfl (composes_areBasic.append first others)

/-- Joining texts starts no elements. -/
theorem areBasic_mergeAfter {events : List Event} (basic : AreBasic events)
    (pending : Option (String × Bool)) : AreBasic (mergeAfter pending events) := by
  have flushed (pending : Option (String × Bool)) : AreBasic (mergeAfter.flush pending) := by
    cases pending with
    | none => exact composes_areBasic.nil
    | some pair =>
        rw [mergeAfter.flush]
        split
        · exact composes_areBasic.nil
        · exact composes_areBasic.leaf rfl
  induction events generalizing pending with
  | nil => exact flushed pending
  | cons event rest ih =>
      obtain ⟨here, behind⟩ := List.forall_mem_cons.1 basic
      cases text : event.isText with
      | false =>
          rw [mergeAfter_cons_of_not_text text]
          exact composes_areBasic.append (flushed pending)
            (List.forall_mem_cons.2 ⟨here, ih behind none⟩)
      | true =>
          cases event <;> cases text
          cases pending <;> exact ih behind _

/-- There are no extensions in the events of a document. -/
theorem areBasic_events (body : String) : AreBasic (events body) :=
  areBasic_mergeAfter (gives_blockEvents composes_areBasic gives_areBasic_table _ _ _) none

/-! ### Raw HTML -/

/-- Whether an event is the end of an element. -/
def Event.isStop : Event → Bool
  | .stop _ => true
  | _ => false

/-- Whether an event is raw HTML that ends in an opening brace. -/
def Event.endsInBrace : Event → Bool
  | .html value => value.toList.getLast? = some '{'
  | _ => false

/-- Whether raw HTML ends in an opening brace only at the very end of a document: nothing but the ends of
elements comes behind it. -/
def bracesLast : List Event → Bool
  | [] => true
  | event :: rest => (!event.endsInBrace || rest.all Event.isStop) && bracesLast rest

end DocPress.Markdown
