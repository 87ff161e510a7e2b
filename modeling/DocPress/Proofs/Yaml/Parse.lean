import Mathlib.Data.List.Forall2
import DocPress.Proofs.Yaml.Lines

/-!
Written maps read back. Their tokens make up a tree of one map, in which only the places are not told by
the entries, and the value of the tree does not depend on the places.
-/

namespace DocPress.Yaml

open Lexer

variable {reading : Reading} {kinds : List TokenKind} {kind : TokenKind} {style : ScalarStyle}
  {text : String} {fuel : Nat} {block afterKey : Bool} {value : Flat} {items : List String}
  {entries : List (String × Flat)}

/-! ### Trees of flat maps -/

/-- Whether a tree is a scalar without properties. -/
def IsScalar (style : ScalarStyle) (text : String) (tree : Tree) : Prop :=
  ∃ start, tree = .scalar start none none style text

/-- Whether trees are the items of a list in the styles in which they are written. -/
def AreItems (items : List String) (trees : List Tree) : Prop :=
  List.Forall₂ (fun item tree => IsScalar (styleOf false item) item tree) items trees

/-- Whether a tree is that of a value as it is written. -/
inductive Shows : Flat → Tree → Prop where
  | text {value : String} {tree : Tree} (scalar : IsScalar (styleOf false value) value tree) :
      Shows (.text value) tree
  | flag {value : Bool} {tree : Tree} (scalar : IsScalar .plain (flagText value) tree) :
      Shows (.flag value) tree
  | list {items : List String} {trees : List Tree} (start : Mark) (are : AreItems items trees) :
      Shows (.list items) (.sequence start none none trees none)

/-- Whether trees are the keys and the values of entries. -/
def AreEntries (entries : List (String × Flat)) (trees : List (Tree × Tree)) : Prop :=
  List.Forall₂ (fun entry tree =>
    IsScalar (styleOf (isSimpleKey entry.1) entry.1) entry.1 tree.1 ∧ Shows entry.2 tree.2) entries trees

/-! ### Tokens of nodes -/

/-- Whether reading has given a result that satisfies `holds`, and goes on in front of the tokens
`kinds`. -/
def Leaves {α : Type} (result : α × Rest) (holds : α → Prop) (kinds : List TokenKind) : Prop :=
  ∃ reading : Reading, result.2 = .ok reading ∧ kindsOf reading.tokens = kinds ∧ holds result.1

/-- The next token of a sound reading is the first of its kinds. -/
theorem exists_peek (found : kindsOf reading.tokens = kind :: kinds)
    (sound : ∀ reason, kind ≠ .broken reason) :
    ∃ token, reading.peek = .ok token ∧ token.kind = kind ∧ kindsOf reading.next.tokens = kinds := by
  obtain ⟨tokens, anchors, handles⟩ := reading
  cases tokens with
  | nil => cases found
  | cons token tokens =>
      obtain ⟨rfl, rfl⟩ := List.cons.inj found
      refine ⟨token, ?_, rfl, rfl⟩
      rw [Reading.peek]
      dsimp only
      split
      · next reason same => exact absurd same (sound reason)
      · rfl

/-- The tokens that a node without properties starts with. -/
def TokenKind.startsContent : TokenKind → Bool
  | .scalar .. | .flowSequenceStart | .sequenceStart | .mappingStart | .blockEntry => true
  | _ => false

/-- A node without properties is its content. -/
theorem readNode_content {token : Token} (peek : reading.peek = .ok token)
    (starts : token.kind.startsContent = true) :
    readNode (fuel + 1) block afterKey reading =
      readContent fuel block afterKey ⟨token.start, none, none⟩ none reading := by
  have properties : reading.properties = .ok (⟨token.start, none, none⟩, reading) := by
    rw [Reading.properties, peek]
    cases same : token.kind <;> simp_all [TokenKind.startsContent, bind, Except.bind, pure, Except.pure]
  rw [readNode, peek]
  cases same : token.kind <;> simp_all [TokenKind.startsContent, Reading.resolve]

/-- At a scalar the reader reads the scalar. -/
theorem readNode_scalar (found : kindsOf reading.tokens = .scalar style text :: kinds) :
    Leaves (readNode (fuel + 2) block afterKey reading) (IsScalar style text) kinds := by
  obtain ⟨token, peek, same, behind⟩ := exists_peek found (fun _ no => by cases no)
  rw [readNode_content peek (by rw [same]; rfl), readContent, peek]
  dsimp only
  rw [same]
  exact ⟨reading.next, rfl, behind, token.start, rfl⟩

/-! ### Lists -/

/-- An item has a mark in front of it, and is a scalar. -/
theorem exists_item {item : String} (found : kindsOf reading.tokens = itemKinds (item :: items) ++ kinds)
    (fuel : Nat) : ∃ dash after, reading.peek = .ok dash ∧ dash.kind = .blockEntry ∧
      reading.next.peek = .ok after ∧ after.kind = .scalar (styleOf false item) item ∧
      Leaves (readNode (fuel + 2) true false reading.next) (IsScalar (styleOf false item) item)
        (itemKinds items ++ kinds) := by
  obtain ⟨dash, peek, same, behind⟩ := exists_peek found (fun _ no => by cases no)
  obtain ⟨after, peekItem, sameItem, -⟩ := exists_peek behind (fun _ no => by cases no)
  exact ⟨dash, after, peek, same, peekItem, sameItem, readNode_scalar behind⟩

/-- The items of a list that is not indented, up to the end of the value. -/
theorem readLooseItems_itemKinds (ends : kind = .key ∨ kind = .blockEnd)
    (found : kindsOf reading.tokens = itemKinds items ++ kind :: kinds)
    (enough : items.length + 3 ≤ fuel) :
    Leaves (readLooseItems fuel reading) (AreItems items) (kind :: kinds) := by
  induction items generalizing reading fuel with
  | nil =>
      obtain ⟨fuel, rfl⟩ : ∃ less, fuel = less + 1 := ⟨fuel - 1, by omega⟩
      have sound (reason : Break) : kind ≠ .broken reason := by
        rcases ends with rfl | rfl <;> exact fun no => by cases no
      obtain ⟨token, peek, same, -⟩ := exists_peek found sound
      rw [readLooseItems, peek]
      rcases ends with rfl | rfl <;>
      · dsimp only
        rw [same]
        exact ⟨reading, rfl, found, .nil⟩
  | cons item items ih =>
      obtain ⟨fuel, rfl⟩ : ∃ less, fuel = less + 3 := ⟨fuel - 3, by omega⟩
      rw [List.length_cons] at enough
      obtain ⟨dash, after, peek, same, peekItem, sameItem, next, goesOn, others, isItem⟩ :=
        exists_item found fuel
      obtain ⟨last, done, left, are⟩ := @ih next (fuel + 2) others (by omega)
      rw [readLooseItems, peek]
      dsimp only
      rw [same]
      dsimp only
      rw [peekItem]
      dsimp only
      rw [sameItem]
      simp only [TokenKind.endsItem, TokenKind.endsBlockNode, Bool.or_self, Bool.false_eq_true, if_false]
      rw [goesOn]
      exact ⟨last, done, left, .cons isItem are⟩

/-- The items of a list that is indented, and its end. -/
theorem readBlockItems_itemKinds {start : Mark}
    (found : kindsOf reading.tokens = itemKinds items ++ .blockEnd :: kinds)
    (enough : items.length + 3 ≤ fuel) :
    Leaves (readBlockItems fuel start reading) (AreItems items) kinds := by
  induction items generalizing reading fuel with
  | nil =>
      obtain ⟨fuel, rfl⟩ : ∃ less, fuel = less + 1 := ⟨fuel - 1, by omega⟩
      obtain ⟨token, peek, same, behind⟩ := exists_peek found (fun _ no => by cases no)
      rw [readBlockItems, peek]
      dsimp only
      rw [same]
      exact ⟨reading.next, rfl, behind, .nil⟩
  | cons item items ih =>
      obtain ⟨fuel, rfl⟩ : ∃ less, fuel = less + 3 := ⟨fuel - 3, by omega⟩
      rw [List.length_cons] at enough
      obtain ⟨dash, after, peek, same, peekItem, sameItem, next, goesOn, others, isItem⟩ :=
        exists_item found fuel
      obtain ⟨last, done, left, are⟩ := @ih next (fuel + 2) others (by omega)
      rw [readBlockItems, peek]
      dsimp only
      rw [same]
      dsimp only
      rw [peekItem]
      dsimp only
      rw [sameItem]
      simp only [TokenKind.endsItem, Bool.false_eq_true, if_false]
      rw [goesOn]
      exact ⟨last, done, left, .cons isItem are⟩

/-! ### Values and entries -/

/-- At an empty list in brackets the reader reads an empty list. -/
theorem readNode_flowEmpty (found : kindsOf reading.tokens = .flowSequenceStart :: .flowSequenceEnd :: kinds) :
    Leaves (readNode (fuel + 3) block afterKey reading) (Shows (.list [])) kinds := by
  obtain ⟨token, peek, same, behind⟩ := exists_peek found (fun _ no => by cases no)
  obtain ⟨closing, peekEnd, sameEnd, after⟩ := exists_peek behind (fun _ no => by cases no)
  rw [readNode_content peek (by rw [same]; rfl), readContent, peek]
  dsimp only
  rw [same]
  have items : readFlowItems (fuel + 1) token.start true reading.next = ([], .ok reading.next.next) := by
    rw [readFlowItems, peekEnd]
    dsimp only
    rw [sameEnd]
  dsimp only [Reading.setAnchor]
  rw [items]
  exact ⟨_, rfl, after, .list _ .nil⟩

theorem length_itemKinds (items : List String) : (itemKinds items).length = 2 * items.length := by
  induction items with
  | nil => rfl
  | cons item items ih =>
      rw [itemKinds, List.flatMap_cons, ← itemKinds, List.length_append, ih, List.length_cons]
      simp only [List.length_cons, List.length_nil]
      omega

/-- A value behind its key. -/
theorem readNode_valueKinds {simple : Bool} (ends : kind = .key ∨ kind = .blockEnd)
    (found : kindsOf reading.tokens = valueKinds simple value ++ kind :: kinds)
    (enough : (valueKinds simple value).length + 4 ≤ fuel) :
    Leaves (readNode fuel true true reading) (Shows value) (kind :: kinds) := by
  obtain ⟨fuel, rfl⟩ : ∃ less, fuel = less + 3 := ⟨fuel - 3, by omega⟩
  cases value with
  | text value =>
      obtain ⟨next, goesOn, behind, scalar⟩ :=
        @readNode_scalar reading _ _ _ (fuel + 1) true true found
      exact ⟨next, goesOn, behind, .text scalar⟩
  | flag value =>
      obtain ⟨next, goesOn, behind, scalar⟩ :=
        @readNode_scalar reading _ _ _ (fuel + 1) true true found
      exact ⟨next, goesOn, behind, .flag scalar⟩
  | list items =>
      cases items with
      | nil => exact readNode_flowEmpty found
      | cons item more =>
          have size := length_itemKinds (item :: more)
          rw [List.length_cons] at size
          cases simple with
          | true =>
              -- The items stand on the level of the map, and have no start and no end of their own.
              rw [valueKinds, if_pos rfl] at found enough
              obtain ⟨token, peek, same, -⟩ := exists_peek found (fun _ no => by cases no)
              obtain ⟨next, goesOn, behind, are⟩ :=
                @readLooseItems_itemKinds reading _ _ (fuel + 1) _ ends found
                  (by rw [List.length_cons]; omega)
              rw [readNode_content peek (by rw [same]; rfl), readContent, peek]
              dsimp only
              rw [same]
              dsimp only [Reading.setAnchor]
              rw [if_pos rfl, goesOn]
              exact ⟨next, rfl, behind, .list _ are⟩
          | false =>
              rw [valueKinds, if_neg Bool.false_ne_true] at found enough
              simp only [List.length_cons, List.length_append] at enough
              rw [List.cons_append, List.append_assoc] at found
              obtain ⟨token, peek, same, inside⟩ := exists_peek found (fun _ no => by cases no)
              obtain ⟨next, goesOn, behind, are⟩ :=
                @readBlockItems_itemKinds reading.next _ (fuel + 1) _ token.start inside
                  (by rw [List.length_cons]; omega)
              rw [readNode_content peek (by rw [same]; rfl), readContent, peek]
              dsimp only
              rw [same]
              dsimp only [Reading.setAnchor]
              rw [if_pos rfl, goesOn]
              exact ⟨next, rfl, behind, .list _ are⟩

/-- The first token of a value is not one that ends an empty one. -/
theorem valueKinds_starts (simple : Bool) (value : Flat) : ∃ kind kinds,
    valueKinds simple value = kind :: kinds ∧ kind.endsBlockNode = false ∧
      ∀ reason, kind ≠ .broken reason := by
  cases value with
  | text | flag => exact ⟨_, _, rfl, rfl, fun _ no => by cases no⟩
  | list items =>
      cases items with
      | nil => exact ⟨_, _, rfl, rfl, fun _ no => by cases no⟩
      | cons item more => cases simple <;> exact ⟨_, _, rfl, rfl, fun _ no => by cases no⟩

/-- The colon behind a key, and the value. -/
theorem readBlockValue_valueKinds {simple : Bool} (ends : kind = .key ∨ kind = .blockEnd)
    (found : kindsOf reading.tokens = .value :: (valueKinds simple value ++ kind :: kinds))
    (enough : (valueKinds simple value).length + 5 ≤ fuel) :
    Leaves (readBlockValue fuel reading) (Shows value) (kind :: kinds) := by
  obtain ⟨fuel, rfl⟩ : ∃ less, fuel = less + 1 := ⟨fuel - 1, by omega⟩
  obtain ⟨colon, peek, same, behind⟩ := exists_peek found (fun _ no => by cases no)
  obtain ⟨first, others, starts, goesOn, sound⟩ := valueKinds_starts simple value
  have first' := behind
  rw [starts] at first'
  obtain ⟨after, peekValue, sameValue, -⟩ := exists_peek first' sound
  have read := @readNode_valueKinds reading.next _ _ fuel value simple ends behind (by omega)
  rw [readBlockValue, peek]
  dsimp only
  rw [same]
  dsimp only
  rw [peekValue]
  dsimp only
  rw [sameValue, goesOn]
  exact read

/-- The entries of a map, and its end. -/
theorem readBlockEntries_mapKinds {start : Mark}
    (found : kindsOf reading.tokens = mapKinds entries ++ .blockEnd :: kinds)
    (enough : (mapKinds entries).length + 6 ≤ fuel) :
    Leaves (readBlockEntries fuel start reading) (AreEntries entries) kinds := by
  induction entries generalizing reading fuel with
  | nil =>
      obtain ⟨fuel, rfl⟩ : ∃ less, fuel = less + 1 := ⟨fuel - 1, by omega⟩
      obtain ⟨token, peek, same, behind⟩ := exists_peek found (fun _ no => by cases no)
      rw [readBlockEntries, peek]
      dsimp only
      rw [same]
      exact ⟨reading.next, rfl, behind, .nil⟩
  | cons entry more ih =>
      obtain ⟨fuel, rfl⟩ : ∃ less, fuel = less + 3 := ⟨fuel - 3, by omega⟩
      obtain ⟨key, value⟩ := entry
      have split : mapKinds ((key, value) :: more) ++ .blockEnd :: kinds =
          .key :: .scalar (styleOf (isSimpleKey key) key) key :: .value ::
            (valueKinds (isSimpleKey key) value ++ (mapKinds more ++ .blockEnd :: kinds)) := by
        simp [mapKinds, entryKinds]
      have size : (mapKinds ((key, value) :: more)).length =
          3 + (valueKinds (isSimpleKey key) value).length + (mapKinds more).length := by
        rw [mapKinds, List.flatMap_cons, ← mapKinds, List.length_append, entryKinds, List.length_append]
        rfl
      -- What comes behind an entry is the next key or the end of the map.
      obtain ⟨kind, others, rest, ends⟩ : ∃ kind others,
          mapKinds more ++ .blockEnd :: kinds = kind :: others ∧ (kind = .key ∨ kind = .blockEnd) := by
        cases more with
        | nil => exact ⟨_, _, rfl, .inr rfl⟩
        | cons next more => exact ⟨_, _, rfl, .inl rfl⟩
      rw [split] at found
      obtain ⟨mark, peek, same, behind⟩ := exists_peek found (fun _ no => by cases no)
      obtain ⟨after, peekKey, sameKey, -⟩ := exists_peek behind (fun _ no => by cases no)
      obtain ⟨atColon, keyRead, colon, isKey⟩ :=
        @readNode_scalar reading.next _ _ _ fuel true true behind
      rw [rest] at colon
      obtain ⟨atNext, valueRead, next, shows⟩ :=
        @readBlockValue_valueKinds atColon _ _ (fuel + 2) value _ ends colon (by omega)
      rw [← rest] at next
      obtain ⟨last, done, left, are⟩ := @ih atNext (fuel + 2) next (by omega)
      rw [readBlockEntries, peek]
      dsimp only
      rw [same]
      dsimp only
      rw [peekKey]
      dsimp only
      rw [sameKey]
      simp only [TokenKind.endsBlockNode, Bool.false_eq_true, if_false]
      rw [keyRead]
      dsimp only
      rw [valueRead]
      exact ⟨last, done, left, .cons ⟨isKey, shows⟩ are⟩

/-- The document of a written map. -/
theorem exists_document {entries : List (String × Flat)} {tokens : List Token}
    (found : kindsOf tokens = .mappingStart :: (mapKinds entries ++ [.blockEnd, .endOfText])) :
    ∃ start trees, Document.ofTokens tokens = ⟨some (.mapping start none none trees none), none, false⟩ ∧
      AreEntries entries trees := by
  let reading : Reading := ⟨tokens, [], standardHandles⟩
  have length : tokens.length = (mapKinds entries).length + 3 := by
    have same := congrArg List.length found
    simpa [kindsOf] using same
  obtain ⟨token, peek, same, inside⟩ := @exists_peek reading _ _ found (fun _ no => by cases no)
  obtain ⟨last, done, left, are⟩ := @readBlockEntries_mapKinds reading.next [.endOfText]
    (4 * tokens.length + 6) entries token.start inside (by omega)
  obtain ⟨closing, peekEnd, sameEnd, -⟩ := exists_peek left (fun _ no => by cases no)
  have root : readNode (4 * tokens.length + 8) true false reading =
      (.mapping token.start none none
        (readBlockEntries (4 * tokens.length + 6) token.start reading.next).1 none, .ok last) := by
    rw [readNode_content peek (by rw [same]; rfl), readContent, peek]
    dsimp only
    rw [same]
    dsimp only [Reading.setAnchor]
    rw [if_pos rfl, done]
    rfl
  -- Behind the map only the end of the text is left, so nothing is trailing.
  have rest : (last.tokens.dropWhile fun token => token.kind = .documentEnd).head?.any
      (fun token => token.kind != .endOfText) = false := by
    obtain ⟨tokens, anchors, handles⟩ := last
    cases tokens with
    | nil => rfl
    | cons token tokens =>
        obtain ⟨kind, -⟩ := List.cons.inj left
        rw [List.dropWhile_cons_of_neg (by simp [kind])]
        simp [kind]
  refine ⟨token.start, _, ?_, are⟩
  have peek' : (⟨tokens, [], []⟩ : Reading).peek = .ok token := peek
  rw [Document.ofTokens]
  dsimp only
  rw [peek']
  dsimp only
  rw [same]
  dsimp only
  rw [show readNode (4 * tokens.length + 8) true false ⟨tokens, [], standardHandles⟩ = _ from root,
    Document.ofRoot]
  dsimp only
  rw [peekEnd]
  dsimp only
  rw [rest]

/-! ### Values of trees -/

section Values

variable {anchored : List (Nat × Tree)} {limit depth jumps : Nat} {path : Path} {tree : Tree}

/-- The value that is written. -/
def Flat.toValue : Flat → Value
  | .text value => .string value
  | .flag value => .bool value
  | .list items => .sequence (items.map .string)

/-- A scalar without properties is read for what its style and its text say. -/
theorem readerAt_scalar {value : Value} (scalar : IsScalar style text tree)
    (means : ∀ path mark, scalarValue path mark none style text = .ok value) :
    readerAt anchored limit depth path tree jumps = .ok (value, jumps) := by
  obtain ⟨start, rfl⟩ := scalar
  cases depth <;>
  · simp only [readerAt, readAlias, readTagged, readTree, Tree.ownTag?, Option.bind_none,
      Option.isSome_none, Bool.false_eq_true, if_false, means]
    rfl

/-- A text is read as a text in the style in which it is written. -/
theorem scalarValue_styleOf (simple : Bool) (text : String) (path : Path) (mark : Mark) :
    scalarValue path mark none (styleOf simple text) text = .ok (.string text) := by
  have styled := styled_styleOf simple text
  generalize styleOf simple text = style at styled ⊢
  cases styled with
  | plain plain clear =>
      have string : Plain.ofText text = .string := by
        rw [isAmbiguous] at clear
        split at clear
        · assumption
        · cases clear
      simp [scalarValue, string]
  | single | double | literal => rfl

theorem scalarValue_flagText (value : Bool) (path : Path) (mark : Mark) :
    scalarValue path mark none .plain (flagText value) = .ok (.bool value) := by
  cases value <;> rfl

/-- The items of a list are read back. -/
theorem readItems_areItems {trees : List Tree} (are : AreItems items trees) (index : Nat) :
    readItems (readerAt anchored limit depth) path none index trees jumps =
      .ok (items.map .string, jumps) := by
  induction are generalizing index with
  | nil => rfl
  | cons scalar others ih =>
      rw [readItems, readerAt_scalar scalar (scalarValue_styleOf false _)]
      dsimp only [bind, Except.bind]
      rw [ih]
      rfl

/-- A value that a tree shows is read back. -/
theorem readerAt_shows (shows : Shows value tree) :
    readerAt anchored limit (depth + 1) path tree jumps = .ok (value.toValue, jumps) := by
  cases shows with
  | text scalar => exact readerAt_scalar scalar (scalarValue_styleOf false _)
  | flag scalar => exact readerAt_scalar scalar (scalarValue_flagText _)
  | list start are =>
      simp only [readerAt, readAlias, readTagged, readTree, Tree.ownTag?, Option.bind_none]
      rw [readItems_areItems are]
      rfl

/-- The entries of a map behind others, none of which has the key of one of them. -/
theorem readEntries_areEntries {trees : List (Tree × Tree)} (are : AreEntries entries trees)
    (start : Mark) {before : List (String × Flat)}
    (distinct : ((before ++ entries).map (·.1)).Nodup) :
    readEntries (readerAt anchored limit (depth + 1)) path start none
        (before.map fun entry => (.string entry.1, entry.2.toValue)).reverse trees jumps =
      .ok ((before ++ entries).map fun entry => (.string entry.1, entry.2.toValue), jumps) := by
  induction are generalizing before with
  | nil =>
      rw [readEntries, List.reverse_reverse, List.append_nil]
  | @cons entry tree entries trees both others ih =>
      obtain ⟨scalar, shows⟩ := both
      obtain ⟨key, value⟩ := entry
      obtain ⟨keyTree, valueTree⟩ := tree
      have split : before ++ (key, value) :: entries = (before ++ [(key, value)]) ++ entries := by simp
      have fresh : ((before.map fun entry => (Value.string entry.1, entry.2.toValue)).reverse.any
          fun done => done.1.same (.string key)) = false := by
        rw [List.map_append, List.nodup_append] at distinct
        simp only [List.any_reverse, List.any_map, List.any_eq_false, Function.comp_apply]
        intro entry member
        have other := distinct.2.2 entry.1 (List.mem_map_of_mem member) key (by simp)
        simpa [Value.same] using other
      have behind := @ih (before ++ [(key, value)]) (by rwa [← split])
      rw [List.map_append, List.reverse_append] at behind
      rw [readEntries, readerAt_scalar scalar (scalarValue_styleOf _ _)]
      dsimp only [bind, Except.bind]
      rw [fresh, readerAt_shows shows, split]
      exact behind

/-- The entries of a map are read back. -/
theorem readerAt_areEntries {trees : List (Tree × Tree)} (are : AreEntries entries trees)
    (distinct : (entries.map (·.1)).Nodup) (start : Mark) :
    readerAt anchored limit (depth + 2) path (.mapping start none none trees none) jumps =
      .ok (.mapping (entries.map fun entry => (.string entry.1, entry.2.toValue)), jumps) := by
  have read := @readEntries_areEntries entries anchored limit depth jumps path trees are start [] distinct
  rw [readerAt, readAlias, readTagged, readTree]
  · simp only [Tree.ownTag?, Option.bind_none, Option.isSome_none, Bool.false_eq_true, if_false]
    rw [List.map_nil, List.reverse_nil] at read
    rw [read]
    rfl
  · intro _ _ no
    cases no

end Values

/-- A written map is read back. -/
theorem value_ofTokens {tokens : List Token} (distinct : (entries.map (·.1)).Nodup)
    (found : kindsOf tokens = .mappingStart :: (mapKinds entries ++ [.blockEnd, .endOfText])) :
    (Document.ofTokens tokens).value =
      .ok (.mapping (entries.map fun entry => (.string entry.1, entry.2.toValue))) := by
  obtain ⟨start, trees, document, are⟩ := exists_document found
  rw [document, Document.value]
  dsimp only
  generalize (Tree.mapping start none none trees none).anchored.reverse = anchored
  generalize (Tree.mapping start none none trees none).size * 100 = limit
  have read := @readerAt_areEntries entries anchored limit 126 0 .root trees are distinct start
  rw [depthLimit, read]
  rfl

/-- A printable text holds no control character. -/
theorem controlOffset?_eq_none {text : List Char} (printable : ∀ c ∈ text, isPrintable c = true)
    (offset : Nat) : controlOffset? offset text = none := by
  induction text generalizing offset with
  | nil => rfl
  | cons c rest ih =>
      obtain ⟨here, behind⟩ := List.forall_mem_cons.1 printable
      rw [controlOffset?, if_pos (isAllowed_of_isPrintable here)]
      exact ih behind _

/-- The text of a map that holds anything is read as the map. -/
theorem parse_mapChars {entries : List (String × Flat)} (filled : entries ≠ [])
    (distinct : (entries.map (·.1)).Nodup) :
    parse (String.ofList (mapChars entries)) =
      .ok (.mapping (entries.map fun entry => (.string entry.1, entry.2.toValue))) := by
  have document : Document.ofText (String.ofList (mapChars entries)) =
      .ofTokens (tokens (mapChars entries)) := by
    have printable := printable_mapChars entries
    have opens := opens_mapChars entries
    rw [Document.ofText, String.toList_ofList]
    cases chars : mapChars entries with
    | nil => exact absurd chars (mapChars_ne_nil filled)
    | cons c rest =>
        rw [chars] at printable opens
        have mark : c.toNat ≠ 0xFEFF := (opens c rfl).2.2.2
        simp only [mark, if_false, controlOffset?_eq_none printable]
  rw [parse, document]
  exact value_ofTokens distinct (kindsOf_tokens_mapChars filled)

end DocPress.Yaml
