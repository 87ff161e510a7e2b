import DocPress.Yaml.Token

/-!
YAML documents as trees that know where their parts start and that may break off. A reader of such a
tree meets faults of the text and faults of the data in the order in which they are written.
-/

namespace DocPress.Yaml

/-- Why a document cannot be read on. -/
inductive Stop where
  | text (reason : Break)
  /-- An alias for an anchor that has not been set. -/
  | unknownAnchor (mark : Mark)
  deriving DecidableEq, Inhabited

/-- A node of a document. Anchors are numbered. -/
inductive Tree where
  | scalar (start : Mark) (anchor : Option Nat) (tag : Option String) (style : ScalarStyle)
    (text : String)
  /-- A list, and why it breaks off if it does. -/
  | sequence (start : Mark) (anchor : Option Nat) (tag : Option String) (items : List Tree)
    (cut : Option Stop)
  /-- A map, and why it breaks off if it does. -/
  | mapping (start : Mark) (anchor : Option Nat) (tag : Option String)
    (entries : List (Tree × Tree)) (cut : Option Stop)
  | alias (start : Mark) (target : Nat)
  /-- Nothing, because the text cannot be read on. -/
  | missing (reason : Stop)
  deriving Inhabited

/-- What is left of a document, and the names that are known in it. -/
structure Reading where
  tokens : List Token
  /-- The numbers of the anchors. -/
  anchors : List (String × Nat)
  /-- What the handles of tags stand for. -/
  handles : List (String × String)

/-- Where reading goes on, or why it does not. -/
abbrev Rest := Except Stop Reading

/-- Why reading does not go on. -/
def cutOf : Rest → Option Stop
  | .ok _ => none
  | .error stop => some stop

namespace Reading

/-- The next token. -/
def peek (reading : Reading) : Except Stop Token :=
  match reading.tokens with
  | [] => .ok ⟨.endOfText, .start, .start⟩
  | token :: _ =>
    match token.kind with
    | .broken reason => .error (.text reason)
    | _ => .ok token

/-- Moves over the next token. -/
def next (reading : Reading) : Reading :=
  { reading with tokens := reading.tokens.drop 1 }

/-- The stop for a problem at a place. -/
def stop (problem : Problem) (mark : Mark) (context : Option (Activity × Mark)) : Stop :=
  .text (.fault problem mark context)

/-- Sets an anchor. Its number is how many names are known before it. -/
def setAnchor (name : Option String) (reading : Reading) : Option Nat × Reading :=
  match name with
  | none => (none, reading)
  | some name =>
    let number := reading.anchors.length
    let others := reading.anchors.filter (·.1 != name)
    (some number, { reading with anchors := (name, number) :: others })

/-- The properties of a node: its anchor and its tag as they are written, and where they start. -/
structure Properties where
  start : Mark
  anchor : Option String
  tag : Option (String × String × Mark)

/-- Takes the properties in front of a node, in either order. -/
def properties (reading : Reading) : Except Stop (Properties × Reading) := do
  let token ← reading.peek
  match token.kind with
  | .anchor name =>
    let reading := reading.next
    let after ← reading.peek
    match after.kind with
    | .tag handle suffix =>
      let _ ← reading.next.peek
      return (⟨token.start, some name, some (handle, suffix, after.start)⟩, reading.next)
    | _ => return (⟨token.start, some name, none⟩, reading)
  | .tag handle suffix =>
    let reading := reading.next
    let tag := some (handle, suffix, token.start)
    let after ← reading.peek
    match after.kind with
    | .anchor name =>
      let _ ← reading.next.peek
      return (⟨token.start, some name, tag⟩, reading.next)
    | _ => return (⟨token.start, none, tag⟩, reading)
  | _ => return (⟨token.start, none, none⟩, reading)

/-- The whole tag that a handle and a suffix stand for. -/
def resolve (reading : Reading) (properties : Properties) : Except Stop (Option String) :=
  match properties.tag with
  | none => .ok none
  | some (handle, suffix, mark) =>
    if handle = "" then .ok (some suffix)
    else
      match reading.handles.find? (·.1 == handle) with
      | some (_, start) => .ok (some (start ++ suffix))
      | none => .error (stop .undefinedHandle mark (some (.node, properties.start)))

end Reading

/-- An empty node. -/
def emptyNode (mark : Mark) : Tree :=
  .scalar mark none none .plain ""

/-- Whether a block node does not start with such a token, so that its place is empty. -/
def TokenKind.endsBlockNode : TokenKind → Bool
  | .key | .value | .blockEnd => true
  | _ => false

/-- Whether an item of a block list does not start with such a token. -/
def TokenKind.endsItem : TokenKind → Bool
  | .blockEntry | .blockEnd => true
  | _ => false

/-- Whether a node in a list between brackets does not start with such a token. -/
def TokenKind.endsListNode : TokenKind → Bool
  | .value | .flowEntry | .flowSequenceEnd => true
  | _ => false

/-- Whether a node in a map between braces does not start with such a token. -/
def TokenKind.endsMapNode : TokenKind → Bool
  | .value | .flowEntry | .flowMappingEnd => true
  | _ => false

mutual

/-- Reads a node. In a `block` node there may be block collections; after a key, the items of a list
need not be indented. -/
def readNode : Nat → Bool → Bool → Reading → Tree × Rest
  | 0, _, _, reading => (emptyNode .start, .ok reading)
  | fuel + 1, block, afterKey, reading =>
    let halt (stop : Stop) : Tree × Rest := (.missing stop, .error stop)
    match reading.peek with
    | .error stop => halt stop
    | .ok token =>
      match token.kind with
      | .alias name =>
        match reading.anchors.find? (·.1 == name) with
        | some (_, target) => (.alias token.start target, .ok reading.next)
        | none => halt (.unknownAnchor token.start)
      | _ =>
        match reading.properties with
        | .error stop => halt stop
        | .ok (properties, reading) =>
          match reading.resolve properties with
          | .error stop => halt stop
          | .ok tag => readContent fuel block afterKey properties tag reading

/-- Reads a node after its properties. -/
def readContent : Nat → Bool → Bool → Reading.Properties → Option String → Reading → Tree × Rest
  | 0, _, _, _, _, reading => (emptyNode .start, .ok reading)
  | fuel + 1, block, afterKey, properties, tag, reading =>
    match reading.peek with
    | .error stop => (.missing stop, .error stop)
    | .ok token =>
      let (anchor, inner) := reading.setAnchor properties.anchor
      let sequence (result : List Tree × Rest) : Tree × Rest :=
        (.sequence properties.start anchor tag result.1 (cutOf result.2), result.2)
      let mapping (result : List (Tree × Tree) × Rest) : Tree × Rest :=
        (.mapping properties.start anchor tag result.1 (cutOf result.2), result.2)
      let other : Tree × Rest :=
        if properties.anchor.isSome || tag.isSome then
          (.scalar properties.start anchor tag .plain "", .ok inner)
        else
          let activity := if block then Activity.blockNode else .flowNode
          let stop := Reading.stop .noContent token.start (some (activity, properties.start))
          (.missing stop, .error stop)
      match token.kind with
      | .scalar style text =>
        let tag := if tag = some "!" then none else tag
        (.scalar properties.start anchor tag style text, .ok inner.next)
      | .flowSequenceStart => sequence (readFlowItems fuel token.start true inner.next)
      | .flowMappingStart => mapping (readFlowEntries fuel token.start true inner.next)
      | .sequenceStart =>
        if block then sequence (readBlockItems fuel token.start inner.next) else other
      | .mappingStart =>
        if block then mapping (readBlockEntries fuel token.start inner.next) else other
      | .blockEntry => if afterKey then sequence (readLooseItems fuel inner) else other
      | _ => other

/-- Reads the items of a block list and its end. -/
def readBlockItems : Nat → Mark → Reading → List Tree × Rest
  | 0, _, reading => ([], .ok reading)
  | fuel + 1, start, reading =>
    match reading.peek with
    | .error stop => ([], .error stop)
    | .ok token =>
      match token.kind with
      | .blockEnd => ([], .ok reading.next)
      | .blockEntry =>
        let reading := reading.next
        match reading.peek with
        | .error stop => ([], .error stop)
        | .ok after =>
          let (item, rest) :=
            if after.kind.endsItem then (emptyNode token.stop, .ok reading)
            else readNode fuel true false reading
          match rest with
          | .error stop => ([item], .error stop)
          | .ok reading =>
            let (items, rest) := readBlockItems fuel start reading
            (item :: items, rest)
      | _ => ([], .error (Reading.stop .noEntry token.start (some (.blockCollection, start))))

/-- Reads the items of a block list that is not indented. -/
def readLooseItems : Nat → Reading → List Tree × Rest
  | 0, reading => ([], .ok reading)
  | fuel + 1, reading =>
    match reading.peek with
    | .error stop => ([], .error stop)
    | .ok token =>
      match token.kind with
      | .blockEntry =>
        let reading := reading.next
        match reading.peek with
        | .error stop => ([], .error stop)
        | .ok after =>
          let (item, rest) :=
            if after.kind.endsItem || after.kind.endsBlockNode then
              (emptyNode token.stop, .ok reading)
            else readNode fuel true false reading
          match rest with
          | .error stop => ([item], .error stop)
          | .ok reading =>
            let (items, rest) := readLooseItems fuel reading
            (item :: items, rest)
      | _ => ([], .ok reading)

/-- Reads the entries of a block map and its end. -/
def readBlockEntries : Nat → Mark → Reading → List (Tree × Tree) × Rest
  | 0, _, reading => ([], .ok reading)
  | fuel + 1, start, reading =>
    match reading.peek with
    | .error stop => ([], .error stop)
    | .ok token =>
      match token.kind with
      | .blockEnd => ([], .ok reading.next)
      | .key =>
        let reading := reading.next
        match reading.peek with
        | .error stop => ([], .error stop)
        | .ok after =>
          let (key, rest) :=
            if after.kind.endsBlockNode then (emptyNode token.stop, .ok reading)
            else readNode fuel true true reading
          match rest with
          | .error stop => ([(key, .missing stop)], .error stop)
          | .ok reading =>
            let (value, rest) := readBlockValue fuel reading
            match rest with
            | .error stop => ([(key, value)], .error stop)
            | .ok reading =>
              let (entries, rest) := readBlockEntries fuel start reading
              ((key, value) :: entries, rest)
      | _ => ([], .error (Reading.stop .noKey token.start (some (.blockMapping, start))))

/-- Reads the value after a key of a block map. -/
def readBlockValue : Nat → Reading → Tree × Rest
  | 0, reading => (emptyNode .start, .ok reading)
  | fuel + 1, reading =>
    match reading.peek with
    | .error stop => (.missing stop, .error stop)
    | .ok token =>
      match token.kind with
      | .value =>
        let reading := reading.next
        match reading.peek with
        | .error stop => (.missing stop, .error stop)
        | .ok after =>
          if after.kind.endsBlockNode then (emptyNode token.stop, .ok reading)
          else readNode fuel true true reading
      | _ => (emptyNode token.start, .ok reading)

/-- Reads the items of a list between brackets and its end. -/
def readFlowItems : Nat → Mark → Bool → Reading → List Tree × Rest
  | 0, _, _, reading => ([], .ok reading)
  | fuel + 1, start, first, reading =>
    match reading.peek with
    | .error stop => ([], .error stop)
    | .ok token =>
      let item (token : Token) (reading : Reading) : List Tree × Rest :=
        let one (result : Tree × Rest) : List Tree × Rest :=
          match result.2 with
          | .error stop => ([result.1], .error stop)
          | .ok reading =>
            let (items, rest) := readFlowItems fuel start false reading
            (result.1 :: items, rest)
        match token.kind with
        | .flowSequenceEnd => ([], .ok reading.next)
        | .key => one (readFlowPair fuel token.start reading.next)
        | _ => one (readNode fuel false false reading)
      match token.kind with
      | .flowSequenceEnd => ([], .ok reading.next)
      | .flowEntry =>
        if first then item token reading
        else
          match reading.next.peek with
          | .error stop => ([], .error stop)
          | .ok after => item after reading.next
      | _ =>
        if first then item token reading
        else
          ([], .error (Reading.stop .noListSeparator token.start (some (.flowSequence, start))))

/-- Reads a map of one entry, without braces, as an item of a list. -/
def readFlowPair : Nat → Mark → Reading → Tree × Rest
  | 0, _, reading => (emptyNode .start, .ok reading)
  | fuel + 1, start, reading =>
    let pair (entries : List (Tree × Tree)) (rest : Rest) : Tree × Rest :=
      let rest : Rest := do
        let reading ← rest
        let _ ← reading.peek
        return reading
      (.mapping start none none entries (cutOf rest), rest)
    match reading.peek with
    | .error stop => pair [] (.error stop)
    | .ok token =>
      let (key, rest) :=
        if token.kind.endsListNode then (emptyNode token.stop, .ok reading.next)
        else readNode fuel false false reading
      match rest with
      | .error stop => pair [(key, .missing stop)] (.error stop)
      | .ok reading =>
        match reading.peek with
        | .error stop => pair [(key, .missing stop)] (.error stop)
        | .ok token =>
          match token.kind with
          | .value =>
            let reading := reading.next
            match reading.peek with
            | .error stop => pair [(key, .missing stop)] (.error stop)
            | .ok after =>
              match after.kind with
              | .flowEntry | .flowSequenceEnd =>
                pair [(key, emptyNode after.start)] (.ok reading)
              | _ =>
                let (value, rest) := readNode fuel false false reading
                pair [(key, value)] rest
          | _ => pair [(key, emptyNode token.start)] (.ok reading)

/-- Reads the entries of a map between braces and its end. -/
def readFlowEntries : Nat → Mark → Bool → Reading → List (Tree × Tree) × Rest
  | 0, _, _, reading => ([], .ok reading)
  | fuel + 1, start, first, reading =>
    match reading.peek with
    | .error stop => ([], .error stop)
    | .ok token =>
      let entry (token : Token) (reading : Reading) : List (Tree × Tree) × Rest :=
        let one (key : Tree) (result : Tree × Rest) : List (Tree × Tree) × Rest :=
          match result.2 with
          | .error stop => ([(key, result.1)], .error stop)
          | .ok reading =>
            let (entries, rest) := readFlowEntries fuel start false reading
            ((key, result.1) :: entries, rest)
        match token.kind with
        | .flowMappingEnd => ([], .ok reading.next)
        | .key =>
          let reading := reading.next
          match reading.peek with
          | .error stop => ([], .error stop)
          | .ok after =>
            let (key, rest) :=
              if after.kind.endsMapNode then (emptyNode after.start, .ok reading)
              else readNode fuel false false reading
            match rest with
            | .error stop => ([(key, .missing stop)], .error stop)
            | .ok reading => one key (readFlowValue fuel reading)
        | _ =>
          let (key, rest) := readNode fuel false false reading
          match rest with
          | .error stop => ([(key, .missing stop)], .error stop)
          | .ok reading =>
            match reading.peek with
            | .error stop => ([(key, .missing stop)], .error stop)
            | .ok after => one key (emptyNode after.start, .ok reading)
      match token.kind with
      | .flowMappingEnd => ([], .ok reading.next)
      | .flowEntry =>
        if first then entry token reading
        else
          match reading.next.peek with
          | .error stop => ([], .error stop)
          | .ok after => entry after reading.next
      | _ =>
        if first then entry token reading
        else ([], .error (Reading.stop .noMapSeparator token.start (some (.flowMapping, start))))

/-- Reads the value after a key between braces. -/
def readFlowValue : Nat → Reading → Tree × Rest
  | 0, reading => (emptyNode .start, .ok reading)
  | fuel + 1, reading =>
    match reading.peek with
    | .error stop => (.missing stop, .error stop)
    | .ok token =>
      match token.kind with
      | .value =>
        let reading := reading.next
        match reading.peek with
        | .error stop => (.missing stop, .error stop)
        | .ok after =>
          match after.kind with
          | .flowEntry | .flowMappingEnd => (emptyNode after.start, .ok reading)
          | _ => readNode fuel false false reading
      | _ => (emptyNode token.start, .ok reading)

end

/-! ### Documents -/

/-- The first document of a text. -/
structure Document where
  /-- The document, if the text holds anything. -/
  root : Option Tree
  /-- Why the text cannot be read on right after the document. -/
  late : Option Stop
  /-- Whether anything comes after it. -/
  more : Bool

/-- The handles that are always known. -/
def standardHandles : List (String × String) :=
  [("!", "!"), ("!!", "tag:yaml.org,2002:")]

/-- Takes the directives in front of a document. -/
def takeDirectives : Nat → Bool → Reading → Except Stop Reading
  | 0, _, reading => .ok reading
  | fuel + 1, versionSeen, reading => do
    let token ← reading.peek
    match token.kind with
    | .version major minor =>
      if versionSeen then .error (Reading.stop .duplicateVersion token.start none)
      else if major != 1 || (minor != 1 && minor != 2) then
        .error (Reading.stop .incompatibleVersion token.start none)
      else takeDirectives fuel true reading.next
    | .handle name start =>
      if reading.handles.any (·.1 == name) then
        .error (Reading.stop .duplicateHandle token.start none)
      else
        takeDirectives fuel versionSeen
          { reading.next with handles := reading.handles ++ [(name, start)] }
    | _ => return reading

/-- The document for a tree and the rest of the text. -/
def Document.ofRoot : Tree × Rest → Document
  | (root, .error stop) => ⟨some root, some stop, false⟩
  | (root, .ok reading) =>
    match reading.peek with
    | .error stop => ⟨some root, some stop, false⟩
    | .ok _ =>
      let rest := reading.tokens.dropWhile fun token => token.kind = .documentEnd
      let more := rest.head?.any fun token => token.kind != .endOfText
      ⟨some root, none, more⟩

/-- Reads the first document of tokens. -/
def Document.ofTokens (tokens : List Token) : Document :=
  let halt (stop : Stop) : Document := ⟨some (.missing stop), some stop, false⟩
  let fuel := 4 * tokens.length + 8
  let reading : Reading := ⟨tokens, [], []⟩
  match reading.peek with
  | .error stop => halt stop
  | .ok token =>
    let explicit : Document :=
      match takeDirectives fuel false reading with
      | .error stop => halt stop
      | .ok reading =>
        let reading := { reading with handles := reading.handles ++ standardHandles }
        match reading.peek with
        | .error stop => halt stop
        | .ok token =>
          if token.kind != .documentStart then
            halt (Reading.stop .noDocumentStart token.start none)
          else
            let reading := reading.next
            match reading.peek with
            | .error stop => halt stop
            | .ok after =>
              match after.kind with
              | .version .. | .handle .. | .documentStart | .documentEnd | .endOfText =>
                .ofRoot (emptyNode after.start, .ok reading)
              | _ => .ofRoot (readNode fuel true false reading)
    match token.kind with
    | .endOfText => ⟨none, none, false⟩
    | .version .. | .handle .. | .documentStart => explicit
    | _ => .ofRoot (readNode fuel true false { reading with handles := standardHandles })

/-- Reads the first document of a text. A byte order mark in front of it does not count. -/
def Document.ofText (text : String) : Document :=
  let (offset, chars) := match text.toList with
    | c :: rest => if c.toNat = 0xFEFF then (3, rest) else (0, c :: rest)
    | [] => (0, [])
  match controlOffset? offset chars with
  | some offset =>
    let stop := Stop.text (.control offset)
    ⟨some (.missing stop), some stop, false⟩
  | none => .ofTokens (tokens chars)

end DocPress.Yaml
