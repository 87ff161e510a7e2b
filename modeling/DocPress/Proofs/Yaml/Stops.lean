import DocPress.Proofs.Yaml.Within

/-!
Where reading stops. The trees of a document and the errors of its values take their places from the
tokens, so that reading stops inside of the text.
-/

namespace DocPress.Yaml

variable {total : Nat}

/-! ### Trees -/

/-- Whether a document stops inside of the text. -/
def Stop.Within (total : Nat) : Stop → Prop
  | .text reason => reason.Within total
  | .unknownAnchor mark => mark.line ≤ total

/-- Whether a tree, with all that is in it, starts and stops inside of the text. -/
inductive Tree.Within (total : Nat) : Tree → Prop where
  | scalar {start : Mark} {anchor : Option Nat} {tag : Option String} {style : ScalarStyle}
      {text : String} (there : start.line ≤ total) : Within total (.scalar start anchor tag style text)
  | sequence {start : Mark} {anchor : Option Nat} {tag : Option String} {items : List Tree}
      {cut : Option Stop} (there : start.line ≤ total) (inner : ∀ item ∈ items, Within total item)
      (cuts : ∀ stop, cut = some stop → stop.Within total) :
      Within total (.sequence start anchor tag items cut)
  | mapping {start : Mark} {anchor : Option Nat} {tag : Option String} {entries : List (Tree × Tree)}
      {cut : Option Stop} (there : start.line ≤ total) (keys : ∀ entry ∈ entries, Within total entry.1)
      (values : ∀ entry ∈ entries, Within total entry.2)
      (cuts : ∀ stop, cut = some stop → stop.Within total) :
      Within total (.mapping start anchor tag entries cut)
  | aliased {start : Mark} {target : Nat} : Within total (.alias start target)
  | missing {stop : Stop} (stops : stop.Within total) : Within total (.missing stop)

theorem within_emptyNode {mark : Mark} (there : mark.line ≤ total) : (emptyNode mark).Within total :=
  .scalar there

/-- Whether entries are inside of the text. -/
def EntriesWithin (total : Nat) (entries : List (Tree × Tree)) : Prop :=
  ∀ entry ∈ entries, entry.1.Within total ∧ entry.2.Within total

/-- Entries are inside of the text when their keys and their values are. -/
theorem EntriesWithin.of_keys {entries : List (Tree × Tree)}
    (keys : ∀ entry ∈ entries, entry.1.Within total) (values : ∀ entry ∈ entries, entry.2.Within total) :
    EntriesWithin total entries :=
  fun entry member => ⟨keys entry member, values entry member⟩

namespace Reading

variable {reading : Reading} {token : Token} {stop : Stop}

/-- Whether all tokens that are left are inside of the text. -/
def Within (total : Nat) (reading : Reading) : Prop :=
  ∀ token ∈ reading.tokens, token.Within total

theorem Within.next (inside : reading.Within total) : reading.next.Within total :=
  fun token member => inside token (List.mem_of_mem_drop member)

/-- The next token is inside of the text. -/
theorem Within.peek (inside : reading.Within total) :
    Meets (Stop.Within total) (fun token => token.start.line ≤ total ∧ token.stop.line ≤ total)
      reading.peek := by
  rw [Reading.peek]
  split
  case _ => exact ⟨Nat.zero_le _, Nat.zero_le _⟩
  case _ token rest here =>
    have within := inside token (by simp [here])
    split
    case _ reason broken => exact within.reason reason broken
    case _ => exact ⟨within.start, within.stop⟩

/-- Where a reading inside of the text stops is inside too. -/
theorem Within.stops (inside : reading.Within total) (peek : reading.peek = .error stop) :
    stop.Within total := by
  have meets := inside.peek
  rwa [peek] at meets

/-- The next token of a reading inside of the text lies inside. -/
theorem Within.starts (inside : reading.Within total) (peek : reading.peek = .ok token) :
    token.start.line ≤ total ∧ token.stop.line ≤ total := by
  have meets := inside.peek
  rwa [peek] at meets

/-- An anchor is remembered without leaving the text. -/
theorem Within.setAnchor (inside : reading.Within total) (name : Option String) :
    (reading.setAnchor name).2.Within total := by
  cases name with
  | none => exact inside
  | some name => exact inside

/-- The properties of a node start inside of the text. -/
structure Properties.Within (total : Nat) (properties : Properties) : Prop where
  start : properties.start.line ≤ total
  tag : ∀ tag, properties.tag = some tag → tag.2.2.line ≤ total

/-- The properties of a node are read inside of the text. -/
theorem meets_properties (inside : reading.Within total) :
    Meets (Stop.Within total) (fun taken => taken.1.Within total ∧ taken.2.Within total)
      reading.properties := by
  rw [properties]
  refine inside.peek.bind fun token ⟨starts, _⟩ => ?_
  have next := inside.next
  split
  · refine next.peek.bind fun after ⟨later, _⟩ => ?_
    split
    · refine next.next.peek.bind fun _ _ => ?_
      refine ⟨⟨starts, ?_⟩, next.next⟩
      rintro _ ⟨⟩
      exact later
    · exact ⟨⟨starts, nofun⟩, next⟩
  · refine next.peek.bind fun after _ => ?_
    split
    · refine next.next.peek.bind fun _ _ => ?_
      refine ⟨⟨starts, ?_⟩, next.next⟩
      rintro _ ⟨⟩
      exact starts
    · refine ⟨⟨starts, ?_⟩, next⟩
      rintro _ ⟨⟩
      exact starts
  · exact ⟨⟨starts, nofun⟩, inside⟩

/-- Resolving a tag stops inside of the text. -/
theorem meets_resolve {properties : Properties} (within : properties.Within total) :
    Meets (Stop.Within total) (fun _ => True) (reading.resolve properties) := by
  rw [resolve]
  split
  case _ => trivial
  case _ handle suffix mark same =>
    split
    · trivial
    · split
      · trivial
      · exact within.tag _ same

end Reading

/-- Whether what has been read, and where reading goes on or stops, is inside of the text. -/
structure Gives {α : Type} (total : Nat) (wanted : α → Prop) (result : α × Rest) : Prop where
  value : wanted result.1
  rest : Meets (Stop.Within total) (Reading.Within total) result.2

/-- Where reading is cut off is inside of the text. -/
theorem within_cutOf {rest : Rest} (within : Meets (Stop.Within total) (Reading.Within total) rest) :
    ∀ stop, cutOf rest = some stop → stop.Within total := by
  intro stop cut
  cases rest with
  | ok reading => cases cut
  | error stop =>
      cases cut
      exact within

/-! ### Nodes -/

section Nodes

theorem gives_empty {mark : Mark} {reading : Reading} (there : mark.line ≤ total)
    (inside : reading.Within total) : Gives total (Tree.Within total) (emptyNode mark, .ok reading) :=
  ⟨.scalar there, inside⟩

theorem gives_missing {stop : Stop} (stops : stop.Within total) :
    Gives total (Tree.Within total) (.missing stop, .error stop) :=
  ⟨.missing stops, stops⟩

/-- Whether items are inside of the text. -/
def ItemsWithin (total : Nat) (items : List Tree) : Prop :=
  ∀ item ∈ items, item.Within total

/-- An item in front of others. -/
theorem Gives.items {one : Tree × Rest} {more : Reading → List Tree × Rest}
    (first : Gives total (Tree.Within total) one)
    (later : ∀ reading : Reading, reading.Within total → Gives total (ItemsWithin total) (more reading)) :
    Gives total (ItemsWithin total)
      (match one.2 with
      | .error stop => ([one.1], .error stop)
      | .ok reading => (one.1 :: (more reading).1, (more reading).2)) := by
  obtain ⟨item, rest⟩ := one
  cases rest with
  | error stop => exact ⟨List.forall_mem_singleton.2 first.value, first.rest⟩
  | ok reading =>
      have more := later reading first.rest
      exact ⟨List.forall_mem_cons.2 ⟨first.value, more.value⟩, more.rest⟩

theorem gives_nothing {stop : Stop} (stops : stop.Within total) :
    Gives total (ItemsWithin total) ([], .error stop) :=
  ⟨nofun, stops⟩

variable {start : Mark} {anchor : Option Nat} {tag : Option String}

/-- A sequence is inside of the text when its items are. -/
theorem Gives.sequence {result : List Tree × Rest} (inner : Gives total (ItemsWithin total) result)
    (there : start.line ≤ total) :
    Gives total (Tree.Within total) (.sequence start anchor tag result.1 (cutOf result.2), result.2) :=
  ⟨.sequence there inner.value (within_cutOf inner.rest), inner.rest⟩

/-- A mapping is inside of the text when its entries are. -/
theorem Gives.mapping {result : List (Tree × Tree) × Rest}
    (inner : Gives total (EntriesWithin total) result) (there : start.line ≤ total) :
    Gives total (Tree.Within total) (.mapping start anchor tag result.1 (cutOf result.2), result.2) :=
  ⟨.mapping there (fun entry member => (inner.value entry member).1)
    (fun entry member => (inner.value entry member).2) (within_cutOf inner.rest), inner.rest⟩

theorem gives_end {reading : Reading} (inside : reading.Within total) :
    Gives total (ItemsWithin total) ([], .ok reading) :=
  ⟨nofun, inside⟩

/-- An item between brackets, or the end of them. -/
theorem Gives.flowItem (kind : TokenKind) {ended pair node : List Tree × Rest}
    (ends : Gives total (ItemsWithin total) ended) (keyed : Gives total (ItemsWithin total) pair)
    (other : Gives total (ItemsWithin total) node) :
    Gives total (ItemsWithin total)
      (match kind with
      | .flowSequenceEnd => ended
      | .key => pair
      | _ => node) := by
  split
  · exact ends
  · exact keyed
  · exact other

theorem gives_noEntry {stop : Stop} (stops : stop.Within total) :
    Gives total (EntriesWithin total) ([], .error stop) :=
  ⟨nofun, stops⟩

/-- A key and its value in front of other entries. -/
theorem Gives.entries {key : Tree × Rest} {value : Reading → Tree × Rest}
    {more : Reading → List (Tree × Tree) × Rest} (first : Gives total (Tree.Within total) key)
    (behind : ∀ reading : Reading, reading.Within total → Gives total (Tree.Within total) (value reading))
    (later : ∀ reading : Reading, reading.Within total →
      Gives total (EntriesWithin total) (more reading)) :
    Gives total (EntriesWithin total)
      (match key.2 with
      | .error stop => ([(key.1, .missing stop)], .error stop)
      | .ok reading =>
        match (value reading).2 with
        | .error stop => ([(key.1, (value reading).1)], .error stop)
        | .ok reading' =>
          ((key.1, (value reading).1) :: (more reading').1, (more reading').2)) := by
  obtain ⟨key, rest⟩ := key
  cases rest with
  | error stop => exact ⟨List.forall_mem_singleton.2 ⟨first.value, .missing first.rest⟩, first.rest⟩
  | ok reading =>
      have own := behind reading first.rest
      dsimp only
      generalize value reading = result at own
      obtain ⟨value, rest⟩ := result
      cases rest with
      | error stop => exact ⟨List.forall_mem_singleton.2 ⟨first.value, own.value⟩, own.rest⟩
      | ok reading =>
          have more := later reading own.rest
          exact ⟨List.forall_mem_cons.2 ⟨⟨first.value, own.value⟩, more.value⟩, more.rest⟩

theorem gives_lastEntry {reading : Reading} (inside : reading.Within total) :
    Gives total (EntriesWithin total) ([], .ok reading) :=
  ⟨nofun, inside⟩

/-- Entries behind a token that is not taken. -/
theorem gives_peek {reading : Reading} (inside : reading.Within total)
    {read : Token → List (Tree × Tree) × Rest}
    (goesOn : ∀ token : Token, token.start.line ≤ total →
      Gives total (EntriesWithin total) (read token)) :
    Gives total (EntriesWithin total)
      (match reading.peek with
      | .error stop => ([], .error stop)
      | .ok token => read token) := by
  split
  case _ stop peek => exact gives_noEntry (inside.stops peek)
  case _ token peek => exact goesOn token (inside.starts peek).1

/-- A key without a value in front of other entries. -/
theorem Gives.loneKey {key : Tree × Rest} {more : Reading → List (Tree × Tree) × Rest}
    (first : Gives total (Tree.Within total) key)
    (later : ∀ reading : Reading, reading.Within total →
      Gives total (EntriesWithin total) (more reading)) :
    Gives total (EntriesWithin total)
      (match key.2 with
      | .error stop => ([(key.1, .missing stop)], .error stop)
      | .ok reading =>
        match reading.peek with
        | .error stop => ([(key.1, .missing stop)], .error stop)
        | .ok after => ((key.1, emptyNode after.start) :: (more reading).1, (more reading).2)) := by
  obtain ⟨key, rest⟩ := key
  cases rest with
  | error stop => exact ⟨List.forall_mem_singleton.2 ⟨first.value, .missing first.rest⟩, first.rest⟩
  | ok reading =>
      have inside : reading.Within total := first.rest
      dsimp only
      split
      case _ stop peek =>
        have stops := inside.stops peek
        exact ⟨List.forall_mem_singleton.2 ⟨first.value, .missing stops⟩, stops⟩
      case _ after peek =>
        have more := later reading inside
        have empty := within_emptyNode (inside.starts peek).1
        exact ⟨List.forall_mem_cons.2 ⟨⟨first.value, empty⟩, more.value⟩, more.rest⟩

/-- An entry between braces, or the end of them. -/
theorem Gives.flowEntry (kind : TokenKind) {ended keyed bare : List (Tree × Tree) × Rest}
    (ends : Gives total (EntriesWithin total) ended) (marked : Gives total (EntriesWithin total) keyed)
    (other : Gives total (EntriesWithin total) bare) :
    Gives total (EntriesWithin total)
      (match kind with
      | .flowMappingEnd => ended
      | .key => keyed
      | _ => bare) := by
  split
  · exact ends
  · exact marked
  · exact other

/-- A map of one entry without braces. -/
theorem gives_pair {entries : List (Tree × Tree)} {rest : Rest} (there : start.line ≤ total)
    (within : EntriesWithin total entries)
    (goesOn : Meets (Stop.Within total) (Reading.Within total) rest) :
    Gives total (Tree.Within total)
      (let rest : Rest := do
        let reading ← rest
        let _ ← reading.peek
        return reading
      (.mapping start none none entries (cutOf rest), rest)) := by
  have after : Meets (Stop.Within total) (Reading.Within total) (do
      let reading ← rest
      let _ ← reading.peek
      return reading) :=
    goesOn.bind fun reading inside => inside.peek.bind fun _ _ => inside
  exact ⟨.mapping there (fun entry member => (within entry member).1)
    (fun entry member => (within entry member).2) (within_cutOf after), after⟩

theorem entriesWithin_one {key value : Tree} (first : key.Within total) (second : value.Within total) :
    EntriesWithin total [(key, value)] :=
  List.forall_mem_singleton.2 ⟨first, second⟩

mutual

/-- A node is read inside of the text. -/
theorem gives_readNode (fuel : Nat) (block afterKey : Bool) (reading : Reading)
    (inside : reading.Within total) :
    Gives total (Tree.Within total) (readNode fuel block afterKey reading) := by
  cases fuel with
  | zero => exact gives_empty (Nat.zero_le _) inside
  | succ fuel =>
      rw [readNode]
      split
      case _ stop peek => exact gives_missing (inside.stops peek)
      case _ token peek =>
        have starts := (inside.starts peek).1
        split
        case _ name _ =>
          split
          · exact ⟨.aliased, inside.next⟩
          · exact gives_missing starts
        case _ =>
          have taken := Reading.meets_properties inside
          split
          case _ stop refused =>
            rw [refused] at taken
            exact gives_missing taken
          case _ properties behind found =>
            rw [found] at taken
            have resolved := @Reading.meets_resolve _ behind _ taken.1
            split
            case _ stop refused =>
              rw [refused] at resolved
              exact gives_missing resolved
            case _ tag _ =>
              exact gives_readContent fuel block afterKey properties tag behind taken.1 taken.2

/-- What follows the properties of a node is read inside of the text. -/
theorem gives_readContent (fuel : Nat) (block afterKey : Bool) (properties : Reading.Properties)
    (tag : Option String) (reading : Reading) (own : properties.Within total)
    (inside : reading.Within total) :
    Gives total (Tree.Within total) (readContent fuel block afterKey properties tag reading) := by
  cases fuel with
  | zero => exact gives_empty (Nat.zero_le _) inside
  | succ fuel =>
      have set := inside.setAnchor properties.anchor
      rw [readContent]
      split
      case _ stop peek => exact gives_missing (inside.stops peek)
      case _ token peek =>
        have starts := (inside.starts peek).1
        generalize reading.setAnchor properties.anchor = anchored at set
        obtain ⟨anchor, inner⟩ := anchored
        have next := set.next
        -- A token that begins no content leaves a node empty, if there is an anchor or a tag for
        -- it.
        have other (activity : Activity) : Gives total (Tree.Within total)
            (if properties.anchor.isSome || tag.isSome then
              (.scalar properties.start anchor tag .plain "", .ok inner)
            else
              let stop := Reading.stop .noContent token.start (some (activity, properties.start))
              (.missing stop, .error stop)) := by
          split
          · exact ⟨.scalar own.start, set⟩
          · exact gives_missing starts
        dsimp only
        split
        · exact ⟨.scalar own.start, next⟩
        · exact (gives_readFlowItems fuel token.start true inner.next next).sequence own.start
        · exact (gives_readFlowEntries fuel token.start true inner.next next).mapping own.start
        · split
          · exact (gives_readBlockItems fuel token.start inner.next next).sequence own.start
          · exact other _
        · split
          · exact (gives_readBlockEntries fuel token.start inner.next next).mapping own.start
          · exact other _
        · split
          · exact (gives_readLooseItems fuel inner set).sequence own.start
          · exact other _
        · exact other _

/-- The items of a block sequence are read inside of the text. -/
theorem gives_readBlockItems (fuel : Nat) (start : Mark) (reading : Reading)
    (inside : reading.Within total) :
    Gives total (ItemsWithin total) (readBlockItems fuel start reading) := by
  cases fuel with
  | zero => exact gives_end inside
  | succ fuel =>
      rw [readBlockItems]
      split
      case _ stop peek => exact gives_nothing (inside.stops peek)
      case _ token peek =>
        obtain ⟨starts, stops⟩ := inside.starts peek
        split
        · exact gives_end inside.next
        · dsimp only
          split
          case _ stop peek => exact gives_nothing (inside.next.stops peek)
          case _ after _ =>
            refine Gives.items ?_ fun reading => gives_readBlockItems fuel start reading
            split
            · exact gives_empty stops inside.next
            · exact gives_readNode fuel true false reading.next inside.next
        · exact gives_nothing starts

/-- Reading the items of a list that is not indented stays inside of the text. -/
theorem gives_readLooseItems (fuel : Nat) (reading : Reading) (inside : reading.Within total) :
    Gives total (ItemsWithin total) (readLooseItems fuel reading) := by
  cases fuel with
  | zero => exact gives_end inside
  | succ fuel =>
      rw [readLooseItems]
      split
      case _ stop peek => exact gives_nothing (inside.stops peek)
      case _ token peek =>
        split
        · dsimp only
          split
          case _ stop peek => exact gives_nothing (inside.next.stops peek)
          case _ after _ =>
            refine Gives.items ?_ fun reading => gives_readLooseItems fuel reading
            split
            · exact gives_empty (inside.starts peek).2 inside.next
            · exact gives_readNode fuel true false reading.next inside.next
        · exact gives_end inside

/-- The entries of a block mapping are read inside of the text. -/
theorem gives_readBlockEntries (fuel : Nat) (start : Mark) (reading : Reading)
    (inside : reading.Within total) :
    Gives total (EntriesWithin total) (readBlockEntries fuel start reading) := by
  cases fuel with
  | zero => exact gives_lastEntry inside
  | succ fuel =>
      rw [readBlockEntries]
      split
      case _ stop peek => exact gives_noEntry (inside.stops peek)
      case _ token peek =>
        obtain ⟨starts, stops⟩ := inside.starts peek
        split
        · exact gives_lastEntry inside.next
        · dsimp only
          split
          case _ stop peek => exact gives_noEntry (inside.next.stops peek)
          case _ after _ =>
            refine Gives.entries ?_ (fun reading => gives_readBlockValue fuel reading)
              fun reading => gives_readBlockEntries fuel start reading
            split
            · exact gives_empty stops inside.next
            · exact gives_readNode fuel true true reading.next inside.next
        · exact gives_noEntry starts

/-- Reading the value of a block map stays inside of the text. -/
theorem gives_readBlockValue (fuel : Nat) (reading : Reading) (inside : reading.Within total) :
    Gives total (Tree.Within total) (readBlockValue fuel reading) := by
  cases fuel with
  | zero => exact gives_empty (Nat.zero_le _) inside
  | succ fuel =>
      rw [readBlockValue]
      split
      case _ stop peek => exact gives_missing (inside.stops peek)
      case _ token peek =>
        obtain ⟨starts, stops⟩ := inside.starts peek
        split
        · dsimp only
          split
          case _ stop peek => exact gives_missing (inside.next.stops peek)
          case _ after _ =>
            split
            · exact gives_empty stops inside.next
            · exact gives_readNode fuel true true reading.next inside.next
        · exact gives_empty starts inside

/-- The items of a flow sequence are read inside of the text. -/
theorem gives_readFlowItems (fuel : Nat) (start : Mark) (first : Bool) (reading : Reading)
    (inside : reading.Within total) :
    Gives total (ItemsWithin total) (readFlowItems fuel start first reading) := by
  cases fuel with
  | zero => exact gives_end inside
  | succ fuel =>
      rw [readFlowItems]
      split
      case _ stop peek => exact gives_nothing (inside.stops peek)
      case _ token peek =>
        have one {result : Tree × Rest} (first : Gives total (Tree.Within total) result) :=
          Gives.items first fun reading => gives_readFlowItems fuel start false reading
        have item (token : Token) (reading : Reading) (starts : token.start.line ≤ total)
            (inside : reading.Within total) :=
          Gives.flowItem token.kind (gives_end inside.next)
            (one (gives_readFlowPair fuel token.start reading.next starts inside.next))
            (one (gives_readNode fuel false false reading inside))
        have starts := (inside.starts peek).1
        have next := inside.next
        dsimp only
        split
        case _ => exact gives_end next
        case _ =>
          split
          · exact item token reading starts inside
          · split
            case _ stop peek => exact gives_nothing (next.stops peek)
            case _ after peek => exact item after reading.next (next.starts peek).1 next
        case _ =>
          split
          · exact item token reading starts inside
          · exact gives_nothing starts

/-- Reading a pair inside of brackets stays inside of the text. -/
theorem gives_readFlowPair (fuel : Nat) (start : Mark) (reading : Reading) (there : start.line ≤ total)
    (inside : reading.Within total) :
    Gives total (Tree.Within total) (readFlowPair fuel start reading) := by
  cases fuel with
  | zero => exact gives_empty (Nat.zero_le _) inside
  | succ fuel =>
      rw [readFlowPair]
      dsimp only
      split
      case _ stop peek => exact gives_pair there nofun (inside.stops peek)
      case _ token peek =>
        have key : Gives total (Tree.Within total)
            (if token.kind.endsListNode then (emptyNode token.stop, .ok reading.next)
            else readNode fuel false false reading) := by
          split
          · exact gives_empty (inside.starts peek).2 inside.next
          · exact gives_readNode fuel false false reading inside
        -- Whether the key was left out does not matter any more, only where it leads.
        generalize (if token.kind.endsListNode then (emptyNode token.stop, .ok reading.next)
          else readNode fuel false false reading) = result at key
        obtain ⟨key, rest⟩ := result
        obtain ⟨named, goesOn⟩ := key
        cases rest with
        | error stop => exact gives_pair there (entriesWithin_one named (.missing goesOn)) goesOn
        | ok reading =>
            have inside : reading.Within total := goesOn
            dsimp only
            split
            case _ stop peek =>
              have stops := inside.stops peek
              exact gives_pair there (entriesWithin_one named (.missing stops)) stops
            case _ token peek =>
              split
              · split
                case _ stop peek =>
                  have stops := inside.next.stops peek
                  exact gives_pair there (entriesWithin_one named (.missing stops)) stops
                case _ after peek =>
                  have empty := within_emptyNode (inside.next.starts peek).1
                  split
                  · exact gives_pair there (entriesWithin_one named empty) (.ok inside.next)
                  · exact gives_pair there (entriesWithin_one named empty) (.ok inside.next)
                  · have value := gives_readNode fuel false false reading.next inside.next
                    exact gives_pair there (entriesWithin_one named value.value) value.rest
              · have empty := within_emptyNode (inside.starts peek).1
                exact gives_pair there (entriesWithin_one named empty) (.ok inside)

/-- The entries of a flow mapping are read inside of the text. -/
theorem gives_readFlowEntries (fuel : Nat) (start : Mark) (first : Bool) (reading : Reading)
    (inside : reading.Within total) :
    Gives total (EntriesWithin total) (readFlowEntries fuel start first reading) := by
  cases fuel with
  | zero => exact gives_lastEntry inside
  | succ fuel =>
      rw [readFlowEntries]
      dsimp only
      split
      case _ stop peek => exact gives_noEntry (inside.stops peek)
      case _ token peek =>
        have more (reading : Reading) (inside : reading.Within total) :=
          gives_readFlowEntries fuel start false reading inside
        have key (after : Token) (starts : after.start.line ≤ total) (reading : Reading)
            (inside : reading.Within total) : Gives total (Tree.Within total)
              (if after.kind.endsMapNode then (emptyNode after.start, .ok reading)
              else readNode fuel false false reading) := by
          split
          · exact gives_empty starts inside
          · exact gives_readNode fuel false false reading inside
        have entry (kind : TokenKind) (reading : Reading) (inside : reading.Within total) :=
          Gives.flowEntry kind (gives_lastEntry inside.next)
            (gives_peek inside.next fun after starts =>
              Gives.entries (key after starts reading.next inside.next)
                (fun reading inside => gives_readFlowValue fuel reading inside) more)
            (Gives.loneKey (gives_readNode fuel false false reading inside) more)
        have starts := (inside.starts peek).1
        have next := inside.next
        split
        case _ => exact gives_lastEntry next
        case _ =>
          split
          · exact entry token.kind reading inside
          · exact gives_peek next fun after _ => entry after.kind reading.next next
        case _ =>
          split
          · exact entry token.kind reading inside
          · exact gives_noEntry starts

/-- Reading the value of a pair inside of brackets stays inside of the text. -/
theorem gives_readFlowValue (fuel : Nat) (reading : Reading) (inside : reading.Within total) :
    Gives total (Tree.Within total) (readFlowValue fuel reading) := by
  cases fuel with
  | zero => exact gives_empty (Nat.zero_le _) inside
  | succ fuel =>
      rw [readFlowValue]
      split
      case _ stop peek => exact gives_missing (inside.stops peek)
      case _ token peek =>
        have starts := (inside.starts peek).1
        split
        · dsimp only
          split
          case _ stop peek => exact gives_missing (inside.next.stops peek)
          case _ after peek =>
            split
            · exact gives_empty (inside.next.starts peek).1 inside.next
            · exact gives_empty (inside.next.starts peek).1 inside.next
            · exact gives_readNode fuel false false reading.next inside.next
        · exact gives_empty starts inside

end

end Nodes

/-! ### Documents -/

/-- Whether a document is inside of the text. -/
structure Document.Within (total : Nat) (document : Document) : Prop where
  root : ∀ root, document.root = some root → root.Within total
  late : ∀ stop, document.late = some stop → stop.Within total

/-- The directives of a document are passed inside of the text. -/
theorem meets_takeDirectives {fuel : Nat} {seen : Bool} {reading : Reading}
    (inside : reading.Within total) :
    Meets (Stop.Within total) (Reading.Within total) (takeDirectives fuel seen reading) := by
  induction fuel generalizing seen reading with
  | zero => exact inside
  | succ fuel ih =>
      rw [takeDirectives]
      refine inside.peek.bind fun token ⟨starts, _⟩ => ?_
      split
      · refine .ite (fun _ => starts) fun _ => ?_
        exact .ite (fun _ => starts) fun _ => ih inside.next
      · exact .ite (fun _ => starts) fun _ => ih inside.next
      · exact inside

/-- A document whose root was read inside of the text is inside of it. -/
theorem Gives.document {result : Tree × Rest} (gives : Gives total (Tree.Within total) result) :
    (Document.ofRoot result).Within total := by
  obtain ⟨root, rest⟩ := result
  have whole {root' : Tree} (same : some root = some root') : root'.Within total :=
    Option.some.inj same ▸ gives.value
  cases rest with
  | error stop => exact ⟨fun _ => whole, by rintro _ ⟨⟩; exact gives.rest⟩
  | ok reading =>
      have inside : reading.Within total := gives.rest
      rw [Document.ofRoot]
      split
      case _ stop peek => exact ⟨fun _ => whole, by rintro _ ⟨⟩; exact inside.stops peek⟩
      case _ => exact ⟨fun _ => whole, nofun⟩

theorem within_halted {stop : Stop} (stops : stop.Within total) :
    (⟨some (.missing stop), some stop, false⟩ : Document).Within total :=
  ⟨by rintro _ ⟨⟩; exact .missing stops, by rintro _ ⟨⟩; exact stops⟩

/-- A document of tokens inside of the text is inside of it. -/
theorem within_ofTokens {tokens : List Token} (inside : ∀ token ∈ tokens, token.Within total) :
    (Document.ofTokens tokens).Within total := by
  have inside : (⟨tokens, [], []⟩ : Reading).Within total := inside
  rw [Document.ofTokens]
  dsimp only
  split
  case _ stop peek => exact within_halted (inside.stops peek)
  case _ token peek =>
    split
    case h_1 => exact ⟨nofun, nofun⟩
    case h_5 =>
      exact (gives_readNode _ true false ⟨tokens, [], standardHandles⟩ inside).document
    -- directives or a marker in front of the document
    all_goals
      have directives := @meets_takeDirectives total (4 * tokens.length + 8) false _ inside
      split
      case _ stop refused =>
        rw [refused] at directives
        exact within_halted directives
      case _ reading found =>
        rw [found] at directives
        have inside : ({ reading with handles := reading.handles ++ standardHandles } :
          Reading).Within total := directives
        split
        case _ stop peek => exact within_halted (inside.stops peek)
        case _ token peek =>
          split
          · exact within_halted (inside.starts peek).1
          · split
            case _ stop peek => exact within_halted (inside.next.stops peek)
            case _ after peek =>
              have empty := (gives_empty (inside.next.starts peek).1 inside.next).document
              have node := (gives_readNode (4 * tokens.length + 8) true false _ inside.next).document
              split
              · exact empty
              · exact empty
              · exact empty
              · exact empty
              · exact empty
              · exact node

theorem Token.Within.mono {token : Token} {more : Nat} (inside : token.Within total)
    (bound : total ≤ more) : token.Within more :=
  ⟨Nat.le_trans inside.start bound, Nat.le_trans inside.stop bound,
    fun reason broken => Nat.le_trans (inside.reason reason broken) bound⟩

/-- A document is inside of the text that it is read from. -/
theorem within_ofText (text : String) : (Document.ofText text).Within (linesFrom 0 text.toList) := by
  have control (offset : Nat) : (⟨some (.missing (.text (.control offset))),
      some (.text (.control offset)), false⟩ : Document).Within (linesFrom 0 text.toList) :=
    within_halted (Nat.zero_le _)
  have read {chars : List Char} (bound : linesFrom 0 chars ≤ linesFrom 0 text.toList) :
      (Document.ofTokens (tokens chars)).Within (linesFrom 0 text.toList) :=
    within_ofTokens fun token member => (within_tokens chars token member).mono bound
  rw [Document.ofText]
  split
  case _ offset chars front =>
    have bound : linesFrom 0 chars ≤ linesFrom 0 text.toList := by
      split at front
      case _ c rest whole =>
        split at front
        case isTrue =>
          cases front
          rw [whole]
          exact Nat.le_trans (linesFrom_zero_le 1 _) (linesFrom_tail_le 0 c _)
        case isFalse =>
          cases front
          exact Nat.le_of_eq (congrArg (linesFrom 0) whole.symm)
      case _ none =>
        cases front
        exact Nat.le_of_eq (congrArg (linesFrom 0) none.symm)
    split
    · exact control _
    · exact read bound

/-! ### Values -/

/-- Whether the place of an error, if it has one, is inside of the text. -/
def ReadError.Within (total : Nat) (error : ReadError) : Prop :=
  ∀ mark, error.mark? = some mark → mark.line ≤ total

theorem Stop.Within.error {stop : Stop} (stops : stop.Within total) :
    (ReadError.stop stop).Within total := by
  cases stop with
  | text reason | unknownAnchor mark =>
      rintro _ ⟨⟩
      exact stops

/-- A fault of the data at a line of the text is within it. -/
theorem within_data {fault : DataFault} {path : Path} {mark : Mark} (there : mark.line ≤ total) :
    (ReadError.data fault path mark).Within total := by
  rintro _ ⟨⟩
  exact there

/-- Whether a reader of trees stops inside of the text. -/
def Reader.Within (total : Nat) (read : Reader) : Prop :=
  ∀ (path : Path) (tree : Tree) (jumps : Nat), tree.Within total →
    Meets (ReadError.Within total) (fun _ => True) (read path tree jumps)

section Values

variable {read : Reader} {path : Path} {cut : Option Stop} {jumps : Nat}

/-- Reading the items of a sequence stops inside of the text. -/
theorem meets_readItems (reads : Reader.Within total read)
    (cuts : ∀ stop, cut = some stop → stop.Within total) {index : Nat} {items : List Tree}
    (inside : ItemsWithin total items) :
    Meets (ReadError.Within total) (fun _ => True) (readItems read path cut index items jumps) := by
  induction items generalizing index jumps with
  | nil =>
      rw [readItems.eq_def]
      dsimp only
      split
      case _ stop => exact (cuts stop rfl).error
      case _ => exact .ok True.intro
  | cons item rest ih =>
      obtain ⟨first, later⟩ := List.forall_mem_cons.1 inside
      rw [readItems]
      refine (reads _ item jumps first).bind fun value _ => ?_
      exact (ih later).bind fun values _ => .ok True.intro

/-- Reading the entries of a mapping stops inside of the text. -/
theorem meets_readEntries (reads : Reader.Within total read)
    (cuts : ∀ stop, cut = some stop → stop.Within total) {start : Mark} (there : start.line ≤ total)
    {done : List (Value × Value)} {entries : List (Tree × Tree)} (inside : EntriesWithin total entries) :
    Meets (ReadError.Within total) (fun _ => True)
      (readEntries read path start cut done entries jumps) := by
  induction entries generalizing done jumps with
  | nil =>
      rw [readEntries.eq_def]
      dsimp only
      split
      case _ stop => exact (cuts stop rfl).error
      case _ => exact .ok True.intro
  | cons entry rest ih =>
      obtain ⟨⟨named, valued⟩, later⟩ := List.forall_mem_cons.1 inside
      obtain ⟨key, value⟩ := entry
      rw [readEntries]
      refine (reads _ key jumps named).bind fun (name, jumps) _ => ?_
      dsimp only
      split
      · exact within_data there
      · exact (reads _ value jumps valued).bind fun content _ => ih later

/-- A plain scalar is refused for an integer that is too wide only. -/
theorem meets_plain {mark : Mark} (there : mark.line ≤ total) (text : String) (plain : Plain) :
    Meets (ReadError.Within total) (fun _ => True)
      (match plain with
      | .null => .ok Value.null
      | .bool value => .ok (.bool value)
      | .int value => .ok (.int value)
      | .wide value typeName => .error (.data (.wideInteger value typeName) path mark)
      | .float value => .ok (.float value)
      | .string => .ok (.string text)) := by
  cases plain with
  | wide => exact within_data there
  | _ => exact .ok True.intro

/-- Reading the value of a scalar stops inside of the text. -/
theorem meets_scalarValue {mark : Mark} (there : mark.line ≤ total) (tag : Option String)
    (style : ScalarStyle) (text : String) :
    Meets (ReadError.Within total) (fun _ => True) (scalarValue path mark tag style text) := by
  have plain (plain : Plain) := @meets_plain total path mark there text plain
  rw [scalarValue.eq_def]
  dsimp only
  split
  · exact .ite (fun _ => plain _) fun _ => .ok True.intro
  · refine .ite (fun _ => ?_) fun _ => .ite (fun _ => ?_) fun _ => .ite (fun _ => ?_) fun _ =>
      .ite (fun _ => .ite (fun _ => .ok True.intro) fun _ => within_data there) fun _ => .ok True.intro
    · split
      · exact .ok True.intro
      · exact within_data there
    · split
      · exact plain _
      · exact within_data there
    · split
      · exact .ok True.intro
      · exact within_data there

/-- Tags are taken off the keys, entry by entry. -/
theorem withoutKeyTags_eq_map (entries : List (Tree × Tree)) :
    withoutKeyTags entries = entries.map fun entry => (entry.1.withoutTag, entry.2) := by
  induction entries with
  | nil => rw [withoutKeyTags, List.map_nil]
  | cons entry rest ih => rw [withoutKeyTags, ih, List.map_cons]

/-- A tree without its tag is where it was. -/
theorem Tree.Within.withoutTag {tree : Tree} (inside : tree.Within total) :
    tree.withoutTag.Within total := by
  induction inside with
  | scalar there => exact .scalar there
  | sequence there inner cuts => exact .sequence there inner cuts
  | mapping there keys values cuts named _ =>
      rw [Tree.withoutTag, withoutKeyTags_eq_map]
      exact .mapping there (List.forall_mem_map.2 named) (List.forall_mem_map.2 values) cuts
  | aliased => exact .aliased
  | missing stops => exact .missing stops

/-- Without the tags of their keys entries stay within the text. -/
theorem EntriesWithin.withoutKeyTags {entries : List (Tree × Tree)}
    (inside : EntriesWithin total entries) :
    EntriesWithin total (withoutKeyTags entries) := by
  rw [withoutKeyTags_eq_map]
  exact List.forall_mem_map.2 fun entry member =>
    ⟨(inside entry member).1.withoutTag, (inside entry member).2⟩

/-- A reader of trees stops inside of the text if those for what is further inside do. -/
theorem meets_readTree {inner : Option Reader}
    (reads : ∀ read, inner = some read → Reader.Within total read) :
    Reader.Within total (readTree inner) := by
  intro path tree jumps inside
  cases inside with
  | scalar there => exact (meets_scalarValue there _ _ _).bind fun value _ => .ok True.intro
  | sequence there items cuts =>
      cases inner with
      | none =>
          rintro _ ⟨⟩
          exact there
      | some read => exact (meets_readItems (reads read rfl) cuts items).bind fun _ _ => .ok True.intro
  | mapping there keys values cuts =>
      cases inner with
      | none =>
          rintro _ ⟨⟩
          exact there
      | some read =>
          have inside := EntriesWithin.of_keys keys values
          refine (meets_readEntries (reads read rfl) cuts there ?_).bind fun _ _ => .ok True.intro
          split
          · exact inside.withoutKeyTags
          · exact inside
  | aliased => exact nofun
  | missing stops => exact stops.error

/-- A reader behind a tag fails inside of the text, if the one it wraps does. -/
theorem meets_readTagged {inner : Option Reader}
    (reads : ∀ read, inner = some read → Reader.Within total read) :
    Reader.Within total (readTagged inner) := by
  intro path tree jumps inside
  refine (meets_readTree reads path tree jumps inside).bind fun (value, jumps) _ => ?_
  dsimp only
  split
  · exact .ok True.intro
  · exact .ok True.intro

/-- What an alias stands for is read inside of the text. -/
theorem meets_readAlias {anchored : List (Nat × Tree)} {limit : Nat} {inner : Option Reader}
    (nodes : ∀ node ∈ anchored, node.2.Within total)
    (reads : ∀ read, inner = some read → Reader.Within total read) :
    Reader.Within total (readAlias anchored limit inner) := by
  intro path tree jumps inside
  rw [readAlias.eq_def]
  split
  · refine .ite (fun _ => nofun) fun _ => ?_
    split
    case _ number node found =>
      exact meets_readTagged reads path node _ (nodes _ (List.mem_of_find?_eq_some found))
    case _ => exact nofun
  · exact meets_readTagged reads path tree jumps inside

/-- Readers stop inside of the text at every depth. -/
theorem meets_readerAt {anchored : List (Nat × Tree)} {limit : Nat}
    (nodes : ∀ node ∈ anchored, node.2.Within total) (depth : Nat) :
    Reader.Within total (readerAt anchored limit depth) := by
  induction depth with
  | zero => exact meets_readAlias nodes nofun
  | succ depth ih =>
      refine meets_readAlias nodes ?_
      rintro _ ⟨⟩
      exact ih

theorem mem_anchoredItems {node : Nat × Tree} {items : List Tree} (member : node ∈ anchoredItems items) :
    ∃ item ∈ items, node ∈ item.anchored := by
  induction items with
  | nil => cases member
  | cons item rest ih =>
      rcases List.mem_append.1 member with here | there
      · exact ⟨item, List.mem_cons_self, here⟩
      · obtain ⟨other, inside, member⟩ := ih there
        exact ⟨other, List.mem_cons_of_mem _ inside, member⟩

theorem mem_anchoredEntries {node : Nat × Tree} {entries : List (Tree × Tree)}
    (member : node ∈ anchoredEntries entries) :
    ∃ entry ∈ entries, node ∈ entry.1.anchored ∨ node ∈ entry.2.anchored := by
  induction entries with
  | nil => cases member
  | cons entry rest ih =>
      obtain ⟨key, value⟩ := entry
      rcases List.mem_append.1 member with here | there
      · exact ⟨_, List.mem_cons_self, List.mem_append.1 here⟩
      · obtain ⟨other, inside, member⟩ := ih there
        exact ⟨other, List.mem_cons_of_mem _ inside, member⟩

/-- The nodes with an anchor in a tree are inside of the text when the tree is. -/
theorem Tree.Within.anchored {tree : Tree} (inside : tree.Within total) :
    ∀ node ∈ tree.anchored, node.2.Within total := by
  have own {tree : Tree} {anchor : Option Nat} (here : tree.Within total) :
      ∀ node ∈ (anchor.map fun number => (number, tree)).toList, node.2.Within total := by
    cases anchor with
    | none => exact nofun
    | some number => exact List.forall_mem_singleton.2 here
  intro node member
  induction inside with
  | scalar there => exact own (.scalar there) node member
  | sequence there items cuts ih =>
      rcases List.mem_append.1 member with here | there'
      · exact own (.sequence there items cuts) node here
      · obtain ⟨item, among, member⟩ := mem_anchoredItems there'
        exact ih item among member
  | mapping there keys values cuts named valued =>
      rcases List.mem_append.1 member with here | there'
      · exact own (.mapping there keys values cuts) node here
      · obtain ⟨entry, among, member | member⟩ := mem_anchoredEntries there'
        · exact named entry among member
        · exact valued entry among member
  | aliased => cases member
  | missing => cases member

end Values

/-- The value of a document is read inside of the text, or reading stops there. -/
theorem Document.Within.value {document : Document} (inside : document.Within total) :
    Meets (ReadError.Within total) (fun _ => True) document.value := by
  rw [Document.value]
  split
  · exact .ok True.intro
  case _ root whole =>
    have within := inside.root _ whole
    have nodes : ∀ node ∈ root.anchored.reverse, node.2.Within total := fun node member =>
      within.anchored node (List.mem_reverse.1 member)
    refine (meets_readerAt nodes depthLimit .root _ 0 within).bind fun (value, jumps) _ => ?_
    dsimp only
    split
    case _ stop late => exact (inside.late stop late).error
    case _ => exact .ite (fun _ => nofun) fun _ => .ok True.intro

/-- The place where reading a text stops is inside of the text. -/
theorem line_le_of_parse {text : String} {error : ReadError} {mark : Mark}
    (stops : parse text = .error error) (place : error.mark? = some mark) :
    mark.line ≤ linesFrom 0 text.toList := by
  have inside := (within_ofText text).value
  rw [← parse, stops] at inside
  exact inside mark place

end DocPress.Yaml
