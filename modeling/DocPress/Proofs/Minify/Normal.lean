import DocPress.Proofs.Minify

/-!
The normal form of trees. One pass of tidying up brings a tree into it: no fragment is left below the
root, texts do not stand side by side, none is empty, and outside code white space is single blanks.
What one pass leaves out is never between two texts and never beside a blank that stays, so that
another pass finds every node beside the same neighbours and changes nothing.
-/

namespace DocPress

namespace Node

mutual

/-- The nodes of a tree that are neither code nor inside code, in document order. -/
def outsideCode : Node → List Node
  | ⟨kind, children⟩ =>
    if kind.isCode then [] else ⟨kind, children⟩ :: outsideCodeAll children

/-- The nodes of trees that are neither code nor inside code, in document order. -/
def outsideCodeAll : List Node → List Node
  | [] => []
  | node :: rest => node.outsideCode ++ outsideCodeAll rest

end

end Node

namespace Minify

open Node

/-- Whether no two texts stand side by side. -/
def AreParted (nodes : List Node) : Prop :=
  nodes.IsChain fun first next => ¬(first.kind.isText = true ∧ next.kind.isText = true)

/-- Whether the white space of a text is single blanks. -/
structure IsCollapsed (text : List Char) : Prop where
  blanks : ∀ c ∈ text, isSpace c = true → c = ' '
  single : Text.IsApart ' ' text

/-- Whether a tree is in normal form. -/
structure IsNormal (tree : Node) : Prop where
  dissolved : ∀ node ∈ tree.walk, ∀ child ∈ node.children, child.kind ≠ .fragment
  parted : ∀ node ∈ tree.walk, AreParted node.children
  filled : ∀ node ∈ tree.walk, ∀ child ∈ node.children, child.kind ≠ .text ""
  collapsed : ∀ node ∈ tree.outsideCode, ∀ child ∈ node.children, ∀ value,
    child.kind = .text value → IsCollapsed value.toList

/-! ### White space -/

/-- Collapsed text has its white space as single blanks, and begins with none inside a run of it. -/
theorem isCollapsed_collapseFrom (inRun : Bool) (text : List Char) :
    IsCollapsed (collapseFrom inRun text) ∧
      (inRun = true → (collapseFrom inRun text).head? ≠ some ' ') := by
  -- Within a run no space comes first, so that none is put behind another.
  induction text generalizing inRun with
  | nil => exact ⟨⟨List.forall_mem_nil _, List.isChain_nil⟩, fun _ => (Option.some_ne_none ' ').symm⟩
  | cons c rest ih =>
      cases space : isSpace c with
      | true =>
          obtain ⟨inside, start⟩ := ih true
          cases inRun with
          | true => simpa [collapseFrom, space] using ih true
          | false =>
              rw [collapseFrom, if_pos space, if_neg Bool.false_ne_true]
              refine ⟨⟨List.forall_mem_cons.2 ⟨fun _ => rfl, inside.blanks⟩,
                List.isChain_cons.2 ⟨?_, inside.single⟩⟩, fun run => absurd run Bool.false_ne_true⟩
              rintro next behind ⟨-, rfl⟩
              exact start rfl behind
      | false =>
          have other : c ≠ ' ' := by
            rintro rfl
            cases space
          obtain ⟨inside, -⟩ := ih false
          rw [collapseFrom, if_neg (by simp [space])]
          refine ⟨⟨List.forall_mem_cons.2 ⟨fun blank => ?_, inside.blanks⟩,
            List.isChain_cons.2 ⟨fun _ _ both => other both.1, inside.single⟩⟩, fun _ same => ?_⟩
          · rw [space] at blank
            cases blank
          · exact other (Option.some.inj same)

theorem isCollapsed_collapse (value : String) : IsCollapsed (collapse value).toList := by
  rw [toList_collapse]
  exact (isCollapsed_collapseFrom false value.toList).1

theorem collapse_collapse (value : String) : collapse (collapse value) = collapse value := by
  rw [← String.toList_inj, toList_collapse, toList_collapse, collapseFrom_collapseFrom]

/-- Collapsing a node a second time changes nothing. -/
theorem collapseText_collapseText (node : Node) :
    collapseText (collapseText node) = collapseText node := by
  obtain ⟨kind, children⟩ := node
  cases kind with
  | text value => rw [collapseText, collapseText, collapse_collapse]
  | _ => rfl

theorem isText_collapseText (node : Node) : (collapseText node).kind.isText = node.kind.isText := by
  unfold collapseText
  split <;> rfl

/-! ### Texts side by side -/

theorem areParted_cons {node : Node} {rest : List Node} : AreParted (node :: rest) ↔
    (node.kind.isText = true → ∀ next ∈ rest.head?, next.kind.isText = false) ∧ AreParted rest := by
  rw [AreParted, AreParted, List.isChain_cons]
  refine and_congr_left fun _ => ⟨fun apart text next behind => ?_, fun apart next behind both => ?_⟩
  · exact Bool.eq_false_iff.2 fun also => apart next behind ⟨text, also⟩
  · rw [apart both.1 next behind] at both
    cases both.2

theorem exists_of_isText {node : Node} (text : node.kind.isText = true) :
    ∃ value children, node = ⟨.text value, children⟩ := by
  obtain ⟨kind, children⟩ := node
  obtain ⟨value, rfl⟩ := NodeKind.exists_of_isText text
  exact ⟨value, children, rfl⟩

/-- No two merged texts stand side by side. -/
theorem areParted_mergeTexts (nodes : List Node) : AreParted (mergeTexts nodes) := by
  fun_induction mergeTexts nodes with
  | case1 => exact List.isChain_nil
  | case2 rest value children next other more merged ih =>
      rw [merged, areParted_cons] at ih
      exact areParted_cons.2 ih
  | case3 rest node other ih =>
      refine areParted_cons.2 ⟨fun text next behind => Bool.eq_false_iff.2 fun also => ?_, ih⟩
      obtain ⟨value, children, rfl⟩ := exists_of_isText text
      obtain ⟨value', children', rfl⟩ := exists_of_isText also
      obtain ⟨more, merged⟩ := List.head?_eq_some_iff.1 behind
      exact other value children value' children' more rfl merged

theorem mergeTexts_eq_self {nodes : List Node} (parted : AreParted nodes) :
    mergeTexts nodes = nodes := by
  fun_induction mergeTexts nodes with
  | case1 => rfl
  | case2 rest value children next other more merged ih =>
      rw [areParted_cons] at parted
      rw [ih parted.2] at merged
      have apart := parted.1 rfl ⟨.text next, other⟩ (by rw [merged]; rfl)
      cases apart
  | case3 rest node other ih => rw [ih (areParted_cons.1 parted).2]

/-- A change that keeps texts keeps nodes parted. -/
theorem areParted_map {f : Node → Node} (same : ∀ node, (f node).kind.isText = node.kind.isText)
    {nodes : List Node} (parted : AreParted nodes) : AreParted (nodes.map f) := by
  rw [AreParted, List.isChain_map]
  exact parted.imp fun first next apart both => apart (by rwa [same, same] at both)

/-! ### What stays -/

theorem stays_of_not_isText {child : Node} (other : child.kind.isText = false) (parent : NodeKind)
    (inCode : Bool) (before after : Option Node) : stays parent inCode before after child = true := by
  unfold stays
  split
  · next value same =>
      rw [same] at other
      cases other
  · rfl

theorem isText_of_not_stays {parent : NodeKind} {inCode : Bool} {before after : Option Node}
    {child : Node} (goes : ¬stays parent inCode before after child = true) :
    child.kind.isText = true :=
  Bool.not_eq_false _ ▸ mt (stays_of_not_isText · parent inCode before after) goes

/-- What is no text stays in front. -/
theorem head?_keep (parent : NodeKind) (inCode : Bool) (before : Option Node) {nodes : List Node}
    (other : ∀ node ∈ nodes.head?, node.kind.isText = false) :
    (keep parent inCode before nodes).head? = nodes.head? := by
  cases nodes with
  | nil => rfl
  | cons node rest =>
      rw [keep, if_pos (stays_of_not_isText (other node rfl) ..)]
      rfl

/-- Texts that are parted have the same neighbours among the nodes that stay, so that all of those
stay again. In front there may be another node as long as no text comes next. -/
theorem keep_keep {parent : NodeKind} {inCode : Bool} {before before' : Option Node}
    {nodes : List Node} (parted : AreParted nodes)
    (front : (∀ node ∈ nodes.head?, node.kind.isText = false) ∨ before' = before) :
    AreParted (keep parent inCode before nodes) ∧
      keep parent inCode before' (keep parent inCode before nodes) =
        keep parent inCode before nodes := by
  induction nodes generalizing before before' with
  | nil => exact ⟨parted, rfl⟩
  | cons child rest ih =>
      obtain ⟨apart, behind⟩ := areParted_cons.1 parted
      by_cases here : stays parent inCode before rest.head? child = true
      · obtain ⟨inside, again⟩ := @ih (some child) (some child) behind (.inr rfl)
        have start (text : child.kind.isText = true) :=
          head?_keep parent inCode (some child) (apart text)
        rw [keep, if_pos here]
        refine ⟨areParted_cons.2 ⟨fun text => start text ▸ apart text, inside⟩, ?_⟩
        -- A child that stays has the same neighbours when those that go are gone, as no two texts
        -- meet.
        have still : stays parent inCode before' (keep parent inCode (some child) rest).head? child =
            true := by
          cases text : child.kind.isText with
          | false => exact stays_of_not_isText text ..
          | true =>
              obtain rfl := front.resolve_left fun other => by
                have never := other child rfl
                rw [text] at never
                cases never
              rwa [start text]
        rw [keep, if_pos still, again]
      · rw [keep, if_neg here]
        exact ih behind (.inl (apart (isText_of_not_stays here)))

/-- Empty texts do not stay. -/
theorem ne_empty_of_mem_keep {parent : NodeKind} {inCode : Bool} {before : Option Node}
    {nodes : List Node} {child : Node} (member : child ∈ keep parent inCode before nodes) :
    child.kind ≠ .text "" := by
  induction nodes generalizing before with
  | nil => cases member
  | cons node rest ih =>
      rw [keep] at member
      split at member
      · next here =>
          rcases List.mem_cons.1 member with rfl | later
          · intro empty
            simp [stays, empty] at here
          · exact ih later
      · exact ih member

/-! ### Tidied children -/

section

variable {p : Node → Prop}
  (texts : ∀ value next children, p ⟨.text value, children⟩ → p ⟨.text next, children⟩)
include texts

theorem forall_mem_mergeTexts {nodes : List Node} (each : ∀ node ∈ nodes, p node) :
    ∀ node ∈ mergeTexts nodes, p node := by
  fun_induction mergeTexts nodes with
  | case1 => exact each
  | case2 rest value children next other more merged ih =>
      rw [List.forall_mem_cons] at each
      have behind := ih each.2
      rw [merged, List.forall_mem_cons] at behind
      exact List.forall_mem_cons.2 ⟨texts value _ children each.1, behind.2⟩
  | case3 rest node other ih =>
      rw [List.forall_mem_cons] at each ⊢
      exact ⟨each.1, ih each.2⟩

/-- What holds of a text whatever its characters are is kept when nodes are tidied up. -/
theorem forall_mem_tidy (parent : NodeKind) (inCode : Bool) {nodes : List Node}
    (each : ∀ node ∈ nodes, p node) : ∀ node ∈ tidy parent inCode nodes, p node := by
  have merged := forall_mem_mergeTexts texts each
  intro node member
  have inside := (keep_sublist _ _ _ _).subset member
  split at inside
  · exact merged node inside
  · obtain ⟨node, before, rfl⟩ := List.mem_map.1 inside
    have here := merged node before
    unfold collapseText
    split
    · next value children => exact texts value _ children here
    · exact here

end

/-- Whether children are what tidying up makes of children. -/
structure IsTidy (parent : NodeKind) (inCode : Bool) (children : List Node) : Prop where
  dissolved : ∀ child ∈ children, child.kind ≠ .fragment
  parted : AreParted children
  collapsed : inCode = false → ∀ child ∈ children, collapseText child = child
  kept : keep parent inCode none children = children

variable {parent : NodeKind} {inCode : Bool} {children nodes : List Node} {node : Node}

/-- What tidying makes is tidy, if fragments were dissolved before. -/
theorem isTidy_tidy (parent : NodeKind) (inCode : Bool)
    (dissolved : ∀ node ∈ nodes, node.kind ≠ .fragment) :
    IsTidy parent inCode (tidy parent inCode nodes) := by
  have merged := areParted_mergeTexts nodes
  have collapsed :
      AreParted (if inCode then mergeTexts nodes else (mergeTexts nodes).map collapseText) := by
    split
    · exact merged
    · exact areParted_map isText_collapseText merged
  obtain ⟨parted, kept⟩ := @keep_keep parent inCode none none _ collapsed (.inr rfl)
  refine ⟨forall_mem_tidy (fun _ _ _ _ => nofun) parent inCode dissolved, parted, ?_, kept⟩
  rintro rfl child member
  obtain ⟨node, -, rfl⟩ := List.mem_map.1 ((keep_sublist _ _ _ _).subset member)
  exact collapseText_collapseText node

namespace IsTidy

theorem tidy_eq_self (tidied : IsTidy parent inCode children) :
    tidy parent inCode children = children := by
  rw [tidy, mergeTexts_eq_self tidied.parted]
  split
  · exact tidied.kept
  · next outside =>
      rw [List.map_congr_left (tidied.collapsed (Bool.eq_false_iff.2 outside)), List.map_id']
      exact tidied.kept

/-- There is no empty text among tidy children. -/
theorem filled (tidied : IsTidy parent inCode children) :
    ∀ child ∈ children, child.kind ≠ .text "" := by
  intro child member
  rw [← tidied.kept] at member
  exact ne_empty_of_mem_keep member

/-- The texts among tidy children outside code are collapsed. -/
theorem isCollapsed (tidied : IsTidy parent false children) {child : Node} (member : child ∈ children)
    {value : String} (text : child.kind = .text value) : IsCollapsed value.toList := by
  have same := congrArg Node.kind (tidied.collapsed rfl child member)
  obtain ⟨kind, children⟩ := child
  obtain rfl : kind = .text value := text
  rw [← NodeKind.text.inj same]
  exact isCollapsed_collapse value

/-- Below a text, nothing depends on its characters. -/
theorem text {value : String} (tidied : IsTidy (.text value) inCode children) (next : String) :
    IsTidy (.text next) inCode children where
  dissolved := tidied.dissolved
  parted := tidied.parted
  collapsed := tidied.collapsed
  kept := by
    have same (before : Option Node) (nodes : List Node) :
        keep (.text next) inCode before nodes = keep (.text value) inCode before nodes := by
      induction nodes generalizing before with
      | nil => rfl
      | cons node rest ih =>
          rw [keep, keep, ih]
          rfl
    rw [same, tidied.kept]

end IsTidy

/-! ### Tidied trees -/

mutual

/-- Whether the children of all nodes of a tree are tidied up; `inCode` says whether it is inside
code. -/
def IsTidied (inCode : Bool) : Node → Prop
  | ⟨kind, children⟩ =>
    IsTidy kind (inCode || kind.isCode) children ∧ AreTidied (inCode || kind.isCode) children

/-- Whether the children of all nodes of trees are tidied up. -/
def AreTidied (inCode : Bool) : List Node → Prop
  | [] => True
  | node :: rest => IsTidied inCode node ∧ AreTidied inCode rest

end

theorem isTidied_mk {kind : NodeKind} : IsTidied inCode ⟨kind, children⟩ ↔
    IsTidy kind (inCode || kind.isCode) children ∧ AreTidied (inCode || kind.isCode) children := by
  rw [IsTidied]

/-- Trees are tidied when each one is. -/
theorem areTidied_iff_forall : AreTidied inCode nodes ↔ ∀ node ∈ nodes, IsTidied inCode node := by
  induction nodes with
  | nil => simp [AreTidied]
  | cons node rest ih => rw [AreTidied, ih, List.forall_mem_cons]

/-- A tidied text stays tidied with other words. -/
theorem isTidied_text (value next : String) (children : List Node)
    (tidied : IsTidied inCode ⟨.text value, children⟩) : IsTidied inCode ⟨.text next, children⟩ := by
  rw [isTidied_mk] at tidied ⊢
  exact ⟨tidied.1.text next, tidied.2⟩

/-- Tidying keeps children tidied. -/
theorem areTidied_tidy (parent : NodeKind) (inCode : Bool) (tidied : AreTidied inCode nodes) :
    AreTidied inCode (tidy parent inCode nodes) := by
  rw [areTidied_iff_forall] at tidied ⊢
  exact forall_mem_tidy isTidied_text parent inCode tidied

mutual

/-- Tidying up leaves a tidied tree. -/
theorem isTidied_minify : ∀ (inCode : Bool) (node : Node), IsTidied inCode (minify inCode node)
  | inCode, ⟨kind, children⟩ => by
      obtain ⟨dissolved, tidied⟩ := areTidied_spliced (inCode || kind.isCode) children
      rw [minify_mk, isTidied_mk]
      exact ⟨isTidy_tidy kind _ dissolved, areTidied_tidy kind _ tidied⟩

/-- The children of fragments have been tidied up as those of fragments, and so are free of fragments
when they take their place. -/
theorem areTidied_spliced : ∀ (inCode : Bool) (nodes : List Node),
    (∀ node ∈ spliced inCode nodes, node.kind ≠ .fragment) ∧ AreTidied inCode (spliced inCode nodes)
  | inCode, [] => ⟨nofun, trivial⟩
  | inCode, node :: rest => by
      have here := isTidied_minify inCode node
      obtain ⟨dissolved, tidied⟩ := areTidied_spliced inCode rest
      rw [areTidied_iff_forall] at tidied ⊢
      rw [spliced_cons, spliced_singleton, List.forall_mem_append, List.forall_mem_append]
      split
      · next fragment =>
          generalize minify inCode node = whole at here fragment
          obtain ⟨kind, children⟩ := whole
          obtain rfl : kind = .fragment := fragment
          have plain : NodeKind.fragment.isCode = false := rfl
          rw [isTidied_mk, plain, Bool.or_false, areTidied_iff_forall] at here
          exact ⟨⟨here.1.dissolved, dissolved⟩, here.2, tidied⟩
      · next other =>
          exact ⟨⟨List.forall_mem_singleton.2 other, dissolved⟩,
            List.forall_mem_singleton.2 here, tidied⟩

end

mutual

/-- Tidying up changes nothing in a tidied tree. -/
theorem minify_eq_self : ∀ {inCode : Bool} {node : Node}, IsTidied inCode node →
    minify inCode node = node
  | inCode, ⟨kind, children⟩, tidied => by
      rw [isTidied_mk] at tidied
      rw [minify_mk, spliced_eq_self tidied.2 tidied.1.dissolved, tidied.1.tidy_eq_self]

theorem spliced_eq_self : ∀ {inCode : Bool} {nodes : List Node}, AreTidied inCode nodes →
    (∀ node ∈ nodes, node.kind ≠ .fragment) → spliced inCode nodes = nodes
  | _, [], _, _ => rfl
  | inCode, node :: rest, tidied, dissolved => by
      rw [AreTidied] at tidied
      rw [List.forall_mem_cons] at dissolved
      rw [spliced_cons, spliced_singleton, minify_eq_self tidied.1, if_neg dissolved.1,
        spliced_eq_self tidied.2 dissolved.2]
      rfl

end

mutual

/-- The children of each node of a tidied tree are tidied up. -/
theorem exists_isTidy : ∀ {inCode : Bool} {tree : Node}, IsTidied inCode tree →
    Holds (fun node => ∃ inCode, IsTidy node.kind inCode node.children) tree
  | inCode, ⟨kind, children⟩, tidied => by
      rw [isTidied_mk] at tidied
      exact holds_mk.2 ⟨⟨_, tidied.1⟩, exists_isTidy_all tidied.2⟩

theorem exists_isTidy_all : ∀ {inCode : Bool} {trees : List Node}, AreTidied inCode trees →
    HoldsAll (fun node => ∃ inCode, IsTidy node.kind inCode node.children) trees
  | _, [], _ => nofun
  | inCode, tree :: rest, tidied => by
      rw [AreTidied] at tidied
      exact holdsAll_cons.2 ⟨exists_isTidy tidied.1, exists_isTidy_all tidied.2⟩

end

mutual

/-- The children of each node outside code are tidied up as such. -/
theorem isTidy_of_outsideCode : ∀ {tree : Node}, IsTidied false tree →
    ∀ node ∈ tree.outsideCode, IsTidy node.kind false node.children
  | ⟨kind, children⟩, tidied => by
      rw [outsideCode]
      split
      · exact nofun
      · next plain =>
          rw [Bool.not_eq_true] at plain
          rw [isTidied_mk, Bool.false_or, plain] at tidied
          exact List.forall_mem_cons.2 ⟨tidied.1, isTidy_of_outsideCode_all tidied.2⟩

theorem isTidy_of_outsideCode_all : ∀ {trees : List Node}, AreTidied false trees →
    ∀ node ∈ outsideCodeAll trees, IsTidy node.kind false node.children
  | [], _ => nofun
  | tree :: rest, tidied => by
      rw [AreTidied] at tidied
      rw [outsideCodeAll]
      exact List.forall_mem_append.2
        ⟨isTidy_of_outsideCode tidied.1, isTidy_of_outsideCode_all tidied.2⟩

end

/-- A tidied tree is in normal form. -/
theorem IsTidied.isNormal {tree : Node} (tidied : IsTidied false tree) : IsNormal tree where
  dissolved node member := (exists_isTidy tidied node member).elim fun _ here => here.dissolved
  parted node member := (exists_isTidy tidied node member).elim fun _ here => here.parted
  filled node member := (exists_isTidy tidied node member).elim fun _ here => here.filled
  collapsed node member _ inside _ text :=
    (isTidy_of_outsideCode tidied node member).isCollapsed inside text

/-- One pass of tidying up brings a tree into normal form, and another one changes nothing. -/
theorem apply_isNormal (tree : Node) : IsNormal (apply tree) ∧ apply (apply tree) = apply tree :=
  ⟨(isTidied_minify false tree).isNormal, minify_eq_self (isTidied_minify false tree)⟩

end Minify

end DocPress
