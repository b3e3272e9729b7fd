import SimpleC.Derivation.Outline
import SimpleC.Proofs.DerivationTree.Addresses
import SimpleC.Proofs.DerivationTree.Parts
import SimpleC.Proofs.WireForm.Text

/-!
# Outlines determine trees

An outline has one line for each node, in the order of a walk. The blanks before the first
other character of a line tell the level of the node, and that character tells whether it
stands for a token, so that a token may have any text on one line. What is left are the
levels of the nodes in the order of a walk, and they leave no choice for the shape of the
tree: the nodes below a node are those that follow it up to the next one that is no deeper.
-/

namespace SimpleC

namespace Node

/-- What an outline shows of a node. -/
structure Face where
  kind : NodeKind
  name : String
  type? : Option ValueType

/-- The face of a node. -/
def face (node : Node) : Face :=
  ⟨node.kind, node.name, node.type?⟩

/-- The trees have the same shape, and the nodes at the same place have the same face. -/
inductive Resembles : Node → Node → Prop
  | intro {left right : Node}
      (hface : left.face = right.face)
      (hchildren : List.Forall₂ Resembles left.children right.children) :
      Resembles left right

/-- The node can be shown on one line. A token has nothing but its name; the name of a
production has a first character that begins no token and is no blank, and does not look like
one with a type. -/
structure Presentable (node : Node) : Prop where
  unbroken : '\n' ∉ node.name.toList
  token : node.kind = .token → node.type? = none ∧ node.children = []
  production : node.kind = .production →
    (∃ c, node.name.toList.head? = some c ∧ c ≠ ' ' ∧ c ≠ Text.singleQuote) ∧
      ¬ " : ".toList <:+: node.name.toList

/-- The nodes of a tree whose root has the given level, each with its own level, in the order
of a walk. -/
def levels (level : Nat) (tree : Node) : List (Nat × Node) :=
  List.zipWith (fun address node => (level + address.length, node)) tree.addresses tree.walk

/-- What the nodes of a tree show of themselves, and at which levels. -/
def rows (level : Nat) (tree : Node) : List (Nat × Face) :=
  (tree.levels level).map fun (level, node) => (level, node.face)

/-- The line of a node at a level of an outline. -/
def line (depth : Int) : Nat × Node → String
  | (level, node) => outlineIndent (depth + level) ++ node.outlineEntry

/-- What follows the rows of a tree with a root of the given level does not belong to it. -/
def EndsAt (level : Nat) (rows : List (Nat × Face)) : Prop :=
  ∀ row ∈ rows.head?, row.1 ≤ level

section Levels

variable (level : Nat) (tree : Node)

theorem levels_eq :
    tree.levels level = (level, tree) :: tree.children.flatMap (levels (level + 1)) := by
  have hchildren : ∀ index nodes,
      List.zipWith (fun address node => (level + address.length, node))
        (addressesFrom index nodes) (nodes.flatMap walk) = nodes.flatMap (levels (level + 1)) := by
    intro index nodes
    induction nodes generalizing index with
    | nil =>
        rfl
    | cons node rest ih =>
        have hlength : ((addresses node).map (index :: ·)).length = node.walk.length := by
          rw [List.length_map, length_addresses, length_walk]
        rw [addressesFrom, List.flatMap_cons, List.flatMap_cons, List.zipWith_append hlength, ih,
          List.zipWith_map_left, levels]
        simp only [List.length_cons, Nat.add_assoc, Nat.add_comm 1]
  rw [levels, addresses_eq, walk_eq, List.zipWith_cons_cons, hchildren]
  rfl

theorem rows_eq :
    tree.rows level = (level, tree.face) :: tree.children.flatMap (rows (level + 1)) := by
  rw [rows, levels_eq, List.map_cons, List.map_flatMap]
  rfl

theorem map_snd_levels : (tree.levels level).map Prod.snd = tree.walk := by
  have hlength : tree.walk.length ≤ tree.addresses.length := by
    rw [length_walk, length_addresses]
  rw [levels, ← List.map_uncurry_zip_eq_zipWith, List.map_map]
  exact List.map_snd_zip hlength

end Levels

section Lines

variable {depth : Int} {tree : Node}

theorem outlineLines_eq
    (level : Nat)
    (h : ∀ node ∈ tree.walk, node.Presentable) :
    outlineLines (depth + level) tree = (tree.levels level).map (line depth) := by
  induction tree using induction generalizing level with
  | h tree ih =>
      rw [walk_eq, List.forall_mem_cons] at h
      obtain ⟨hroot, hbelow⟩ := h
      rw [levels_eq, List.map_cons]
      obtain ⟨kind, name, token?, type?, children⟩ := tree
      cases kind with
      | token =>
          -- what is below a token would be hidden
          obtain rfl : children = [] := (hroot.token rfl).2
          rfl
      | production =>
          have hchildren : outlineLinesAll (depth + level + 1) children =
              (children.flatMap (levels (level + 1))).map (line depth) := by
            have hlevel : depth + level + 1 = depth + (level + 1 : Nat) := by
              omega
            change ∀ node ∈ children.flatMap walk, _ at hbelow
            change ∀ child ∈ children, _ at ih
            rw [hlevel]
            clear hroot
            induction children with
            | nil =>
                rfl
            | cons child rest ihrest =>
                rw [List.forall_mem_cons] at ih
                rw [List.flatMap_cons, List.forall_mem_append] at hbelow
                rw [outlineLinesAll, ih.1 _ hbelow.1, ihrest hbelow.2 ih.2, List.flatMap_cons,
                  List.map_append]
          exact congrArg _ hchildren

end Lines

section Entries

variable {left right : Node}

/-- Blanks can be counted up to the first other character. -/
theorem blanks_eq
    {fewer more : Nat}
    {text rest : List Char}
    (htext : text.head? ≠ some ' ')
    (hrest : rest.head? ≠ some ' ')
    (h : List.replicate fewer ' ' ++ text = List.replicate more ' ' ++ rest) :
    fewer = more ∧ text = rest := by
  induction fewer generalizing more with
  | zero =>
      cases more with
      | zero =>
          exact ⟨rfl, h⟩
      | succ more =>
          subst h
          exact absurd rfl htext
  | succ fewer ih =>
      cases more with
      | zero =>
          subst h
          exact absurd rfl hrest
      | succ more =>
          obtain ⟨rfl, hsame⟩ := ih (List.cons.inj h).2
          exact ⟨rfl, hsame⟩

/-- No name of a type ends another one. -/
theorem type_eq_of_isSuffix {type other : ValueType}
    (h : type.name.toList <:+ other.name.toList) :
    type = other := by
  cases type <;> cases other <;> revert h <;> decide

theorem toList_outlineEntry_of_token (h : left.kind = .token) :
    left.outlineEntry.toList = Text.singleQuote :: (left.name.toList ++ [Text.singleQuote]) := by
  rw [outlineEntry, h]
  simp [Text.singleQuote]

theorem outlineEntry_of_production (h : left.kind = .production) :
    left.outlineEntry = left.label := by
  rw [outlineEntry, h]

theorem toList_label (node : Node) :
    node.label.toList =
      node.name.toList ++ (node.type?.toList.flatMap fun type => " : ".toList ++ type.name.toList) := by
  rw [label]
  cases node.type? with
  | none =>
      simp
  | some type =>
      simp

/-- An entry of a production begins like its name. -/
theorem Presentable.exists_head
    (h : left.Presentable)
    (hkind : left.kind = .production) :
    ∃ c, left.outlineEntry.toList.head? = some c ∧ c ≠ ' ' ∧ c ≠ Text.singleQuote := by
  obtain ⟨c, hhead, hc⟩ := (h.production hkind).1
  refine ⟨c, ?_, hc⟩
  rw [outlineEntry_of_production hkind, toList_label, List.head?_append, hhead]
  rfl

/-- No entry begins with a blank. -/
theorem Presentable.head?_ne (h : left.Presentable) :
    left.outlineEntry.toList.head? ≠ some ' ' := by
  cases hkind : left.kind with
  | token =>
      rw [toList_outlineEntry_of_token hkind, List.head?_cons]
      decide
  | production =>
      obtain ⟨c, hhead, hblank, _⟩ := h.exists_head hkind
      rw [hhead]
      exact fun hsame => hblank (Option.some.inj hsame)

theorem Presentable.unbroken_outlineEntry (h : left.Presentable) :
    '\n' ∉ left.outlineEntry.toList := by
  have hname := h.unbroken
  cases hkind : left.kind with
  | token =>
      rw [toList_outlineEntry_of_token hkind]
      simpa [Text.singleQuote] using hname
  | production =>
      rw [outlineEntry_of_production hkind, toList_label, List.mem_append, not_or]
      refine ⟨hname, ?_⟩
      cases left.type? with
      | none =>
          simp
      | some type =>
          cases type <;> decide

/-- The label of a node can be taken apart again. -/
theorem Presentable.label_inj
    (hleft : left.Presentable)
    (hright : right.Presentable)
    (hkind : left.kind = .production)
    (hkind' : right.kind = .production)
    (h : left.label = right.label) :
    left.name = right.name ∧ left.type? = right.type? := by
  have hname := (hleft.production hkind).2
  have hname' := (hright.production hkind').2
  have hlabel := congrArg String.toList h
  rw [toList_label, toList_label] at hlabel
  cases htype : left.type? with
  | none =>
      cases htype' : right.type? with
      | none =>
          refine ⟨String.toList_injective ?_, rfl⟩
          simpa [htype, htype'] using hlabel
      | some type =>
          refine absurd ?_ hname
          exact ⟨right.name.toList, type.name.toList, by simpa [htype, htype'] using hlabel.symm⟩
  | some type =>
      cases htype' : right.type? with
      | none =>
          refine absurd ?_ hname'
          exact ⟨left.name.toList, type.name.toList, by simpa [htype, htype'] using hlabel⟩
      | some other =>
          have hnames : left.name.toList ++ (" : ".toList ++ type.name.toList) =
              right.name.toList ++ (" : ".toList ++ other.name.toList) := by
            simpa [htype, htype'] using hlabel
          have hends : type.name.toList <:+ left.name.toList ++ (" : ".toList ++ type.name.toList) :=
            (List.suffix_append _ _).trans (List.suffix_append _ _)
          have hends' : other.name.toList <:+
              left.name.toList ++ (" : ".toList ++ type.name.toList) :=
            hnames ▸ (List.suffix_append _ _).trans (List.suffix_append _ _)
          have hsame : type = other := by
            rcases List.suffix_or_suffix_of_suffix hends hends' with hsuffix | hsuffix
            · exact type_eq_of_isSuffix hsuffix
            · exact (type_eq_of_isSuffix hsuffix).symm
          subst hsame
          exact ⟨String.toList_injective (List.append_cancel_right hnames), rfl⟩

/-- An entry tells the kind, the name and the type of its node. -/
theorem Presentable.face_eq
    (hleft : left.Presentable)
    (hright : right.Presentable)
    (h : left.outlineEntry.toList = right.outlineEntry.toList) :
    left.face = right.face := by
  cases hkind : left.kind with
  | token =>
      cases hkind' : right.kind with
      | token =>
          rw [toList_outlineEntry_of_token hkind, toList_outlineEntry_of_token hkind'] at h
          have hname : left.name = right.name :=
            String.toList_injective (List.append_cancel_right (List.cons.inj h).2)
          rw [face, face, hkind, hkind', hname, (hleft.token hkind).1, (hright.token hkind').1]
      | production =>
          obtain ⟨c, hhead, _, hquote⟩ := hright.exists_head hkind'
          rw [← h, toList_outlineEntry_of_token hkind] at hhead
          exact absurd (Option.some.inj hhead).symm hquote
  | production =>
      cases hkind' : right.kind with
      | token =>
          obtain ⟨c, hhead, _, hquote⟩ := hleft.exists_head hkind
          rw [h, toList_outlineEntry_of_token hkind'] at hhead
          exact absurd (Option.some.inj hhead).symm hquote
      | production =>
          rw [outlineEntry_of_production hkind, outlineEntry_of_production hkind'] at h
          obtain ⟨hname, htype⟩ := hleft.label_inj hright hkind hkind' (String.toList_injective h)
          rw [face, face, hkind, hkind', hname, htype]

end Entries

section Rows

variable {left right : Node} {level : Nat} {rest others : List (Nat × Face)}

theorem EndsAt.flatMap_rows_append (h : EndsAt level rest) (nodes : List Node) :
    EndsAt (level + 1) (nodes.flatMap (rows (level + 1)) ++ rest) := by
  cases nodes with
  | nil =>
      exact fun row hrow => Nat.le_succ_of_le (h row hrow)
  | cons node nodes =>
      rw [List.flatMap_cons, rows_eq]
      rintro row ⟨⟩
      exact Nat.le_refl _

/-- Trees can be cut off one by one from rows that begin with theirs. -/
theorem forall₂_resembles_of_rows
    {nodes : List Node}
    (hnodes : ∀ node ∈ nodes, ∀ {other level rest others},
      EndsAt level rest → EndsAt level others →
        node.rows level ++ rest = other.rows level ++ others →
          node.Resembles other ∧ rest = others)
    (counterparts : List Node)
    (hrest : EndsAt level rest)
    (hothers : EndsAt level others)
    (h : nodes.flatMap (rows (level + 1)) ++ rest =
      counterparts.flatMap (rows (level + 1)) ++ others) :
    List.Forall₂ Resembles nodes counterparts ∧ rest = others := by
  induction nodes generalizing counterparts with
  | nil =>
      cases counterparts with
      | nil =>
          exact ⟨.nil, h⟩
      | cons other counterparts =>
          rw [List.flatMap_cons, rows_eq] at h
          subst h
          exact absurd (hrest _ rfl) (Nat.not_succ_le_self level)
  | cons node nodes ih =>
      cases counterparts with
      | nil =>
          rw [List.flatMap_cons, rows_eq] at h
          subst h
          exact absurd (hothers _ rfl) (Nat.not_succ_le_self level)
      | cons other counterparts =>
          rw [List.forall_mem_cons] at hnodes
          rw [List.flatMap_cons, List.flatMap_cons, List.append_assoc, List.append_assoc] at h
          obtain ⟨hfirst, hfurther⟩ := hnodes.1 (hrest.flatMap_rows_append nodes)
            (hothers.flatMap_rows_append counterparts) h
          obtain ⟨hlater, hends⟩ := ih hnodes.2 counterparts hfurther
          exact ⟨.cons hfirst hlater, hends⟩

/-- The rows of a tree tell its shape, and where they end. -/
theorem resembles_of_rows
    (left : Node) :
    ∀ {right level rest others}, EndsAt level rest → EndsAt level others →
      left.rows level ++ rest = right.rows level ++ others →
        left.Resembles right ∧ rest = others := by
  induction left using induction with
  | h left ih =>
      intro right level rest others hrest hothers h
      rw [rows_eq, rows_eq, List.cons_append, List.cons_append] at h
      obtain ⟨hroot, hbelow⟩ := List.cons.inj h
      obtain ⟨hchildren, hends⟩ :=
        forall₂_resembles_of_rows ih right.children hrest hothers hbelow
      exact ⟨.intro (Prod.mk.inj hroot).2 hchildren, hends⟩

end Rows

section Outlines

variable {left right tree : Node} {depth : Int}

theorem presentable_of_mem_levels
    (h : ∀ node ∈ tree.walk, node.Presentable)
    {row : Nat × Node}
    (hrow : row ∈ tree.levels 0) :
    row.2.Presentable := by
  refine h row.2 ?_
  rw [← tree.map_snd_levels 0]
  exact List.mem_map_of_mem hrow

/-- The outline of a tree consists of the lines of its nodes. -/
theorem splitOn_outline (h : ∀ node ∈ tree.walk, node.Presentable) :
    (tree.outline depth).toList.splitOn '\n' =
      (tree.levels 0).map fun row => (line depth row).toList := by
  have hlines : outlineLines depth tree = (tree.levels 0).map (line depth) := by
    rw [← outlineLines_eq 0 h, Int.natCast_zero, Int.add_zero]
  have hunbroken : ∀ text ∈ (tree.levels 0).map fun row => (line depth row).toList,
      '\n' ∉ text := by
    rw [List.forall_mem_map]
    intro row hrow
    rw [line, String.toList_append, List.mem_append, not_or]
    refine ⟨?_, (presentable_of_mem_levels h hrow).unbroken_outlineEntry⟩
    simp [outlineIndent]
  rw [outline, hlines, String.toList_intercalate, List.map_map]
  change (['\n'].intercalate ((tree.levels 0).map fun row => (line depth row).toList)).splitOn
    '\n' = _
  refine List.splitOn_intercalate '\n' hunbroken ?_
  simp [levels_eq]

/-- A line tells the level and the face of its node. -/
theorem row_eq_of_line
    (hdepth : 0 ≤ depth)
    {row other : Nat × Node}
    (hrow : row.2.Presentable)
    (hother : other.2.Presentable)
    (h : (line depth row).toList = (line depth other).toList) :
    (row.1, row.2.face) = (other.1, other.2.face) := by
  simp only [line, String.toList_append, outlineIndent, String.toList_ofList] at h
  obtain ⟨hblanks, hentry⟩ := blanks_eq hrow.head?_ne hother.head?_ne h
  have hlevel : row.1 = other.1 := by
    omega
  rw [hlevel, hrow.face_eq hother hentry]

/-- Lists that are mapped to the same list by one function are so by another one, if it makes
no more differences. -/
theorem map_eq_map_of_forall
    {α β γ : Type}
    {f : α → β}
    {g : α → γ}
    {front back : List α}
    (hrefines : ∀ a ∈ front, ∀ b ∈ back, f a = f b → g a = g b)
    (h : front.map f = back.map f) :
    front.map g = back.map g := by
  induction front generalizing back with
  | nil =>
      rw [List.map_nil, eq_comm, List.map_eq_nil_iff] at h
      rw [h]
  | cons a front ih =>
      cases back with
      | nil =>
          cases h
      | cons b back =>
          obtain ⟨hhead, htail⟩ := List.cons.inj h
          rw [List.map_cons, List.map_cons, hrefines a List.mem_cons_self b List.mem_cons_self hhead,
            ih (fun a ha b hb => hrefines a (List.mem_cons_of_mem _ ha) b
              (List.mem_cons_of_mem _ hb)) htail]

theorem resembles_of_outline
    (hdepth : 0 ≤ depth)
    (hleft : ∀ node ∈ left.walk, node.Presentable)
    (hright : ∀ node ∈ right.walk, node.Presentable)
    (h : left.outline depth = right.outline depth) :
    left.Resembles right := by
  have hlines := congrArg (fun text => text.toList.splitOn '\n') h
  simp only [splitOn_outline hleft, splitOn_outline hright] at hlines
  have hrows : left.rows 0 = right.rows 0 := by
    refine map_eq_map_of_forall ?_ hlines
    intro row hrow other hother
    exact row_eq_of_line hdepth (presentable_of_mem_levels hleft hrow)
      (presentable_of_mem_levels hright hother)
  have hends : EndsAt 0 [] := nofun
  refine (resembles_of_rows left hends hends ?_).1
  rw [hrows]

end Outlines

end Node

/-- The names of productions are free of the characters that tell lines, levels and tokens. -/
theorem Production.plain_name (production : Production) :
    production.name.toList ≠ [] ∧
      ∀ c ∈ production.name.toList, c ≠ '\n' ∧ c ≠ ' ' ∧ c ≠ Text.singleQuote := by
  cases production <;> simp [name, Text.singleQuote]

theorem Production.presentable_inner
    (production : Production)
    (type? : Option ValueType)
    (children : List Node) :
    (Node.inner production.name type? children).Presentable where
  unbroken hmem := (production.plain_name.2 _ hmem).1 rfl
  token := nofun
  production _ := by
    obtain ⟨hname, hplain⟩ := production.plain_name
    refine ⟨⟨_, List.head?_eq_some_head hname, (hplain _ (List.head_mem hname)).2⟩, ?_⟩
    intro htyped
    have hblank : ' ' ∈ production.name.toList := htyped.subset (by decide)
    exact (hplain _ hblank).2.1 rfl

/-- A token can be shown on one line if its wire form is on one. -/
theorem Node.presentable_leaf {token : Token} (h : '\n' ∉ token.wire.toList) :
    (leaf token).Presentable :=
  ⟨h, fun _ => ⟨rfl, rfl⟩, nofun⟩

/-- The wire forms of tokens that were read line by line are on one line each. -/
theorem unbroken_of_mem_readTokens {text : String} {token : Token} (h : token ∈ readTokens text) :
    '\n' ∉ token.wire.toList := by
  obtain ⟨wires, hlists⟩ := exists_listsWires text.toList
  rw [hlists.readTokens_eq] at h
  obtain ⟨wire, hwire, rfl⟩ := List.mem_map.mp h
  rw [Token.wire_ofWire]
  exact (hlists.fitsOnLine wire hwire).unbroken

/-- The run has recorded a tree that an outline can show. -/
def Run.RecordsPresentable (run : Run) : Prop :=
  ∃ tree, run.tree? = some tree ∧ ∀ node ∈ tree.walk, node.Presentable

/-- The parts of a tree can be shown if its leaves can. -/
theorem Grammar.presentable_of_isPart
    {tree : Node}
    (hparts : ∀ node ∈ tree.walk, IsPart node)
    (hleaves : ∀ token ∈ tree.leaves, '\n' ∉ token.wire.toList) :
    ∀ node ∈ tree.walk, node.Presentable := by
  intro node hnode
  obtain ⟨constituent, _, hfits⟩ := hparts node hnode
  cases hfits with
  | terminal =>
      exact Node.presentable_leaf (hleaves _ (List.mem_filterMap.mpr ⟨_, hnode, rfl⟩))
  | nonterminal production type? children =>
      exact production.presentable_inner type? children

theorem recognize_recordsPresentable
    {tokens : List Token}
    (htokens : ∀ token ∈ tokens, '\n' ∉ token.wire.toList)
    (declare checkTypes : Bool)
    (symbols : SymbolTable) :
    (recognize ⟨declare, checkTypes, true⟩ symbols tokens).RecordsPresentable := by
  cases hsuccess : (recognize ⟨declare, checkTypes, true⟩ symbols tokens).isSuccess with
  | false =>
      obtain ⟨tree, htree, htruncated⟩ := recordsTruncated_of_failure rfl hsuccess
      refine ⟨tree, htree, Grammar.presentable_of_isPart htruncated.isPart ?_⟩
      rw [htruncated.leaves]
      exact fun token htoken => htokens token (List.mem_of_mem_take htoken)
  | true =>
      obtain ⟨program, symbols?, hnearest, rfl, htree⟩ := exists_program_of_tree hsuccess
      have hderivation : Grammar.IsDerivation (program.node symbols?) program.tokens :=
        program.isDerivation_node hnearest
      refine ⟨_, htree, Grammar.presentable_of_isPart hderivation.isPart ?_⟩
      rwa [hderivation.leaves]

/-- An outline has one line for each node, in the order of a walk. Trees with nodes that can be
shown resemble each other if their outlines are the same; among them are the trees that runs
and staged checks record of tokens that were read line by line, whether they fail or not. -/
theorem outline_determines_tree :
    (∀ (depth : Int) (left right : Node), 0 ≤ depth →
      (∀ node ∈ left.walk, node.Presentable) → (∀ node ∈ right.walk, node.Presentable) →
        left.outline depth = right.outline depth → left.Resembles right) ∧
    (∀ (depth : Int) (tree : Node), (∀ node ∈ tree.walk, node.Presentable) →
      (tree.levels 0).map Prod.snd = tree.walk ∧
      (tree.outline depth).toList.splitOn '\n' =
        (tree.levels 0).map fun row => (Node.line depth row).toList) ∧
    ∀ text : String,
      (∀ declare checkTypes symbols,
        (recognize ⟨declare, checkTypes, true⟩ symbols (readTokens text)).RecordsPresentable) ∧
      (checkStaged true (readTokens text)).RecordsPresentable := by
  refine ⟨fun depth left right => Node.resembles_of_outline, ?_, ?_⟩
  · intro depth tree htree
    exact ⟨tree.map_snd_levels 0, Node.splitOn_outline htree⟩
  · intro text
    have hruns : ∀ declare checkTypes symbols,
        (recognize ⟨declare, checkTypes, true⟩ symbols (readTokens text)).RecordsPresentable :=
      recognize_recordsPresentable fun _ => unbroken_of_mem_readTokens
    exact ⟨hruns, checkStaged_of_recognize hruns fun _ _ h => h⟩

/-- A program that puts out a text which looks like further lines of an outline. -/
def printsLabel : List Token :=
  programOf [.bare "cout", .bare "<<", ⟨.strLiteral, "'  expr : int"⟩, .bare ";"]

/-- The same spellings, all of which stand for punctuation. -/
def printsLabelUnsorted : List Token :=
  printsLabel.map fun token =>
    if token.kind.hasPayload then token else ⟨.punctuation, token.text⟩

/-- The outline does not show the kinds of bare tokens: the trees of a program and of its spellings
as punctuation have the same outline, and resemble each other. -/
theorem outline_determines_tree_of_printsLabel :
    ∃ left right : Node,
      (check true printsLabel).tree? = some left ∧
      (check true printsLabelUnsorted).tree? = some right ∧
      (0 : Int) ≤ 1 ∧
      (∀ node ∈ left.walk, node.Presentable) ∧ (∀ node ∈ right.walk, node.Presentable) ∧
      left.outline 1 = right.outline 1 ∧ left.Resembles right := by
  have hunbroken : ∀ token ∈ printsLabel, '\n' ∉ token.wire.toList := by
    decide
  have hunbroken' : ∀ token ∈ printsLabelUnsorted, '\n' ∉ token.wire.toList := by
    decide
  obtain ⟨left, hleft, hpresentable⟩ := recognize_recordsPresentable hunbroken true true .empty
  obtain ⟨right, hright, hpresentable'⟩ := recognize_recordsPresentable hunbroken' true true .empty
  have hsame : (recognize ⟨true, true, true⟩ .empty printsLabel).tree?.map (Node.outline 1) =
      (recognize ⟨true, true, true⟩ .empty printsLabelUnsorted).tree?.map (Node.outline 1) := by
    decide +kernel
  rw [hleft, hright] at hsame
  have houtline : left.outline 1 = right.outline 1 := Option.some.inj hsame
  exact ⟨left, right, hleft, hright, by decide, hpresentable, hpresentable', houtline,
    outline_determines_tree.1 1 left right (by decide) hpresentable hpresentable' houtline⟩

end SimpleC
