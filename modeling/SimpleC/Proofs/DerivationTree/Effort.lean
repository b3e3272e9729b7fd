import Mathlib.Data.List.Infix
import SimpleC.Proofs.DerivationTree.Trace
import SimpleC.Proofs.DerivationTree.Truncated

/-!
# The size of derivation trees

A derivation has at most two productions for each of its tokens and one more, also if it was
broken off. Tokens pay for productions: every constituent has a surplus, which is what its
derivations may have beyond two productions a token, and no rule gives away more than it
has. A derivation that was broken off is short of the token at which it would have gone on, and
so of two productions.

The statements of a derivation, broken off or not, begin at different tokens: a statement
consumes a token before another one begins, inside of it or after it.
-/

namespace SimpleC

namespace Node

/-- How many nodes of the trees stand for productions. -/
def productionCount (nodes : List Node) : Nat :=
  (nodes.flatMap walk).countP fun node => node.kind = .production

section ProductionCount

variable (nodes : List Node)

@[simp] theorem productionCount_nil : productionCount [] = 0 :=
  rfl

@[simp] theorem productionCount_leaf (token : Token) :
    productionCount (leaf token :: nodes) = productionCount nodes := by
  simp [productionCount]

@[simp] theorem productionCount_inner
    (name : String)
    (type? : Option ValueType)
    (children : List Node) :
    productionCount (inner name type? children :: nodes) =
      productionCount children + productionCount nodes + 1 := by
  simp [productionCount]

end ProductionCount

end Node

namespace Grammar

/-- How many productions a derivation of the constituent may have beyond two for each of its
tokens. -/
def Constituent.surplus : Constituent → Int
  | .terminal _ => -2
  | .nonterminal production =>
      match production with
      | .program | .empty | .declaration | .input | .output | .assignment | .conditional
      | .value | .operator => -1
      | .statement | .outputValue | .expression => 0
      | .statements | .condition | .thenPart | .elsePart => 1

/-- The surplus of constituents in a row. -/
def surplus : List Constituent → Int
  | [] => 0
  | constituent :: rest => constituent.surplus + surplus rest

/-- The surplus of constituents the last of which may be broken off. Where it is, the next token
would pay for two more productions. -/
def brokenSurplus (front : List Constituent) : Int :=
  match front.getLast? with
  | some (.nonterminal _) => surplus front + 2
  | some (.terminal _) | none => surplus front

section Surplus

variable {production : Production} {body front : List Constituent} {nodes : List Node}

@[simp] theorem surplus_nil : surplus [] = 0 :=
  rfl

@[simp] theorem surplus_cons (constituent : Constituent) (rest : List Constituent) :
    surplus (constituent :: rest) = constituent.surplus + surplus rest :=
  rfl

/-- Statements in a row have nothing to spare and owe nothing. -/
theorem surplus_replicate (count : Nat) :
    surplus (List.replicate count (.nonterminal .statement)) = 0 := by
  induction count with
  | zero =>
      rfl
  | succ count ih =>
      rw [List.replicate_succ, surplus_cons, ih]
      rfl

theorem brokenSurplus_bounds (front : List Constituent) :
    surplus front ≤ brokenSurplus front ∧ brokenSurplus front ≤ surplus front + 2 := by
  unfold brokenSurplus
  split <;> omega

/-- What is broken off at the end is so after a complete derivation as well. -/
theorem le_brokenSurplus_cons (constituent : Constituent) (front : List Constituent) :
    constituent.surplus + brokenSurplus front ≤ brokenSurplus (constituent :: front) := by
  cases front with
  | nil =>
      have hle := (brokenSurplus_bounds [constituent]).1
      simpa [brokenSurplus] using hle
  | cons next front =>
      rw [brokenSurplus, brokenSurplus, List.getLast?_cons_cons]
      split <;> simp [Int.add_assoc]

/-- A production is paid for by what its right-hand side leaves over. -/
theorem Rule.surplus_le (hrule : Rule production body) :
    surplus body + 1 ≤ (Constituent.nonterminal production).surplus := by
  cases hrule with
  | program | empty | input | output | printedValue | endOfLine | assignment | conditional
  | condition | thenPart | otherwise | noElse | binary | single =>
      decide
  | statements further =>
      rw [surplus_replicate]
      decide
  | @statement form =>
      revert form
      decide
  | @declaration word | @value word | @operator word =>
      revert word
      decide

/-- A production that is broken off is paid for by the part of its right-hand side that is
there, if the next token is counted in. -/
theorem Rule.brokenSurplus_le (hrule : Rule production body) (hfront : front <+: body) :
    brokenSurplus front + 1 ≤ (Constituent.nonterminal production).surplus + 2 := by
  rw [← List.mem_inits] at hfront
  revert front
  cases hrule with
  | program | empty | input | output | printedValue | endOfLine | assignment | conditional
  | condition | thenPart | otherwise | noElse | binary | single =>
      decide
  | statements further =>
      intro front hfront
      rw [List.mem_inits] at hfront
      have hstatements := (List.prefix_replicate_iff.mp hfront).2
      have hle := (brokenSurplus_bounds front).2
      rw [hstatements, surplus_replicate] at hle
      rw [hstatements]
      show _ ≤ (1 : Int) + 2
      omega
  | @statement form =>
      revert form
      decide
  | @declaration word | @value word | @operator word =>
      revert word
      decide

/-- A derivation has no more productions than its tokens and its surplus pay for. -/
theorem Spans.productionCount_le (h : Spans body nodes) :
    (Node.productionCount nodes : Int) ≤
      2 * (nodes.flatMap Node.leaves).length + surplus body := by
  induction h with
  | nil =>
      decide
  | terminal haccepts _ ih =>
      simp only [Node.productionCount_leaf, surplus_cons, List.flatMap_cons, Node.leaves_leaf,
        List.length_append, List.length_singleton, Constituent.surplus]
      omega
  | nonterminal hrule _ _ ihbody ih =>
      have hpaid := hrule.surplus_le
      simp only [Node.productionCount_inner, surplus_cons, List.flatMap_cons, Node.leaves_inner,
        List.length_append]
      omega

/-- A derivation that was broken off has no more productions than its tokens, the next one and
the surplus of what is there pay for. -/
theorem Truncated.productionCount_le (h : Truncated body nodes) :
    ∃ front, front <+: body ∧
      (Node.productionCount nodes : Int) ≤
        2 * (nodes.flatMap Node.leaves).length + brokenSurplus front := by
  induction h with
  | stopped body =>
      exact ⟨[], List.nil_prefix, by decide⟩
  | @terminal wanted token rest nodes haccepts _ ih =>
      obtain ⟨front, hfront, hle⟩ := ih
      refine ⟨.terminal wanted :: front, (List.prefix_cons_inj _).mpr hfront, ?_⟩
      have hcons := le_brokenSurplus_cons (.terminal wanted) front
      simp only [Node.productionCount_leaf, List.flatMap_cons, Node.leaves_leaf,
        List.length_append, List.length_singleton, Constituent.surplus] at hcons ⊢
      omega
  | @nonterminal production _ _ _ _ _ hrule hbody _ ih =>
      obtain ⟨front, hfront, hle⟩ := ih
      refine ⟨.nonterminal production :: front, (List.prefix_cons_inj _).mpr hfront, ?_⟩
      have hcons := le_brokenSurplus_cons (.nonterminal production) front
      have hpaid := hrule.surplus_le
      have hwhole := hbody.productionCount_le
      simp only [Node.productionCount_inner, List.flatMap_cons, Node.leaves_inner,
        List.length_append]
      omega
  | @last production _ _ _ hrule _ rest ih =>
      obtain ⟨front, hfront, hle⟩ := ih
      refine ⟨[.nonterminal production], ⟨rest, rfl⟩, ?_⟩
      have hpaid := hrule.brokenSurplus_le hfront
      have hbroken : brokenSurplus [.nonterminal production] =
          (Constituent.nonterminal production).surplus + 2 := by
        simp [brokenSurplus]
      simp only [Node.productionCount_inner, Node.productionCount_nil, List.flatMap_cons,
        List.flatMap_nil, Node.leaves_inner, List.append_nil]
      omega

end Surplus

/-- A program has at most two productions for each of its tokens and one more, whether it was
broken off or not. -/
theorem productionCount_program_le
    {tree : Node}
    (h : Spans [.nonterminal .program] [tree] ∨ Truncated [.nonterminal .program] [tree]) :
    Node.productionCount [tree] ≤ 2 * tree.leaves.length + 1 := by
  have hleaves : [tree].flatMap Node.leaves = tree.leaves := List.flatMap_singleton ..
  rcases h with hspans | htruncated
  · have hle := hspans.productionCount_le
    have hsurplus : surplus [.nonterminal .program] = -1 := rfl
    rw [hleaves] at hle
    omega
  · obtain ⟨front, hfront, hle⟩ := htruncated.productionCount_le
    have hsurplus : ∀ front ∈ [Constituent.nonterminal .program].inits,
        brokenSurplus front ≤ 1 := by
      decide
    have hfew := hsurplus front ((List.mem_inits front _).mpr hfront)
    rw [hleaves] at hle
    omega

end Grammar

namespace Node

/-- How many tokens are before each of the statements in the trees, from left to right, if as
many as given are before the first tree. -/
def statementPositions (position : Nat) (nodes : List Node) : List Nat :=
  ((entriesFrom position (nodes.flatMap walk)).filter fun entry =>
    entry.name = Production.statement.name).map Entry.position

section StatementPositions

variable (position : Nat) (nodes : List Node)

@[simp] theorem statementPositions_nil : statementPositions position [] = [] :=
  rfl

@[simp] theorem statementPositions_leaf (token : Token) :
    statementPositions position (leaf token :: nodes) =
      statementPositions (position + 1) nodes := by
  simp [statementPositions]

theorem statementPositions_inner
    (production : Production)
    (type? : Option ValueType)
    (children : List Node) :
    statementPositions position (inner production.name type? children :: nodes) =
      (if production = .statement then [position] else []) ++
        (statementPositions position children ++
          statementPositions (position + (children.flatMap leaves).length) nodes) := by
  have hname : production.name = Production.statement.name ↔ production = .statement :=
    ⟨fun h => Production.name_injective h, fun h => h ▸ rfl⟩
  simp only [statementPositions, List.flatMap_cons, walk_inner, List.cons_append,
    entriesFrom_inner, entriesFrom_append, filterMap_flatMap_walk, List.filter_cons, hname,
    List.filter_append]
  split <;> simp_all

end StatementPositions

end Node

namespace Grammar

/-- How many tokens at least come before the first statement inside of the constituent. -/
def Constituent.delay : Constituent → Nat
  | .terminal _ => 1
  | .nonterminal production =>
      match production with
      | .statements | .statement | .thenPart | .elsePart => 0
      | .program | .empty | .declaration | .input | .output | .outputValue | .assignment
      | .conditional | .condition | .expression | .value | .operator => 1

/-- How many tokens at least come before the first statement inside of the constituents. -/
def delay (body : List Constituent) : Nat :=
  (body.head?.map Constituent.delay).getD 0

/-- The positions increase from the given one on. -/
structure Paced (low : Nat) (positions : List Nat) : Prop where
  increasing : positions.Pairwise (· < ·)
  bounded : ∀ position ∈ positions, low ≤ position

section Paced

variable
    {production : Production}
    {body : List Constituent}
    {nodes : List Node}
    {low middle : Nat}
    {front back : List Nat}

theorem Paced.nil (low : Nat) : Paced low [] :=
  ⟨.nil, List.forall_mem_nil _⟩

theorem Paced.mono (h : Paced middle back) (hle : low ≤ middle) : Paced low back :=
  ⟨h.increasing, fun position hposition => Nat.le_trans hle (h.bounded position hposition)⟩

theorem Paced.append
    (hfront : Paced low front)
    (hbelow : ∀ position ∈ front, position < middle)
    (hback : Paced middle back)
    (hle : low ≤ middle) :
    Paced low (front ++ back) where
  increasing := by
    refine List.pairwise_append.mpr ⟨hfront.increasing, hback.increasing, ?_⟩
    intro earlier hearlier later hlater
    exact Nat.lt_of_lt_of_le (hbelow earlier hearlier) (hback.bounded later hlater)
  bounded := List.forall_mem_append.mpr ⟨hfront.bounded, (hback.mono hle).bounded⟩

@[simp] theorem delay_cons (constituent : Constituent) (rest : List Constituent) :
    delay (constituent :: rest) = constituent.delay :=
  rfl

/-- What delays a phrase delays its right-hand side, and no statement begins with another
one. -/
theorem Rule.delay_le (hrule : Rule production body) :
    (Constituent.nonterminal production).delay ≤ delay body ∧
      (production = .statement → delay body = 1) := by
  cases hrule with
  | program | empty | input | output | printedValue | endOfLine | assignment | conditional
  | condition | thenPart | otherwise | noElse | binary | single =>
      exact ⟨by decide, nofun⟩
  | statements =>
      exact ⟨Nat.zero_le _, nofun⟩
  | @statement form =>
      revert form
      decide
  | @declaration word | @value word | @operator word =>
      revert word
      decide

/-- The position of a statement comes before those of the statements inside of it. -/
theorem Rule.paced
    (hrule : Rule production body)
    {position : Nat}
    (h : Paced (position + delay body) back) :
    Paced (position + (Constituent.nonterminal production).delay)
      ((if production = .statement then [position] else []) ++ back) := by
  obtain ⟨hdelay, hstatement⟩ := hrule.delay_le
  split
  · rename_i hproduction
    subst hproduction
    rw [hstatement rfl] at h
    have hsingle : Paced position [position] :=
      ⟨List.pairwise_singleton _ _, by simp⟩
    exact hsingle.append (by simp) h (Nat.le_succ position)
  · exact h.mono (by omega)

/-- A statement has a token of its own. -/
theorem Rule.forall_lt
    (hrule : Rule production body)
    {position length : Nat}
    (hlength : delay body ≤ length)
    (h : ∀ inner ∈ back, inner < position + length) :
    ∀ later ∈ (if production = .statement then [position] else []) ++ back,
      later < position + length := by
  rw [List.forall_mem_append]
  refine ⟨?_, h⟩
  split
  · rename_i hproduction
    have hdelay := hrule.delay_le.2 hproduction
    rw [List.forall_mem_singleton]
    omega
  · exact List.forall_mem_nil _

/-- A derivation has tokens before the first statement, if there are to be any. -/
theorem Spans.delay_le (h : Spans body nodes) :
    delay body ≤ (nodes.flatMap Node.leaves).length := by
  induction h with
  | nil =>
      exact Nat.le_refl 0
  | terminal =>
      simp [Constituent.delay]
  | nonterminal hrule _ _ ihbody =>
      have hdelay := hrule.delay_le.1
      simp only [delay_cons, List.flatMap_cons, Node.leaves_inner, List.length_append]
      omega

/-- In a derivation each statement has a token before the next one begins. -/
theorem Spans.paced (h : Spans body nodes) (position : Nat) :
    Paced (position + delay body) (Node.statementPositions position nodes) ∧
      ∀ later ∈ Node.statementPositions position nodes,
        later < position + (nodes.flatMap Node.leaves).length := by
  induction h generalizing position with
  | nil =>
      exact ⟨.nil _, List.forall_mem_nil _⟩
  | terminal _ _ ih =>
      obtain ⟨hpaced, hbelow⟩ := ih (position + 1)
      simp only [Node.statementPositions_leaf, delay_cons, Constituent.delay, List.flatMap_cons,
        Node.leaves_leaf, List.length_append, List.length_singleton]
      refine ⟨hpaced.mono (Nat.le_add_right _ _), ?_⟩
      rwa [← Nat.add_assoc]
  | @nonterminal production body rest type? children nodes hrule hbody _ ihbody ih =>
      obtain ⟨hinside, hbelow⟩ := ihbody position
      obtain ⟨hafter, hbelow'⟩ := ih (position + (children.flatMap Node.leaves).length)
      have hphrase := hrule.paced hinside
      have hbefore := hrule.forall_lt hbody.delay_le hbelow
      have hdelay := hrule.delay_le.1
      have hlength := hbody.delay_le
      rw [Node.statementPositions_inner, ← List.append_assoc, delay_cons, List.flatMap_cons,
        Node.leaves_inner, List.length_append]
      refine ⟨hphrase.append hbefore (hafter.mono (Nat.le_add_right _ _)) (by omega), ?_⟩
      refine List.forall_mem_append.mpr ⟨fun later hlater => ?_, ?_⟩
      · exact Nat.lt_of_lt_of_le (hbefore later hlater) (by omega)
      · rwa [← Nat.add_assoc]

/-- The same holds of a derivation that was broken off, except that the last statement may lack
its token. -/
theorem Truncated.paced (h : Truncated body nodes) (position : Nat) :
    Paced (position + delay body) (Node.statementPositions position nodes) := by
  induction h generalizing position with
  | stopped =>
      exact .nil _
  | terminal _ _ ih =>
      rw [Node.statementPositions_leaf, delay_cons]
      exact (ih (position + 1)).mono (Nat.le_add_right _ _)
  | @nonterminal production body rest type? children nodes hrule hbody _ ih =>
      obtain ⟨hinside, hbelow⟩ := hbody.paced position
      have hphrase := hrule.paced hinside
      have hbefore := hrule.forall_lt hbody.delay_le hbelow
      have hafter := ih (position + (children.flatMap Node.leaves).length)
      have hdelay := hrule.delay_le.1
      have hlength := hbody.delay_le
      rw [Node.statementPositions_inner, ← List.append_assoc, delay_cons]
      exact hphrase.append hbefore (hafter.mono (Nat.le_add_right _ _)) (by omega)
  | last hrule _ _ ih =>
      rw [Node.statementPositions_inner, Node.statementPositions_nil, List.append_nil, delay_cons]
      exact hrule.paced (ih position)

end Paced

/-- The statements of a program begin at different tokens, whether it was broken off or not. -/
theorem pairwise_statementPositions
    {tree : Node}
    (h : Spans [.nonterminal .program] [tree] ∨ Truncated [.nonterminal .program] [tree]) :
    (Node.statementPositions 0 [tree]).Pairwise (· < ·) := by
  rcases h with hspans | htruncated
  · exact (hspans.paced 0).1.increasing
  · exact (htruncated.paced 0).increasing

end Grammar

end SimpleC
