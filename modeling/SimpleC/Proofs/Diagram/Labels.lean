import SimpleC.Proofs.DerivationTree.Parts
import SimpleC.Proofs.Diagram.Identifier
import SimpleC.Proofs.Diagram.Tree
import SimpleC.Proofs.WireForm.Basic

/-!
# Labels of recorded trees

The diagram of a recorded tree has the verdict for its title and writes a token as its wire form.
Labels are given as they are, with no regard to the backslashes in them. A string literal may hold
any text, and a violation reports the token that it found; so both the labels of tokens and the
title run into what is said of backslashes before double quotes and at the end of a text.
-/

namespace SimpleC

open Dot (Statement Denotes WordIfPlain Paired finalBackslashes identifier)

/-- The label of a node, or of the graph. -/
def Dot.Statement.label? : Statement → Option String
  | .graph attributes => attributes.lookup "label"
  | .node _ attributes => attributes.lookup "label"
  | _ => none

/-- The labels of a diagram are the title and what is written on the nodes. -/
theorem label?_derivationStatements {title : String} (h : title.isEmpty = false) (tree : Node) :
    (derivationStatements title (some tree)).filterMap Statement.label? =
      title :: tree.walk.map Node.caption := by
  have hdrawn (number : Nat) (node : Node) : (node.drawn number).label? = some node.caption := rfl
  rw [derivationStatements, diagramHead, h, Option.map_some, Option.getD_some,
    List.filterMap_append, Node.filterMap_diagram hdrawn (fun _ _ => rfl)]
  exact congrArg (title :: ·) (List.ext_getElem (by simp) (by simp))

namespace Grammar

/-- What is written on the node of a constituent is a word, or has to be quoted. -/
def Constituent.isLabelled : Constituent → Bool
  | .terminal (.ofKind kind) => kind.hasPayload
  | .terminal (.spelled spelling) => !Dot.isPlain spelling.toList || Dot.isWord spelling.toList
  | .nonterminal _ => true

theorem Called.isLabelled {constituent : Constituent} (h : Called constituent) :
    constituent.isLabelled = true := by
  cases h with
  | program =>
      rfl
  | part hrule hmem =>
      cases hrule with
      | statements further =>
          rw [List.eq_of_mem_replicate hmem]
          rfl
      | statement hform =>
          rw [List.mem_singleton.mp hmem]
          rfl
      | declaration hword =>
          have hwords : ∀ word ∈ [bare "int", bare "real"],
              ∀ part ∈ [word, payload .identifier, bare ";"], part.isLabelled = true := by
            decide
          exact hwords _ hword constituent hmem
      | value hword =>
          have hwords : ∀ word ∈ valueTerminals, word.isLabelled = true := by
            decide
          rw [List.mem_singleton.mp hmem]
          exact hwords _ hword
      | operator hword =>
          have hwords : ∀ word ∈ operatorTerminals, word.isLabelled = true := by
            decide
          rw [List.mem_singleton.mp hmem]
          exact hwords _ hword
      | _ =>
          revert constituent
          decide

end Grammar

/-- The leaf of a token that a constituent calls for has a wire form that is a word, or has to be
quoted. -/
theorem Grammar.Called.wordIfPlain_wire
    {wanted : Expectation}
    {token : Token}
    (hcalled : Grammar.Called (.terminal wanted))
    (haccepts : wanted.accepts token = true) :
    WordIfPlain token.wire := by
  have hlabelled := hcalled.isLabelled
  cases wanted with
  | spelled spelling =>
      obtain ⟨hbare, rfl⟩ := (token.isSpelled_eq_true_iff spelling).mp haccepts
      rw [Token.wire_of_bare hbare]
      simpa [Grammar.Constituent.isLabelled, WordIfPlain, Bool.or_eq_true, imp_iff_not_or]
        using hlabelled
  | ofKind kind =>
      obtain rfl : token.kind = kind := beq_iff_eq.mp haccepts
      rw [Token.wire_of_payload hlabelled, String.append_assoc]
      refine Dot.wordIfPlain_of_colon ?_ (by simp)
      cases token.kind <;> decide

/-- What is written on a node that the grammar calls for is a word, or has to be quoted. -/
theorem Grammar.IsPart.wordIfPlain {node : Node} (h : Grammar.IsPart node) :
    WordIfPlain node.caption := by
  obtain ⟨constituent, hcalled, hfits⟩ := h
  cases hfits with
  | terminal haccepts =>
      exact hcalled.wordIfPlain_wire haccepts
  | nonterminal production type? children =>
      have hname : Dot.isWord production.name.toList = true := by
        cases production <;> rfl
      cases type? with
      | none =>
          exact fun _ => hname
      | some type =>
          change WordIfPlain (production.name ++ " : " ++ type.name)
          rw [String.append_assoc]
          exact Dot.wordIfPlain_of_colon hname (by simp)

/-- A verdict on one line is a word, or has to be quoted. -/
theorem Verdict.wordIfPlain_render (verdict : Verdict) : WordIfPlain verdict.render := by
  cases verdict with
  | success =>
      exact fun _ => rfl
  | fault reason =>
      intro _
      change Dot.isWord "internal_error".toList = true
      decide
  | failure phase message =>
      rw [Verdict.render, String.append_assoc]
      refine Dot.wordIfPlain_of_colon ?_ (by simp)
      cases phase <;> rfl

theorem Verdict.isEmpty_render (verdict : Verdict) : verdict.render.isEmpty = false := by
  rw [String.isEmpty_eq_false_iff]
  cases verdict <;> simp [render]

/-- How the labels in the diagram of a run are read that has recorded the tree. Each of them is one
complete identifier if the backslashes at its end are even in number, and stands for the title or
what is written on the node if those before double quotes are so as well; and two labels look alike
if they differ in nothing but backslashes before double quotes that are one too many. -/
structure Run.LabelsRead (run : Run) (tree : Node) : Prop where
  labels :
    (derivationStatements run.verdict.render (some tree)).filterMap Statement.label? =
      run.verdict.render :: tree.walk.map Node.caption
  wire : ∀ leaf ∈ tree.walk, leaf.kind = .token →
    ∃ token, leaf.token? = some token ∧ leaf.caption = token.wire
  complete : ∀ label ∈ run.verdict.render :: tree.walk.map Node.caption,
    ((∃ meant, Denotes (identifier label).toList meant) ↔ Even (finalBackslashes label.toList))
  meant : ∀ label ∈ run.verdict.render :: tree.walk.map Node.caption,
    (Denotes (identifier label).toList label.toList ↔ Paired label.toList)
  alike : ∀ left ∈ run.verdict.render :: tree.walk.map Node.caption,
    ∀ right ∈ run.verdict.render :: tree.walk.map Node.caption,
      (identifier left = identifier right ↔
        Dot.loosened false left.toList = Dot.loosened false right.toList)

theorem Run.RecordsParts.exists_labelsRead {run : Run} (h : run.RecordsParts) :
    ∃ tree, run.tree? = some tree ∧ run.LabelsRead tree := by
  obtain ⟨tree, htree, hparts⟩ := h
  have hlabels : ∀ label ∈ run.verdict.render :: tree.walk.map Node.caption,
      WordIfPlain label := by
    rw [List.forall_mem_cons, List.forall_mem_map]
    exact ⟨run.verdict.wordIfPlain_render, fun node hnode => (hparts node hnode).wordIfPlain⟩
  refine ⟨tree, htree, ?_⟩
  exact {
    labels := label?_derivationStatements run.verdict.isEmpty_render tree
    wire := by
      intro leaf hleaf hkind
      obtain ⟨_, _, hfits⟩ := hparts leaf hleaf
      cases hfits with
      | terminal =>
          exact ⟨_, rfl, rfl⟩
      | nonterminal =>
          cases hkind
    complete := fun label hlabel => Dot.exists_denotes_identifier_iff (hlabels label hlabel)
    meant := fun label hlabel => Dot.denotes_identifier_iff (hlabels label hlabel)
    alike := fun left hleft right hright =>
      Dot.identifier_eq_iff (hlabels left hleft) (hlabels right hright) }

/-- Every run that records a tree, and the staged check, can be drawn, and the labels are read
exactly as far as backslashes stand in pairs. -/
theorem labels_are_read_if_paired (tokens : List Token) :
    (∀ declare checkTypes symbols,
      ∃ tree, (recognize ⟨declare, checkTypes, true⟩ symbols tokens).tree? = some tree ∧
        (recognize ⟨declare, checkTypes, true⟩ symbols tokens).LabelsRead tree) ∧
    ∃ tree, (checkStaged true tokens).tree? = some tree ∧
      (checkStaged true tokens).LabelsRead tree := by
  refine ⟨?_, (checkStaged_recordsParts tokens).exists_labelsRead⟩
  intro declare checkTypes symbols
  exact (recognize_recordsParts declare checkTypes symbols tokens).exists_labelsRead

/-- A program that puts out a text of one backslash. -/
def printsBackslash : List Token :=
  programOf [.bare "cout", .bare "<<", ⟨.strLiteral, "\x5c"⟩, .bare ";"]

/-- A program that puts out a double quote, without and with a backslash before it. -/
def printsQuotes : List Token :=
  programOf [.bare "cout", .bare "<<", ⟨.strLiteral, "\x22"⟩, .bare ";",
    .bare "cout", .bare "<<", ⟨.strLiteral, "\x5c\x22"⟩, .bare ";"]

/-- The label of one backslash never ends, and a backslash before a quote is lost. -/
theorem labels_lose_backslashes :
    (∃ tree, (check true printsBackslash).tree? = some tree ∧
      ∃ leaf ∈ tree.walk, leaf.kind = .token ∧ leaf.caption = "str_literal:\x5c" ∧
        ¬ ∃ meant, Denotes (identifier leaf.caption).toList meant) ∧
    ∃ tree, (check true printsQuotes).tree? = some tree ∧
      ∃ left ∈ tree.walk, ∃ right ∈ tree.walk, left.kind = .token ∧ right.kind = .token ∧
        left.caption ≠ right.caption ∧ identifier left.caption = identifier right.caption := by
  have hbackslash : (check true printsBackslash).tree?.any (fun tree => tree.walk.any fun leaf =>
      leaf.kind = .token ∧ leaf.caption = "str_literal:\x5c") = true := by
    decide +kernel
  have hquotes : (check true printsQuotes).tree?.any (fun tree =>
      (tree.walk.any fun leaf => leaf.kind = .token ∧ leaf.caption = "str_literal:\x22") ∧
        tree.walk.any fun leaf =>
          leaf.kind = .token ∧ leaf.caption = "str_literal:\x5c\x22") = true := by
    decide +kernel
  simp only [Option.any_eq_true, List.any_eq_true, decide_eq_true_eq] at hbackslash hquotes
  obtain ⟨tree, htree, leaf, hleaf, hkind, hcaption⟩ := hbackslash
  obtain ⟨other, hother, ⟨left, hleft, hleftkind, hleftcaption⟩,
    right, hright, hrightkind, hrightcaption⟩ := hquotes
  refine ⟨⟨tree, htree, leaf, hleaf, hkind, hcaption, ?_⟩,
    other, hother, left, hleft, right, hright, hleftkind, hrightkind, ?_, ?_⟩
  · rw [hcaption, Dot.exists_denotes_identifier_iff (fun h => by cases h)]
    decide
  · rw [hleftcaption, hrightcaption]
    decide
  · rw [hleftcaption, hrightcaption]
    decide

end SimpleC
