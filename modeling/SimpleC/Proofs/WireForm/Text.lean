import Mathlib.Data.List.DropRight
import SimpleC.Proofs.WireForm.Basic
import SimpleC.Token.Item

/-!
# Texts of wire forms

A text lists wire forms if each of its lines holds one of them, with any number of carriage
returns behind it, or is blank. Every text lists exactly one list of wire forms, and the
tokens that are read off it are the tokens of these. So nothing is lost when the wire forms of
what was read are written one on a line.
-/

namespace SimpleC

/-- The wire form can stand on a line of its own: it is on one line, does not end like one and
can be seen. -/
structure FitsOnLine (wire : String) : Prop where
  unbroken : '\n' ∉ wire.toList
  ending : wire.toList.getLast? ≠ some '\r'
  visible : Text.isBlank wire.toList = false

/-- The line, without its line feed, holds the wire form, or it is blank and holds none. -/
inductive HoldsLine : List Char → Option String → Prop
  | token {wire : String} (hwire : FitsOnLine wire) (returns : Nat) :
      HoldsLine (wire.toList ++ List.replicate returns '\r') (some wire)
  | blank {line : List Char} (hblank : Text.isBlank line = true) (hunbroken : '\n' ∉ line) :
      HoldsLine line none

/-- The text lists the wire forms line by line; there need not be a line feed at its end. -/
inductive ListsWires : List Char → List String → Prop
  | last {line : List Char} {wire? : Option String} (hline : HoldsLine line wire?) :
      ListsWires line wire?.toList
  | line {line rest : List Char} {wire? : Option String} {wires : List String}
      (hline : HoldsLine line wire?)
      (hrest : ListsWires rest wires) :
      ListsWires (line ++ '\n' :: rest) (wire?.toList ++ wires)

namespace Text

theorem splitOn_eq (separator : Char) (text : List Char) :
    splitOn separator text = text.splitOn separator := by
  induction text with
  | nil =>
      rw [splitOn, List.splitOn_nil]
  | cons c rest ih =>
      rw [splitOn, List.splitOn_cons_eq_if_modifyHead, ih]
      simp only [beq_iff_eq]
      split
      · rfl
      · generalize hpieces : rest.splitOn separator = pieces
        cases pieces with
        | nil =>
            exact absurd hpieces (List.splitOn_ne_nil _ _)
        | cons piece pieces =>
            rfl

theorem isBlank_append (left right : List Char) :
    isBlank (left ++ right) = (isBlank left && isBlank right) :=
  List.all_append

/-- Carriage returns are blank. -/
theorem isBlank_returns (returns : Nat) : isBlank (List.replicate returns '\r') = true := by
  rw [isBlank, List.all_eq_true]
  intro c hc
  rw [List.eq_of_mem_replicate hc]
  decide

/-- The line of a text that stands for a piece between line feeds, if it is not blank. -/
theorem significantLines_eq (text : List Char) :
    significantLines text =
      (text.splitOn '\n').flatMap fun line =>
        [line.rdropWhile isLineEnd].filter fun line => !isBlank line := by
  rw [significantLines, splitOn_eq]
  induction text.splitOn '\n' with
  | nil =>
      rfl
  | cons line rest ih =>
      rw [List.flatMap_cons, ← ih, ← List.filter_append]
      rfl

end Text

section Lines

variable {wire : String} {wire? : Option String} {wires : List String} {line text : List Char}

/-- Carriage returns behind a wire form are no part of it. -/
theorem FitsOnLine.rdropWhile_returns (h : FitsOnLine wire) (returns : Nat) :
    (wire.toList ++ List.replicate returns '\r').rdropWhile Text.isLineEnd = wire.toList := by
  induction returns with
  | zero =>
      rw [List.replicate_zero, List.append_nil, List.rdropWhile_eq_self_iff]
      intro hwire hend
      rcases (by simpa [Text.isLineEnd] using hend : _ ∨ _) with hreturn | hfeed
      · exact h.ending (by rw [List.getLast?_eq_some_getLast hwire, hreturn])
      · exact h.unbroken (hfeed ▸ List.getLast_mem hwire)
  | succ returns ih =>
      rw [List.replicate_succ', ← List.append_assoc, List.rdropWhile_concat_pos _ _ _ (by decide), ih]

namespace HoldsLine

theorem unbroken (h : HoldsLine line wire?) : '\n' ∉ line := by
  cases h with
  | token hwire returns =>
      rw [List.mem_append, List.mem_replicate]
      rintro (hfeed | ⟨_, hreturn⟩)
      · exact hwire.unbroken hfeed
      · cases hreturn
  | blank _ hunbroken =>
      exact hunbroken

/-- What is read off a line is the wire form that it holds. -/
theorem filter_eq (h : HoldsLine line wire?) :
    ([line.rdropWhile Text.isLineEnd].filter fun line => !Text.isBlank line) =
      wire?.toList.map String.toList := by
  cases h with
  | token hwire returns =>
      rw [hwire.rdropWhile_returns, List.filter_singleton, hwire.visible]
      rfl
  | blank hblank =>
      have hrest : Text.isBlank (line.rdropWhile Text.isLineEnd) = true := by
        rw [Text.isBlank, List.all_eq_true] at hblank ⊢
        exact fun c hc => hblank c ((List.rdropWhile_prefix Text.isLineEnd line).subset hc)
      rw [List.filter_singleton, hrest]
      rfl

end HoldsLine

/-- On a line only carriage returns are taken for line ends. -/
theorem exists_rtakeWhile_eq (hunbroken : '\n' ∉ line) :
    ∃ returns, line.rtakeWhile Text.isLineEnd = List.replicate returns '\r' := by
  refine ⟨_, List.eq_replicate_of_mem ?_⟩
  intro c hc
  have hend : Text.isLineEnd c = true := List.mem_rtakeWhile_imp hc
  rcases (by simpa [Text.isLineEnd] using hend : _ ∨ _) with hreturn | hfeed
  · exact hreturn
  · have hmem : c ∈ line := (List.rtakeWhile_suffix Text.isLineEnd line).subset hc
    exact absurd (hfeed ▸ hmem) hunbroken

/-- What stands before the carriage returns of a line that is not blank fits on a line. -/
theorem fitsOnLine_rdropWhile
    (hunbroken : '\n' ∉ line)
    (hvisible : Text.isBlank line = false) :
    FitsOnLine (String.ofList (line.rdropWhile Text.isLineEnd)) where
  unbroken := by
    rw [String.toList_ofList]
    exact fun hfeed => hunbroken ((List.rdropWhile_prefix Text.isLineEnd line).subset hfeed)
  ending := by
    rw [String.toList_ofList]
    intro hlast
    have hne : line.rdropWhile Text.isLineEnd ≠ [] := by
      intro hnil
      rw [hnil] at hlast
      cases hlast
    refine List.rdropWhile_last_not Text.isLineEnd line hne ?_
    rw [List.getLast?_eq_some_getLast hne] at hlast
    rw [Option.some.inj hlast]
    decide
  visible := by
    obtain ⟨returns, hreturns⟩ := exists_rtakeWhile_eq hunbroken
    rw [← List.rdropWhile_append_rtakeWhile (p := Text.isLineEnd) (l := line), hreturns,
      Text.isBlank_append, Text.isBlank_returns, Bool.and_true] at hvisible
    rw [String.toList_ofList, hvisible]

/-- Whatever stands on a line is a wire form with carriage returns behind it, or blank. -/
theorem exists_holdsLine (hunbroken : '\n' ∉ line) : ∃ wire?, HoldsLine line wire? := by
  cases hvisible : Text.isBlank line with
  | true =>
      exact ⟨none, .blank hvisible hunbroken⟩
  | false =>
      obtain ⟨returns, hreturns⟩ := exists_rtakeWhile_eq hunbroken
      have htoken := HoldsLine.token (fitsOnLine_rdropWhile hunbroken hvisible) returns
      rw [String.toList_ofList, ← hreturns, List.rdropWhile_append_rtakeWhile] at htoken
      exact ⟨_, htoken⟩

theorem readTokens_of_significantLines
    {text : String}
    (h : Text.significantLines text.toList = wires.map String.toList) :
    readTokens text = wires.map Token.ofWire := by
  rw [readTokens, h, List.map_map]
  simp [Function.comp_def]

namespace ListsWires

/-- The significant lines of a text are the wire forms that it lists. -/
theorem significantLines_eq (h : ListsWires text wires) :
    Text.significantLines text = wires.map String.toList := by
  rw [Text.significantLines_eq]
  induction h with
  | last hline =>
      rw [List.splitOn_eq_singleton hline.unbroken, List.flatMap_singleton, hline.filter_eq]
  | line hline _ ih =>
      rw [List.splitOn_append_cons_self_of_not_mem hline.unbroken, List.flatMap_cons,
        hline.filter_eq, ih, List.map_append]

theorem fitsOnLine (h : ListsWires text wires) : ∀ wire ∈ wires, FitsOnLine wire := by
  have hfits {line : List Char} {wire? : Option String} (hline : HoldsLine line wire?) :
      ∀ wire ∈ wire?.toList, FitsOnLine wire := by
    cases hline with
    | token hwire =>
        simpa using hwire
    | blank =>
        simp
  induction h with
  | last hline =>
      exact hfits hline
  | line hline _ ih =>
      exact List.forall_mem_append.mpr ⟨hfits hline, ih⟩

theorem readTokens_eq {text : String} (h : ListsWires text.toList wires) :
    readTokens text = wires.map Token.ofWire :=
  readTokens_of_significantLines h.significantLines_eq

end ListsWires

/-- Every text lists some wire forms. -/
theorem exists_listsWires (text : List Char) : ∃ wires, ListsWires text wires := by
  by_cases hfeed : '\n' ∈ text
  · obtain ⟨line, rest, htext, hunbroken⟩ := List.eq_append_cons_of_mem hfeed
    have hshorter : rest.length < text.length := by
      rw [htext, List.length_append, List.length_cons]
      omega
    obtain ⟨wire?, hline⟩ := exists_holdsLine hunbroken
    obtain ⟨wires, hrest⟩ := exists_listsWires rest
    rw [htext]
    exact ⟨_, .line hline hrest⟩
  · obtain ⟨wire?, hline⟩ := exists_holdsLine hfeed
    exact ⟨_, .last hline⟩
termination_by text.length
decreasing_by exact hshorter

/-- Wire forms that fit on lines are read off their lines. -/
theorem readTokens_intercalate (hfits : ∀ wire ∈ wires, FitsOnLine wire) :
    readTokens ("\n".intercalate wires) = wires.map Token.ofWire := by
  cases wires with
  | nil =>
      rfl
  | cons first rest =>
      have hunbroken : ∀ line ∈ (first :: rest).map String.toList, '\n' ∉ line := by
        rw [List.forall_mem_map]
        exact fun wire hwire => (hfits wire hwire).unbroken
      have hline : ∀ wire ∈ first :: rest,
          ([wire.toList.rdropWhile Text.isLineEnd].filter fun line => !Text.isBlank line) =
            [wire.toList] := by
        intro wire hwire
        simpa using (HoldsLine.token (hfits wire hwire) 0).filter_eq
      refine readTokens_of_significantLines ?_
      rw [String.toList_intercalate, Text.significantLines_eq]
      change ((['\n'].intercalate _).splitOn '\n').flatMap _ = _
      rw [List.splitOn_intercalate '\n' hunbroken (by simp), List.flatMap_map,
        List.flatMap_congr hline, ← List.map_eq_flatMap]

end Lines

/-- A text lists wire forms exactly if their tokens are what is read off it. Written one on a
line, the wire forms of what was read off a text, whatever it was, are read as the same tokens. -/
theorem tokens_are_read_line_by_line :
    (∀ (text : String) (wires : List String),
      ListsWires text.toList wires ↔ readTokens text = wires.map Token.ofWire) ∧
      ∀ text : String,
        readTokens ("\n".intercalate ((readTokens text).map Token.wire)) = readTokens text := by
  constructor
  · intro text wires
    refine ⟨ListsWires.readTokens_eq, ?_⟩
    intro hread
    obtain ⟨others, hlists⟩ := exists_listsWires text.toList
    rw [hlists.readTokens_eq] at hread
    have hsame : others = wires :=
      List.map_injective_iff.mpr (Function.LeftInverse.injective Token.wire_ofWire) hread
    exact hsame ▸ hlists
  · intro text
    obtain ⟨wires, hlists⟩ := exists_listsWires text.toList
    have hwires : (readTokens text).map Token.wire = wires := by
      rw [hlists.readTokens_eq, List.map_map]
      simp [Function.comp_def, Token.wire_ofWire]
    rw [hwires, readTokens_intercalate hlists.fitsOnLine, hlists.readTokens_eq]

example : (readTokens "int \r\r\n\u00a0\r\n\nidentifier: x").map Token.wire =
    ["int ", "identifier: x"] := by
  decide

end SimpleC
