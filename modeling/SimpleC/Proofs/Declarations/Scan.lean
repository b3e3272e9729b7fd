import SimpleC.Proofs.Course.TypePhases

/-!
# Declarations in a list of tokens

Three tokens in a row that read as a declaration declare a variable, wherever they
stand. Steps are scanned if they add to the symbol table what such a scan of the
tokens that they consume finds; where they end at a variable that is declared again,
its declaration is the last one and is not added.

A scan of two parts is the scan of each of them, unless a declaration lies across the
place where they meet.
-/

namespace SimpleC

/-- The type that a bare word gives to the variable of a declaration. -/
def Token.declarator? (token : Token) : Option ValueType :=
  token.spelling?.bind ValueType.ofDeclarator?

/-- The variable that three tokens in a row declare, if they do. -/
def declaredBy? (word name semicolon : Token) : Option Symbol :=
  match word.declarator? with
  | some type =>
      if name.kind = .identifier ∧ semicolon.isSpelled ";" = true then
        some ⟨name.text, type⟩
      else
        none
  | none => none

/-- The variables that are declared by any three tokens in a row, in order. -/
def declaredIn : List Token → List Symbol
  | word :: name :: semicolon :: rest =>
      (declaredBy? word name semicolon).toList ++ declaredIn (name :: semicolon :: rest)
  | _ => []

section Settled

variable {token : Token} {rest left right : List Token}

/-- A token that is no word of a declaration begins none. -/
theorem declaredIn_cons (htoken : token.declarator? = none) :
    declaredIn (token :: rest) = declaredIn rest := by
  cases rest with
  | nil =>
      rfl
  | cons name rest =>
      cases rest with
      | nil =>
          rfl
      | cons semicolon rest =>
          simp [declaredIn, declaredBy?, htoken]

/-- No declaration begins in the tokens and goes on after them. -/
def Settled (tokens : List Token) : Prop :=
  ∀ rest, declaredIn (tokens ++ rest) = declaredIn tokens ++ declaredIn rest

theorem settled_nil : Settled [] := by
  intro rest
  rfl

theorem settled_singleton (htoken : token.declarator? = none) : Settled [token] := by
  intro rest
  exact declaredIn_cons htoken

theorem Settled.append (hleft : Settled left) (hright : Settled right) :
    Settled (left ++ right) := by
  intro rest
  rw [List.append_assoc, hleft, hright, hleft, List.append_assoc]

/-- An identifier is no word of a declaration. -/
theorem Token.declarator?_of_kind
    {kind : TokenKind}
    (hpayload : kind.hasPayload = true)
    (hkind : token.kind = kind) :
    token.declarator? = none := by
  simp [declarator?, spelling?, hkind, hpayload]

/-- A bare token is a word of a declaration if its spelling is. -/
theorem Token.declarator?_of_isSpelled
    {spelling : String}
    (hspelled : token.isSpelled spelling = true) :
    token.declarator? = ValueType.ofDeclarator? spelling := by
  have hspelling : token.spelling? = some spelling := by
    simpa [isSpelled] using hspelled
  rw [declarator?, hspelling, Option.bind_some]

/-- A whole declaration declares its variable. -/
theorem declaredIn_declaration
    {word name semicolon : Token}
    {symbol : Symbol}
    (h : declaredBy? word name semicolon = some symbol) :
    declaredIn (word :: name :: semicolon :: rest) = symbol :: declaredIn rest := by
  have hparts : name.kind = .identifier ∧ semicolon.isSpelled ";" = true := by
    unfold declaredBy? at h
    split at h
    · split at h
      · rename_i hparts
        exact hparts
      · cases h
    · cases h
  have hname : name.declarator? = none := Token.declarator?_of_kind rfl hparts.1
  have hsemicolon : semicolon.declarator? = none := by
    rw [Token.declarator?_of_isSpelled hparts.2]
    rfl
  rw [declaredIn, h, declaredIn_cons hname, declaredIn_cons hsemicolon]
  rfl

/-- What is declared later is declared in all of the tokens. -/
theorem declaredIn_subset_append (earlier : List Token) :
    declaredIn rest ⊆ declaredIn (earlier ++ rest) := by
  induction earlier with
  | nil =>
      exact List.Subset.refl _
  | cons token earlier ih =>
      intro symbol hsymbol
      have hmem := ih hsymbol
      rw [List.cons_append]
      match hlater : earlier ++ rest with
      | [] | [_] =>
          rw [hlater] at hmem
          cases hmem
      | name :: semicolon :: later =>
          rw [hlater] at hmem
          exact List.mem_append_right _ hmem

/-- A declaration declares its variable wherever it stands. -/
theorem mem_declaredIn_of_declaredBy?
    {word name semicolon : Token}
    {symbol : Symbol}
    (h : declaredBy? word name semicolon = some symbol)
    (earlier : List Token) :
    symbol ∈ declaredIn (earlier ++ word :: name :: semicolon :: rest) := by
  refine declaredIn_subset_append earlier ?_
  rw [declaredIn_declaration h]
  exact List.mem_cons_self

theorem settled_declaration
    {word name semicolon : Token}
    {symbol : Symbol}
    (h : declaredBy? word name semicolon = some symbol) :
    Settled [word, name, semicolon] := by
  intro rest
  rw [List.cons_append, List.cons_append, List.cons_append, List.nil_append,
    declaredIn_declaration h, declaredIn_declaration h]
  rfl

end Settled

/-- The symbol table that comes of steps which consume the given tokens: it is extended by
all variables that are declared in them or, after a redefinition, by all but the last one,
whose declaration ends the tokens. -/
inductive Outcome.Scans (symbols : SymbolTable) (tokens : List Token) (outcome : Outcome) : Prop
  | extended
      (hviolation : ∀ name, outcome.violation? ≠ some (.redefined name))
      (hentries : outcome.findings.symbols.entries = symbols.entries ++ declaredIn tokens)
  | redefined {earlier : List Token} {word name semicolon : Token}
      {declared : List Symbol} {symbol : Symbol}
      (htokens : tokens = earlier ++ [word, name, semicolon])
      (hlast : declaredBy? word name semicolon = some symbol)
      (hdeclared : declaredIn tokens = declared ++ [symbol])
      (hviolation : outcome.violation? = some (.redefined symbol.name))
      (hbound : symbol.name ∈ outcome.findings.symbols.names)
      (hentries : outcome.findings.symbols.entries = symbols.entries ++ declared)

/-- When variables are declared, the steps add what a scan of the consumed tokens finds. -/
def Step.Scanned (steps : List Step) : Prop :=
  ∀ (switches : Switches) (findings : Findings), switches.declare = true →
    (outcome switches steps findings).Scans findings.symbols
      ((tokens steps).take (outcome switches steps findings).consumed)

namespace Step

variable {left right : List Step}

theorem scanned_nil : Scanned [] := by
  intro switches findings _
  refine .extended ?_ ?_
  · intro name hviolation
    cases hviolation
  · simp [outcome, declaredIn]

theorem scanned_read (token : Token) : Scanned [read token] := by
  intro switches findings _
  refine .extended ?_ ?_
  · intro name hviolation
    cases hviolation
  · simp [outcome, declaredIn]

/-- Steps that end at a violation of the grammar add nothing to what they consume before it,
as long as this is no declaration. -/
theorem scanned_stop
    {violation : Violation}
    (hphase : violation.phase = .grammar) :
    Scanned [stop violation] := by
  intro switches findings _
  refine .extended ?_ ?_
  · intro name hviolation
    cases hviolation
    cases hphase
  · simp [outcome, declaredIn]

theorem scanned_check
    {demand : Demand}
    (hkind : demand.isDeclaration = false) :
    Scanned [check demand] := by
  intro switches findings _
  cases hanswer : demand.answer switches findings.symbols with
  | error violation =>
      refine .extended ?_ ?_
      · intro name hviolation
        simp only [outcome, hanswer, Option.some.injEq] at hviolation
        have hphase := Demand.phase_of_answer hkind hanswer
        rw [hviolation] at hphase
        simp [typePhases, Violation.phase] at hphase
      · simp [outcome, hanswer, declaredIn]
  | ok found =>
      obtain ⟨extended, warnings⟩ := found
      have hsame := Demand.symbols_of_answer hkind hanswer
      refine .extended ?_ ?_
      · intro name hviolation
        simp [outcome, hanswer] at hviolation
      · simp [outcome, hanswer, declaredIn, hsame]

/-- Scanned steps in a row are scanned, if no declaration lies across the place where they
meet. -/
theorem Scanned.append
    (hleft : Scanned left)
    (hsettled : Settled (tokens left))
    (hright : Scanned right) :
    Scanned (left ++ right) := by
  intro switches findings hdeclare
  have hfirst := hleft switches findings hdeclare
  cases hviolation : (outcome switches left findings).violation? with
  | some violation =>
      rw [outcome_append_of_violation hviolation, tokens_append,
        List.take_append_of_le_length (consumed_le switches left findings)]
      exact hfirst
  | none =>
      have hconsumed := consumed_of_none hviolation
      have hsecond := hright switches (outcome switches left findings).findings hdeclare
      rw [outcome_append_of_none hviolation, tokens_append]
      simp only
      rw [hconsumed, List.take_length_add_append]
      rw [hconsumed, List.take_length] at hfirst
      generalize (tokens right).take _ = consumed at hsecond ⊢
      cases hfirst with
      | redefined _ _ _ hredefined =>
          rw [hviolation] at hredefined
          cases hredefined
      | extended _ hentries =>
          cases hsecond with
          | extended hnot hentries' =>
              refine .extended hnot ?_
              rw [hentries', hentries, hsettled, List.append_assoc]
          | @redefined _ _ _ _ declared symbol htokens hlast hdeclared hredefined hbound
              hentries' =>
              have hall : declaredIn (tokens left ++ consumed) =
                  (declaredIn (tokens left) ++ declared) ++ [symbol] := by
                rw [hsettled, hdeclared, List.append_assoc]
              refine .redefined (by rw [htokens, ← List.append_assoc]) hlast hall hredefined
                hbound ?_
              rw [hentries', hentries, List.append_assoc]

end Step

end SimpleC
