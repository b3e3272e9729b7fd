import SimpleC.Text.Identifier
import SimpleC.Text.Quoted
import SimpleC.Token.Basic

/-!
# The wire form of a token

Tokens travel as texts. A payload token is written as the name of its kind, a
colon and the payload, which may hold further colons; any other text is a bare
token with that spelling, and its kind is read off the spelling.
-/

namespace SimpleC

/-- The spelling that ends a program. -/
def endSpelling : String := "$"

/-- The spellings of operators. -/
def operatorSpellings : List String :=
  ["+", "-", "*", "/", "^", "<", "<=", ">", ">=", "==", "!=", "=", ">>", "<<"]

/-- The reserved words. -/
def reservedWords : List String :=
  ["void", "main", "int", "real", "cin", "cout", "endl", "if", "else", "true", "false"]

/-- The spellings of the two truth values. -/
def boolSpellings : List String :=
  ["true", "false"]

/-- The kind of a bare token with the given spelling. Every word is a keyword,
reserved or not. -/
def TokenKind.ofBareSpelling (spelling : String) : TokenKind :=
  if spelling = endSpelling then
    .endMarker
  else if spelling ∈ operatorSpellings then
    .operator
  else if spelling ∈ reservedWords ∨ Text.isIdentifier spelling then
    .keyword
  else
    .punctuation

/-- A spelling never makes a payload token. -/
@[simp] theorem TokenKind.hasPayload_ofBareSpelling (spelling : String) :
    (TokenKind.ofBareSpelling spelling).hasPayload = false := by
  unfold TokenKind.ofBareSpelling
  split
  · rfl
  · split
    · rfl
    · split <;> rfl

/-- The payload kind with the given name. -/
def TokenKind.ofTag? (tag : String) : Option TokenKind :=
  TokenKind.payloadKinds.find? (fun kind => kind.name = tag)

/-- Cuts a text at its first colon. -/
def cutAtColon : List Char → Option (List Char × List Char)
  | [] => none
  | c :: rest =>
      if c = ':' then
        some ([], rest)
      else
        (cutAtColon rest).map (fun (tag, payload) => (c :: tag, payload))

/-- The text is the tag, the colon and the payload, and the tag has no colon. -/
theorem cutAtColon_eq_some_iff {text tag payload : List Char} :
    cutAtColon text = some (tag, payload) ↔ text = tag ++ ':' :: payload ∧ ':' ∉ tag := by
  induction text generalizing tag with
  | nil =>
      simp [cutAtColon]
  | cons c rest ih =>
      by_cases hc : c = ':'
      · subst hc
        cases tag with
        | nil =>
            simp [cutAtColon, eq_comm]
        | cons d tag =>
            simp only [cutAtColon, if_true, List.cons_append, List.cons.injEq, List.mem_cons]
            constructor
            · intro h
              simp at h
            · rintro ⟨⟨hd, _⟩, hmem⟩
              exact absurd (Or.inl hd) hmem
      · simp only [cutAtColon, if_neg hc, Option.map_eq_some_iff, Prod.exists, Prod.mk.injEq]
        cases tag with
        | nil =>
            simp [hc]
        | cons d tag =>
            constructor
            · rintro ⟨a, b, hcut, hcons, rfl⟩
              obtain ⟨rfl, rfl⟩ := List.cons.inj hcons
              obtain ⟨rfl, hmem⟩ := ih.mp hcut
              exact ⟨rfl, by simp [hmem, Ne.symm hc]⟩
            · rintro ⟨heq, hmem⟩
              obtain ⟨rfl, rfl⟩ := List.cons.inj heq
              refine ⟨tag, payload, ih.mpr ⟨rfl, ?_⟩, rfl, rfl⟩
              exact fun h => hmem (List.mem_cons_of_mem _ h)

namespace Token

/-- The bare token with the given spelling. -/
def bare (spelling : String) : Token :=
  ⟨TokenKind.ofBareSpelling spelling, spelling⟩

/-- The text that a token travels as. -/
def wire (token : Token) : String :=
  if token.kind.hasPayload then
    token.kind.name ++ ":" ++ token.text
  else
    token.text

/-- Reads a token off its wire form. -/
def ofWire (text : String) : Token :=
  match cutAtColon text.toList with
  | none => bare text
  | some (tag, payload) =>
      match TokenKind.ofTag? (String.ofList tag) with
      | none => bare text
      | some kind => ⟨kind, String.ofList payload⟩

/-- A token on display: its kind and its quoted text. -/
def describe (token : Token) : String :=
  "Token(" ++ token.kind.name ++ ", " ++ Text.quote token.text ++ ")"

end Token

end SimpleC
