import Mathlib.Logic.Function.Defs
import SimpleC.Token.Wire

/-!
# Wire forms

Every text is the wire form of the one token that is read off it. The other way round, a token
is read off its wire form if it carries a payload; a bare one is if its text does not begin like
a payload token and its kind is the one that its spelling calls for. So the tokens that can be
read off texts are told by a test on the token alone.
-/

namespace SimpleC

/-- The text begins with the name of a payload kind and a colon. -/
def IsTagged (text : String) : Prop :=
  ∃ (kind : TokenKind) (payload : String),
    kind.hasPayload = true ∧ text = kind.name ++ ":" ++ payload

namespace TokenKind

/-- The tags are the names of the payload kinds. -/
theorem ofTag?_eq_some_iff {tag : String} {kind : TokenKind} :
    ofTag? tag = some kind ↔ kind.hasPayload = true ∧ kind.name = tag := by
  unfold ofTag?
  constructor
  · intro h
    have hmem := List.mem_of_find?_eq_some h
    have hname := List.find?_some h
    rw [payloadKinds, List.mem_filter] at hmem
    exact ⟨hmem.2, of_decide_eq_true hname⟩
  · rintro ⟨hpayload, rfl⟩
    cases hfound : payloadKinds.find? (fun other => other.name = kind.name) with
    | none =>
        have hmem : kind ∈ payloadKinds := List.mem_filter.mpr ⟨mem_all kind, hpayload⟩
        simpa using List.find?_eq_none.mp hfound kind hmem
    | some other =>
        have hname := List.find?_some hfound
        rw [name_injective (of_decide_eq_true hname)]

/-- A tag ends at its colon. -/
theorem colon_notMem_name (kind : TokenKind) : ':' ∉ kind.name.toList := by
  cases kind <;> decide

end TokenKind

namespace Token

variable {text : String}

/-- After a tag everything is payload, further colons included. -/
theorem ofWire_tagged
    {kind : TokenKind}
    (hpayload : kind.hasPayload = true)
    (payload : String) :
    ofWire (kind.name ++ ":" ++ payload) = ⟨kind, payload⟩ := by
  have hcut : cutAtColon (kind.name ++ ":" ++ payload).toList =
      some (kind.name.toList, payload.toList) := by
    rw [cutAtColon_eq_some_iff]
    exact ⟨by simp, kind.colon_notMem_name⟩
  have htag : TokenKind.ofTag? kind.name = some kind :=
    TokenKind.ofTag?_eq_some_iff.mpr ⟨hpayload, rfl⟩
  simp only [ofWire, hcut, String.ofList_toList, htag]

/-- A text without a tag is a spelling. -/
theorem ofWire_of_not_isTagged (h : ¬ IsTagged text) : ofWire text = bare text := by
  unfold ofWire
  split
  · rfl
  · rename_i tag payload hcut
    split
    · rfl
    · rename_i kind htag
      obtain ⟨hpayload, hname⟩ := TokenKind.ofTag?_eq_some_iff.mp htag
      have htext := (cutAtColon_eq_some_iff.mp hcut).1
      refine absurd ⟨kind, String.ofList payload, hpayload, ?_⟩ h
      rw [hname, ← String.toList_inj, htext]
      simp

/-- A text has a tag exactly if a payload token is read off it. -/
theorem isTagged_iff : IsTagged text ↔ (ofWire text).kind.hasPayload = true := by
  constructor
  · rintro ⟨kind, payload, hpayload, rfl⟩
    rw [ofWire_tagged hpayload, hpayload]
  · intro hread
    by_cases h : IsTagged text
    · exact h
    · rw [ofWire_of_not_isTagged h, bare, TokenKind.hasPayload_ofBareSpelling] at hread
      cases hread

instance : DecidablePred IsTagged :=
  fun _ => decidable_of_iff _ isTagged_iff.symm

theorem wire_of_payload
    {kind : TokenKind}
    (hpayload : kind.hasPayload = true)
    (payload : String) :
    wire ⟨kind, payload⟩ = kind.name ++ ":" ++ payload :=
  if_pos hpayload

theorem wire_of_bare
    {token : Token}
    (hbare : token.kind.hasPayload = false) :
    token.wire = token.text := by
  rw [wire, hbare]
  rfl

theorem wire_bare (spelling : String) : (bare spelling).wire = spelling :=
  wire_of_bare (TokenKind.hasPayload_ofBareSpelling spelling)

/-- Nothing of a text is lost when a token is read off it. -/
theorem wire_ofWire (text : String) : (ofWire text).wire = text := by
  by_cases h : IsTagged text
  · obtain ⟨kind, payload, hpayload, rfl⟩ := h
    rw [ofWire_tagged hpayload, wire_of_payload hpayload]
  · rw [ofWire_of_not_isTagged h, wire_bare]

/-- A payload token is read off its wire form. -/
theorem ofWire_wire_of_payload
    {token : Token}
    (hpayload : token.kind.hasPayload = true) :
    ofWire token.wire = token := by
  obtain ⟨kind, payload⟩ := token
  rw [wire_of_payload hpayload, ofWire_tagged hpayload]

/-- A bare token is read off its wire form exactly if that has no tag and calls for its kind. -/
theorem ofWire_wire_of_bare_iff
    {token : Token}
    (hbare : token.kind.hasPayload = false) :
    ofWire token.wire = token ↔
      ¬ IsTagged token.text ∧ token.kind = .ofBareSpelling token.text := by
  rw [wire_of_bare hbare]
  constructor
  · intro hread
    have huntagged : ¬ IsTagged token.text := by
      rintro ⟨kind, payload, hpayload, htext⟩
      rw [htext, ofWire_tagged hpayload] at hread
      rw [← hread, hpayload] at hbare
      cases hbare
    rw [ofWire_of_not_isTagged huntagged] at hread
    exact ⟨huntagged, (congrArg kind hread).symm⟩
  · rintro ⟨huntagged, hkind⟩
    rw [ofWire_of_not_isTagged huntagged, bare, ← hkind]

end Token

/-- Reading and writing tokens undo each other. Every text is the wire form of the token that is
read off it, so that different texts are different tokens. A token is read off its wire form
exactly if it carries a payload, or is bare with a text that has no tag and calls for its kind. -/
theorem wire_form_round_trips :
    (∀ text, (Token.ofWire text).wire = text) ∧
      Function.Injective Token.ofWire ∧
        ∀ token : Token, Token.ofWire token.wire = token ↔
          token.kind.hasPayload = true ∨
            token.kind.hasPayload = false ∧ ¬ IsTagged token.text ∧
              token.kind = .ofBareSpelling token.text := by
  refine ⟨Token.wire_ofWire, Function.LeftInverse.injective Token.wire_ofWire, ?_⟩
  intro token
  cases hkind : token.kind.hasPayload with
  | true =>
      simpa using Token.ofWire_wire_of_payload hkind
  | false =>
      simpa using Token.ofWire_wire_of_bare_iff hkind

end SimpleC
