import SimpleC.Text.Lines
import SimpleC.Token.Wire

/-!
# Lists of tokens

A list of tokens may be handed over in mixed form: wire texts, tokens already
built, and by mistake values of another type, which no token can be read off.
It may also be handed over as a text, which holds the wire form of one token on
each line that is not blank; blanks before and after a token belong to it. It is
shown as a numbered list, cut off after a given number.
-/

namespace SimpleC

/-- What stands at one place of a list that should hold tokens. -/
inductive TokenItem where
  | wire (text : String)
  | built (token : Token)
  | foreign (typeName : String)
  deriving DecidableEq, Inhabited

/-- The item that was met is not a text. -/
structure NotAText where
  typeName : String
  deriving DecidableEq

/-- The message names the type that was met. -/
def NotAText.message (error : NotAText) : String :=
  "token must be a string, got " ++ error.typeName

namespace TokenItem

/-- Tokens that are already built pass unchanged; texts are read. -/
def decode : TokenItem → Except NotAText Token
  | wire text => .ok (Token.ofWire text)
  | built token => .ok token
  | foreign typeName => .error ⟨typeName⟩

/-- Reads a whole list; the first item that cannot be read is reported. -/
def decodeAll (items : List TokenItem) : Except NotAText (List Token) :=
  items.mapM decode

end TokenItem

/-- Reads the tokens of a text. -/
def readTokens (text : String) : List Token :=
  (Text.significantLines text.toList).map (fun line => Token.ofWire (String.ofList line))

/-- The first `limit` items of a list; a negative limit leaves out that many
items at the end. -/
def takeSigned {α : Type} (limit : Int) (items : List α) : List α :=
  if 0 ≤ limit then
    items.take limit.toNat
  else
    items.take (items.length - limit.natAbs)

/-- One numbered line of the listing. -/
def listingLine (index : Nat) (token : Token) : String :=
  "  " ++ String.ofList ((toString index).toList.leftpad 3 ' ') ++ ": " ++ token.wire

/-- How many tokens a listing shows when nothing else is asked for. -/
def defaultListingLimit : Int := 50

/-- A heading with the number of tokens, the tokens up to the limit, and how
many more there are. -/
def tokenListing (tokens : List Token) (limit : Int) : String :=
  let heading := "Tokens (" ++ toString tokens.length ++ "):"
  let shown := (takeSigned limit tokens).mapIdx listingLine
  let hidden : Int := tokens.length - limit
  let remark := if 0 < hidden then ["  ... and " ++ toString hidden ++ " more"] else []
  String.intercalate "\n" (heading :: shown ++ remark)

end SimpleC
