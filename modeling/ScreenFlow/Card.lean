import ScreenFlow.Json.Value
import ScreenFlow.Poll
import ScreenFlow.Signal

/-!
# Cards

What the backend says about a card, what of it can be shown to the user, and
how far the activation of the card is.
-/

namespace ScreenFlow

/-- How far a card is, in the words of the backend. -/
inductive CardState where
  | absent
  | pending
  | created
  | active
  | blocked
  | expired
  | fraudReview
  | manualReview
  deriving DecidableEq, Repr

namespace CardState

/-- The word for a state in the answers of the backend. -/
def key : CardState → String
  | absent => "NONE"
  | pending => "PENDING"
  | created => "CREATED"
  | active => "ACTIVE"
  | blocked => "BLOCKED"
  | expired => "EXPIRED"
  | fraudReview => "FRAUD_REVIEW"
  | manualReview => "MANUAL_REVIEW"

def all : List CardState :=
  [absent, pending, created, active, blocked, expired, fraudReview,
    manualReview]

def ofKey? (text : String) : Option CardState :=
  all.find? fun state => state.key == text

end CardState

/-- What is printed on a card, as far as the backend tells. -/
structure CardDetails where
  number : String
  brand : String
  label : Option String
  expiryMonth : UInt32
  expiryYear : UInt32
  deriving DecidableEq, Repr

/-- An answer of the backend about a card. -/
structure CardPayload where
  id : String
  partner : String
  state : CardState
  currency : String
  card : Option CardDetails
  deriving DecidableEq, Repr

/-- A card with enough detail to be shown to the user. -/
structure CardData where
  identifier : String
  partner : String
  currency : String
  lastFourDigits : String
  brand : String
  label : String
  expiryMonth : UInt32
  expiryYear : UInt32
  deriving DecidableEq, Repr

/-- The card in an answer that names it and gives exactly four bytes of its
number.  A card without a label is called by its brand and number. -/
def CardData.ofPayload? (payload : CardPayload) : Option CardData := do
  let card ← payload.card
  if payload.id.isEmpty || card.number.utf8ByteSize ≠ 4 then
    none
  else
    return {
      identifier := payload.id
      partner := payload.partner
      currency := payload.currency
      lastFourDigits := card.number
      brand := card.brand
      label := card.label.getD s!"{card.brand} {card.number}"
      expiryMonth := card.expiryMonth
      expiryYear := card.expiryYear }

/-- How far the activation of a card is. -/
inductive Activation where
  | active (card : CardData)
  | pending
  | inactive (card : Option CardData)
  deriving DecidableEq, Repr

namespace Activation

/-- A card is pending as long as the backend says so, and active if the
backend says so and the card can be shown. -/
def ofPayload (payload : CardPayload) : Activation :=
  match payload.state with
  | .pending => .pending
  | .active =>
      match CardData.ofPayload? payload with
      | some card => .active card
      | none => .inactive none
  | .absent | .created | .blocked | .expired | .fraudReview | .manualReview =>
      .inactive (CardData.ofPayload? payload)

/-- Whether the activation is still to be decided. -/
def isPending : Activation → Bool
  | pending => true
  | active _ | inactive _ => false

def key : Activation → String
  | active _ => "active"
  | pending => "pending"
  | inactive _ => "inactive"

/-- The name of an activation in a report for readers. -/
def label : Activation → String
  | active card => s!"Active({card.identifier})"
  | pending => "Pending"
  | inactive (some card) => s!"Inactive({card.identifier})"
  | inactive none => "Inactive(None)"

end Activation

/-- What the end of a wait means for the flow.  A user who backs out goes back
through the flow itself, so a wait that was cancelled means nothing. -/
def CardStatus.ofResult? {Error : Type} :
    PollResult Activation Error → Option CardStatus
  | .matched (.active _) => some .activated
  | .matched (.inactive _) | .timedOut => some .failed
  | .matched .pending | .cancelled => some .unknown
  | .failed _ _ => none

/-! ## Reading and writing -/

namespace JsonValue

def toUInt32? (value : JsonValue) : Option UInt32 := do
  let number ← value.toNat?
  if number < UInt32.size then return UInt32.ofNat number else none

/-- The values of named fields of a record in which no field is repeated. -/
def properFields? (names : List String) (value : JsonValue) :
    Option (List (Option JsonValue)) :=
  if value.hasProperNames names then value.fields? names else none

/-- A field that may be missing or null, and is read otherwise. -/
def nullable? {Value : Type} (read : JsonValue → Option Value) :
    Option JsonValue → Option (Option Value)
  | none | some .null => some none
  | some value => some <$> read value

/-- A state by its name, or by an object of one member with that name. -/
def toCardState? : JsonValue → Option CardState
  | .text (some name) => CardState.ofKey? name
  | .object [(some name, .null)] => CardState.ofKey? name
  | _ => none

def toCardDetails? (value : JsonValue) : Option CardDetails := do
  match ← value.properFields?
      ["number", "type", "label", "expiryMonth", "expiryYear"] with
  | [digits, brand, label, month, year] =>
      return {
        number := ← (← digits).toText?
        brand := ← (← brand).toText?
        label := ← nullable? toText? label
        expiryMonth := ← (← month).toUInt32?
        expiryYear := ← (← year).toUInt32? }
  | _ => none

/-- An answer about a card, if the value is one. -/
def toCardPayload? (value : JsonValue) : Option CardPayload := do
  match ← value.properFields? ["id", "partner", "state", "currency", "card"] with
  | [id, partner, state, currency, card] =>
      return {
        id := ← (← id).toText?
        partner := ← (← partner).toText?
        state := ← (← state).toCardState?
        currency := ← (← currency).toText?
        card := ← nullable? toCardDetails? card }
  | _ => none

end JsonValue

end ScreenFlow
