import LiveFeed.OrderedList
import LiveFeed.SortOrder
import LiveFeed.Wire.Schema

namespace LiveFeed

/-- An account and what it holds. -/
structure Wallet where
  /-- The address of the wallet. -/
  token : String
  balance : UInt64
  hash : Option String := none
  deriving DecidableEq, Repr

namespace Wallet

@[reducible] def fields : List Field :=
  [{ name := "token", Content := String, form := Form.text },
    { name := "balance", Content := UInt64, form := Form.balance },
    { name := "hash", Content := Option String, form := Form.optionalText, default? := some none,
      omits := Option.isNone }]

def schema : Schema Wallet where
  title := "struct Wallet"
  fields := fields
  ofRow := fun (token, balance, hash, ()) => ⟨token, balance, hash⟩
  toRow w := (w.token, w.balance, w.hash, ())

/-- The first characters of an address, with dots in place of the rest. -/
def abbreviate (token : String) : String :=
  match token.toList.drop 20 with
  | [] => token
  | _ :: _ => String.ofList (token.toList.take 20) ++ "..."

def render (w : Wallet) : Except String Element :=
  if w.token.isEmpty then .error "wallet has no address"
  else .ok <| (Element.paragraph.withClass "walletdetails").withChildren [
    (Element.span.withClass "wallet").withText (abbreviate w.token),
    (Element.span.withClass "walletbalance").withText (Balance.display w.balance)]

def precedes (order : SortOrder) (a b : Wallet) : Bool :=
  match order with
  | .ascending => a.balance < b.balance
  | .descending => b.balance < a.balance

/-- Wallets are ordered by balance. -/
def layout (order : SortOrder) : Layout Wallet where
  token := token
  render := render
  precedes := precedes order

end Wallet

end LiveFeed
