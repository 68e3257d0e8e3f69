/-
# Offers

An account offers an amount of one asset at a price in another. Offer number 0 stands for a new
offer; another number changes that offer, and the amount 0 withdraws it.

* `ManageSellOfferOp`, `ManageBuyOfferOp` — offers whose amount is of what is sold, or bought.
* `CreatePassiveSellOfferOp` — offers that leave other offers at the same price alone.
-/

import LedgerWire.Operation.Rules
import LedgerWire.Price

namespace LedgerWire

open Schema

/-- Offers an amount for sale. The price is what one unit of it costs. -/
structure ManageSellOfferOp where
  selling : Asset
  buying : Asset
  amount : Amount
  price : Price
  offerId : Int64 := 0
  deriving DecidableEq, Repr

namespace ManageSellOfferOp

/-- The assets and the price are valid, and neither the amount nor the number is negative. -/
def validate (op : ManageSellOfferOp) : Except WireError Unit := do
  op.selling.validate
  op.buying.validate
  op.amount.requireNonNegative "amount"
  op.price.validate
  checkNotNegative "offer_id" op.offerId

def schema : Schema ManageSellOfferOp :=
  ((field "selling" Asset.schema >> field "buying" Asset.schema >> field "amount" Amount.schema
    >> field "price" Price.schema >> field "offer_id" .i64).record
    (fun (selling, buying, amount, price, offerId) => ⟨selling, buying, amount, price, offerId⟩)
    fun op => (op.selling, op.buying, op.amount, op.price, op.offerId)).guarded validate

end ManageSellOfferOp

/-- Asks for an amount. The price is what one unit of it costs. -/
structure ManageBuyOfferOp where
  selling : Asset
  buying : Asset
  buyAmount : Amount
  price : Price
  offerId : Int64 := 0
  deriving DecidableEq, Repr

namespace ManageBuyOfferOp

/-- The assets and the price are valid, and neither the amount nor the number is negative. -/
def validate (op : ManageBuyOfferOp) : Except WireError Unit := do
  op.selling.validate
  op.buying.validate
  op.buyAmount.requireNonNegative "buy_amount"
  op.price.validate
  checkNotNegative "offer_id" op.offerId

def schema : Schema ManageBuyOfferOp :=
  ((field "selling" Asset.schema >> field "buying" Asset.schema
    >> field "buy_amount" Amount.schema >> field "price" Price.schema
    >> field "offer_id" .i64).record
    (fun (selling, buying, buyAmount, price, offerId) =>
      ⟨selling, buying, buyAmount, price, offerId⟩)
    fun op => (op.selling, op.buying, op.buyAmount, op.price, op.offerId)).guarded validate

end ManageBuyOfferOp

/-- Offers an amount for sale, without taking offers at the same price. -/
structure CreatePassiveSellOfferOp where
  selling : Asset
  buying : Asset
  amount : Amount
  price : Price
  deriving DecidableEq, Repr

namespace CreatePassiveSellOfferOp

/-- The assets and the price are valid, and the amount is above zero. -/
def validate (op : CreatePassiveSellOfferOp) : Except WireError Unit := do
  op.selling.validate
  op.buying.validate
  op.amount.requirePositive "amount"
  op.price.validate

def schema : Schema CreatePassiveSellOfferOp :=
  ((field "selling" Asset.schema >> field "buying" Asset.schema >> field "amount" Amount.schema
    >> field "price" Price.schema).record
    (fun (selling, buying, amount, price) => ⟨selling, buying, amount, price⟩)
    fun op => (op.selling, op.buying, op.amount, op.price)).guarded validate

end CreatePassiveSellOfferOp

end LedgerWire
