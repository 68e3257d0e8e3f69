/-
# The command line

What the program does for each line of arguments: it decodes and encodes values of ten types,
converts amounts and prices, and computes the ids of pools and contracts. Nothing here reads or
prints; `start` says whether the standard input or a random salt is needed, and then gives the exit
code and the two texts that are printed.

* `start` — the response to a line of arguments.
* `Report` — why a command failed: what it was doing, and the cause.
-/

import LedgerWire.CommandLine.Grammar
import LedgerWire.CommandLine.Program
import LedgerWire.Json.Parser
import LedgerWire.Json.Printer

namespace LedgerWire.CommandLine

/-! ### Reports -/

/-- Why a command failed: what it was doing, and the cause if there is one to tell. -/
structure Report where
  what : String
  cause : Option String := none
  deriving DecidableEq, Repr

/-- The report's text. The cause is indented, each of its lines. -/
def Report.text (r : Report) : String :=
  match r.cause with
  | none => "Error: " ++ r.what
  | some cause =>
      let lines := String.join (cause.toList.map fun c => if c = '\n' then "\n    " else c.toString)
      "Error: " ++ r.what ++ "\n\nCaused by:\n    " ++ lines

/-- Says what was being done when a fault arose. Base 64 that cannot be read needs no cause. -/
def during {α : Type} (what : String) : Except WireError α → Except Report α
  | .ok a => .ok a
  | .error .base64 => .error ⟨what, none⟩
  | .error e => .error ⟨what, some e.message⟩

/-- Reports a fault as it is. -/
def plainly {α : Type} : Except WireError α → Except Report α
  | .ok a => .ok a
  | .error e => .error ⟨e.message, none⟩

/-! ### Commands -/

/-- How deep the containers of a JSON text may be nested, where they are read. -/
def jsonDepth : Nat := 127

/-- The JSON of a value that is given in base 64. -/
def decodeText (t : DataType) (input : String) : Except Report String := do
  let value ← during ("failed to decode " ++ t.name) (t.ofBase64 input)
  return (t.toJson value).pretty

/-- The base 64 of a value that is given in JSON. -/
def encodeText (t : DataType) (input : String) : Except Report String :=
  match (Json.parse? input jsonDepth).map (t.ofJson .text) with
  | some (.ok value) => during ("failed to encode " ++ t.name) (t.toBase64 value)
  | _ => .error ⟨"JSON is not a valid " ++ t.name, none⟩

def toStroops (amount : String) : Except Report String := do
  let a ← during ("invalid amount " ++ Text.quoteString amount) (Amount.ofText amount)
  return toString a.stroops.toInt

def priceText (decimal : String) : Except Report String := do
  let p ← during ("cannot approximate " ++ Text.quoteString decimal ++ " as a price")
    (Price.ofDecimal decimal)
  return p.text

def parseAsset (s : String) : Except Report Asset :=
  during
    ("invalid asset " ++ Text.quoteString s ++ " (expected \x60native\x60 or \x60CODE:ISSUER\x60)")
    (Asset.ofText s)

def poolIdText (assetA assetB : String) (fee : Int32) : Except Report String := do
  let parameters ←
    plainly (LiquidityPoolParameters.withFee (← parseAsset assetA) (← parseAsset assetB) fee)
  return (← plainly parameters.poolId).text

def parseAddress (s : String) : Except Report ScAddress :=
  match ScAddress.ofText s with
  | .ok address => .ok address
  | .error fault =>
      .error ⟨"invalid address " ++ Text.quoteString s ++ ": " ++ fault.message, none⟩

def parseSalt (s : String) : Except Report (Vector UInt8 32) :=
  match Hex.decode s with
  | .error fault => .error ⟨"salt is not valid hex", some fault.message⟩
  | .ok bytes =>
      match Bytes.fixed? 32 bytes with
      | some salt => .ok salt
      | none => .error ⟨s!"salt must be 32 bytes, got {bytes.length}", none⟩

def contractIdText (network : Network) (preimage : ContractIdPreimage) : Except Report String := do
  return (← plainly (preimage.contractId network)).text

/-- The id of the contract that is built in for an asset. -/
def assetContractText (network : Network) (asset : String) : Except Report String := do
  let preimage ← plainly (ContractIdPreimage.ofAsset (← parseAsset asset))
  contractIdText network preimage

def addressContractText (network : Network) (address : ScAddress) (salt : Vector UInt8 32) :
    Except Report String :=
  contractIdText network (.fromAddress ⟨address, salt⟩)

def versionNumber : String := "0.1.0"

/-- The version of the program, and of the ledger protocol whose format it knows. -/
def versionText : String := "lxdr      " ++ versionNumber ++ "\nprotocol  23"

/-! ### Responses -/

/-- What a run leaves behind. -/
structure Output where
  code : Nat
  stdout : String
  stderr : String
  deriving DecidableEq, Repr

/-- A response: an output, or what to do with the standard input, or with a salt that is drawn at
random. -/
inductive Response where
  | done (output : Output)
  | withInput (resume : String → Output)
  | withSalt (resume : Vector UInt8 32 → Output)

/-- The response once the standard input and the salt are known. -/
def Response.output (r : Response) (stdin : String) (salt : Vector UInt8 32) : Output :=
  match r with
  | .done output => output
  | .withInput resume => resume stdin
  | .withSalt resume => resume salt

namespace Output

def line (text : String) : Output := ⟨0, text ++ "\n", ""⟩

def ofResult : Except Report String → Output
  | .ok text => line text
  | .error report => ⟨1, "", report.text ++ "\n"⟩

def usage : Output := ⟨2, "", program.usage program.name ++ "\n"⟩

def ofInterrupt : Interrupt → Output
  | .usage => usage
  | .help page => line page
  | .version called => line (called ++ " " ++ versionNumber)

end Output

/-- Runs a command on an argument; a single hyphen stands for the standard input. -/
def onArgument (f : String → Except Report String) (arg : String) : Response :=
  if arg = "-" then .withInput fun input => .ofResult (f input) else .done (.ofResult (f arg))

/-- The response about the contract that an address deploys. The address is judged before the salt;
one is drawn where none is given. -/
def deploy (network : Network) (address : String) (salt : Option String) : Response :=
  match parseAddress address, salt with
  | .error report, _ => .done (.ofResult (.error report))
  | .ok address, some salt =>
      .done (.ofResult (parseSalt salt >>= addressContractText network address))
  | .ok address, none =>
      .withSalt fun salt => .ofResult (addressContractText network address salt)

def respond (m : Matches) : Response :=
  let network := Network.ofText ((m.option? "network").getD "testnet")
  match m.path, m.values with
  | ["decode"], [type, arg] =>
      match typeOf? type with
      | some t => onArgument (decodeText t) arg
      | none => .done .usage
  | ["encode"], [type, arg] =>
      match typeOf? type with
      | some t => onArgument (encodeText t) arg
      | none => .done .usage
  | ["to-stroops"], [amount] => .done (.ofResult (toStroops amount))
  | ["from-stroops"], [stroops] =>
      match stroopsOf? stroops with
      | some n => .done (.line (Amount.textOfStroops n))
      | none => .done .usage
  | ["price"], [decimal] => .done (.ofResult (priceText decimal))
  | ["pool-id"], [assetA, assetB] =>
      match feeOf? ((m.option? "fee").getD (toString Limits.poolFee.toInt)) with
      | some fee => .done (.ofResult (poolIdText assetA assetB (Int32.ofInt fee)))
      | none => .done .usage
  | ["contract-id", "asset"], [asset] => .done (.ofResult (assetContractText network asset))
  | ["contract-id", "address"], [address] =>
      deploy network address (m.option? "salt")
  | ["version"], [] => .done (.line versionText)
  | _, _ => .done .usage

def start (args : List String) : Response :=
  match program.parse args with
  | .ok m => respond m
  | .error i => .done (.ofInterrupt i)

end LedgerWire.CommandLine
