/-
# The commands of the program

The tree of commands that the program knows, and which texts are values of their arguments.

* `program` — the commands, from the program's own on.
* `typeOf?`, `stroopsOf?`, `feeOf?` — the values of the arguments that do not take every text.
-/

import LedgerWire.Catalogue
import LedgerWire.CommandLine.Command

namespace LedgerWire.CommandLine

/-! ### Values of arguments -/

/-- The types that can be decoded and encoded, by their names on the command line. -/
def typeNames : List (String × String) :=
  [ ("operation", "Operation"), ("ledger-entry", "LedgerEntry"), ("ledger-key", "LedgerKey"),
    ("config-setting", "ConfigSettingEntry"), ("sc-val", "ScVal"),
    ("auth-entry", "SorobanAuthorizationEntry"), ("claim-predicate", "ClaimPredicate"),
    ("asset", "Asset"), ("change-trust-asset", "ChangeTrustAsset"),
    ("transaction-data", "SorobanTransactionData") ]

def typeOf? (name : String) : Option DataType := (typeNames.lookup name).bind DataType.ofName?

/-- The amount in stroops that a text writes as a whole number. -/
def stroopsOf? (s : String) : Option Int :=
  Text.integerOfText? (-0x8000000000000000) 0x7fffffffffffffff s

def feeOf? (s : String) : Option Int := Text.integerOfText? (-0x80000000) 0x7fffffff s

/-! ### Arguments and options -/

def networkOption : NamedOption where
  long := "network"
  short := some 'n'
  shown := "<NETWORK>"
  summary :=
    "Network whose ID is mixed into contract IDs: public, testnet, futurenet, "
      ++ "or any other string as a custom passphrase"
  notes := ["[env: LXDR_NETWORK=]", "[default: testnet]"]

/-- How the log would be written; there is no log. -/
def logFormatOption : NamedOption where
  long := "log-format"
  shown := "<LOG_FORMAT>"
  summary := "Log output format: pretty or json"
  notes := ["[env: LXDR_LOG_FORMAT=]", "[default: pretty]"]

def feeOption : NamedOption where
  long := "fee"
  shown := "<FEE>"
  summary := "Pool fee in basis points"
  notes := ["[default: " ++ toString Limits.poolFee.toInt ++ "]"]
  accepts s := (feeOf? s).isSome

def saltOption : NamedOption where
  long := "salt"
  shown := "<SALT>"
  summary := "32-byte salt as hex. Random when omitted"

def typeArgument : Positional where
  shown := "<XDR_TYPE>"
  notes := ["[possible values: " ++ ", ".intercalate (typeNames.map Prod.fst) ++ "]"]
  accepts s := (typeOf? s).isSome

/-- A decimal amount. It may be negative, and what is no amount at all is told in the report. -/
def amountArgument : Positional where
  shown := "<AMOUNT>"
  hyphens := .all

def stroopsArgument : Positional where
  shown := "<STROOPS>"
  hyphens := .numbers
  accepts s := (stroopsOf? s).isSome

def deployerArgument : Positional where
  shown := "<ADDRESS>"
  summary := "\x60G…\x60 account or \x60C…\x60 contract address of the deployer"

/-! ### Commands -/

def commonOptions : List NamedOption := [networkOption, logFormatOption]

def contractIdCommands : List Command :=
  [ { name := "asset"
      summary := "The built-in token contract of an asset"
      options := commonOptions
      positionals := [{ shown := "<ASSET>" }] },
    { name := "address"
      summary := "A contract deployed by an address"
      options := [networkOption, saltOption, logFormatOption]
      positionals := [deployerArgument] } ]

/-- The commands that work on values of the types, and those that convert numbers. -/
def valueCommands : List Command :=
  [ { name := "decode"
      summary := "Decode base64 XDR and print it as JSON. Pass \x60-\x60 to read stdin"
      options := commonOptions
      positionals := [typeArgument, { shown := "<BASE64>" }] },
    { name := "encode"
      summary := "Encode a JSON value and print its base64 XDR. Pass \x60-\x60 to read stdin"
      options := commonOptions
      positionals := [typeArgument, { shown := "<JSON>" }] },
    { name := "to-stroops"
      summary := "Convert a decimal amount to stroops"
      options := commonOptions
      positionals := [amountArgument] },
    { name := "from-stroops"
      summary := "Convert stroops to the canonical decimal amount"
      options := commonOptions
      positionals := [stroopsArgument] },
    { name := "price"
      summary := "Approximate a decimal as an \x60n/d\x60 price"
      options := commonOptions
      positionals := [{ shown := "<DECIMAL>" }] } ]

def idCommands : List Command :=
  let poolSummary := "Compute the ID of the constant-product pool for an asset pair"
  [ { name := "pool-id"
      summary := poolSummary
      description := some (poolSummary ++
        ".\n\nAssets are \x60native\x60 or \x60CODE:ISSUER\x60, in canonical order.")
      options := feeOption :: commonOptions
      positionals := [{ shown := "<ASSET_A>" }, { shown := "<ASSET_B>" }] },
    { name := "contract-id"
      summary := "Derive a contract ID on the selected network"
      options := commonOptions
      subcommands := contractIdCommands } ]

def program : Command where
  name := "lxdr"
  summary := "Ledger XDR encoder/decoder"
  description := some <|
    "Encode, decode and inspect ledger XDR structures.\n\n"
      ++ "Decoded values print as JSON on stdout; "
      ++ "encoded values print as standard base64. Logs go to stderr."
  options := commonOptions
  subcommands :=
    valueCommands ++ idCommands ++
      [ { name := "version"
          summary := "Print version information and exit"
          options := commonOptions } ]

end LedgerWire.CommandLine
