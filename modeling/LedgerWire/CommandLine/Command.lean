/-
# Commands and what they take

A program is a tree of commands. Each command takes options, which carry one value each and may
stand anywhere, and positional arguments; or it leaves the rest of the line to one of its
subcommands. Options that are given to a command are also given to its subcommands, where they can
be given anew.

* `Command` — a command with what it takes, and what a user is told about it.
* `Command.help` — the page that is printed for a user who asks about a command.

A page tells in turn what the command does, how it is called, its subcommands, its positional
arguments and its options. The brief form of a page has one line for each of them; the full form
belongs to commands with a description and sets the text below what is typed.
-/

namespace LedgerWire.CommandLine

/-- Which texts with a hyphen in front an argument takes. -/
inductive Hyphens where
  | none
  | numbers
  | all
  deriving DecidableEq, Repr

/-- A positional argument: how it is shown, what it is for, what else is to be known of it, the
texts with a hyphen that can stand there, and which texts are values. -/
structure Positional where
  shown : String
  summary : String := ""
  notes : List String := []
  hyphens : Hyphens := .none
  accepts : String → Bool := fun _ => true

/-- An option: its long name, its short one if it has one, how its value is shown, what it is for,
what else is to be known of it, and which texts are values. -/
structure NamedOption where
  long : String
  short : Option Char := none
  shown : String
  summary : String
  notes : List String := []
  accepts : String → Bool := fun _ => true

/-- A command: its name, what it does in a line, more about it if there is more to say, its options,
and its positional arguments, of which every one must be given, or else its subcommands, of which
one must be. -/
structure Command where
  name : String
  summary : String
  description : Option String := none
  options : List NamedOption
  positionals : List Positional := []
  subcommands : List Command := []

/-! ### Lists on a page -/

/-- An entry of a list: what is typed, what it is for, and what else is to be known. -/
structure Entry where
  typed : String
  summary : String := ""
  notes : List String := []
  deriving DecidableEq, Repr

namespace Entry

def summaries (e : Entry) : List String := if e.summary.isEmpty then [] else [e.summary]

/-- An entry on one line, explained in a column behind `width` characters. -/
def brief (width : Nat) (e : Entry) : String :=
  "  " ++ e.typed ++ String.ofList (List.replicate (width - e.typed.length) ' ') ++ "  "
    ++ " ".intercalate (e.summaries ++ e.notes)

/-- An entry with its explanation on lines of its own. -/
def full (e : Entry) : String :=
  let gap := if e.summary.isEmpty || e.notes.isEmpty then [] else [""]
  let indent := "\n" ++ String.ofList (List.replicate 10 ' ')
  "  " ++ e.typed ++ indent ++ indent.intercalate (e.summaries ++ gap ++ e.notes)

def ofPositional (p : Positional) : Entry := ⟨p.shown, p.summary, p.notes⟩

/-- The entry of an option; the column of the short names stays free where there is none. -/
def ofOption (o : NamedOption) : Entry :=
  let short := match o.short with
    | some c => "-" ++ String.singleton c ++ ", "
    | none => "    "
  ⟨short ++ "--" ++ o.long ++ " " ++ o.shown, o.summary, o.notes⟩

def ofCommand (c : Command) : Entry := ⟨c.name, c.summary, []⟩

/-- The list under a title; an empty one is not shown. -/
def list (title : String) (isFull : Bool) : List Entry → List String
  | [] => []
  | entries =>
      let width := entries.foldl (fun w e => max w e.typed.length) 0
      let shown := if isFull then "\n\n".intercalate (entries.map full)
        else "\n".intercalate (entries.map (brief width))
      [title ++ ":\n" ++ shown]

end Entry

/-! ### Pages -/

/-- A page: what the command does, how it is called, and lists of what it takes. -/
def page (about usage : String) (lists : List String) : String :=
  "\n\n".intercalate (about :: usage :: lists)

/-- The entry of the word `help`, which every command with subcommands knows as one. -/
def helpEntry : Entry := ⟨"help", "Print this message or the help of the given subcommand(s)", []⟩

/-- The page about the word `help`, as it is called in full. -/
def helpPage (called : String) : String :=
  page helpEntry.summary ("Usage: " ++ called ++ " [COMMAND]...")
    (Entry.list "Arguments" false [⟨"[COMMAND]...", "Print help for the subcommand(s)", []⟩])

namespace Command

def subcommand? (c : Command) (name : String) : Option Command :=
  c.subcommands.find? (·.name == name)

/-- How a command is to be called; `called` is its name with all the names before it. -/
def usage (c : Command) (called : String) : String :=
  "Usage: " ++ called ++ " [OPTIONS]"
    ++ String.join (c.positionals.map fun p => " " ++ p.shown)
    ++ if c.subcommands.isEmpty then "" else " <COMMAND>"

def requests (c : Command) (isFull : Bool) : List Entry :=
  let hint := match c.description, isFull with
    | none, _ => ""
    | some _, true => " (see a summary with '-h')"
    | some _, false => " (see more with '--help')"
  [⟨"-h, --help", "Print help" ++ hint, []⟩, ⟨"-V, --version", "Print version", []⟩]

/-- The page about a command, the full one if it is wanted and there is a description. -/
def help (c : Command) (called : String) (wantsFull : Bool) : String :=
  let isFull := wantsFull && c.description.isSome
  let about := if isFull then c.description.getD c.summary else c.summary
  let subcommands :=
    if c.subcommands.isEmpty then [] else c.subcommands.map Entry.ofCommand ++ [helpEntry]
  page about (c.usage called) <|
    Entry.list "Commands" false subcommands
      ++ Entry.list "Arguments" isFull (c.positionals.map Entry.ofPositional)
      ++ Entry.list "Options" isFull (c.options.map Entry.ofOption ++ c.requests isFull)

end Command

end LedgerWire.CommandLine
