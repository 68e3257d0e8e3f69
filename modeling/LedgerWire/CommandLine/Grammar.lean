/-
# Arguments of a command line

How the arguments of a line are understood, given the commands of a program.

* `Command.parse` — the matches of a line of arguments, or why there are none.

A long option is written `--name value` or `--name=value`, a short one `-n value`, `-nvalue` or
`-n=value`. After a bare `--` everything is positional. A text with a hyphen in front that is no
option is refused, unless the argument whose turn it is takes such texts. The word `help` stands for
a subcommand of every command that has any; the names of commands follow it.

An argument is judged when the next one of its command has been understood, so that a request for
help or for the version is heard only where nothing before it was wrong. The last argument before a
subcommand is judged after the subcommand.
-/

import LedgerWire.CommandLine.Command

namespace LedgerWire.CommandLine

/-- What was given: the names of the subcommands, the values of the options, the innermost
command's first, and the positional arguments. -/
structure Matches where
  path : List String
  options : List (String × String)
  values : List String
  deriving DecidableEq, Repr

def Matches.option? (m : Matches) (name : String) : Option String := m.options.lookup name

/-- Why a line has no matches: it is wrong, or it asks for a page of help, or for the version under
the name of a command. -/
inductive Interrupt where
  | usage
  | help (page : String)
  | version (program : String)
  deriving DecidableEq, Repr

/-- The answer to the word `help` with the names that follow it, behind the names in `path`. Each
must be a subcommand of the one before it; where subcommands are, the last may be `help` itself. -/
def Command.helpOn (c : Command) (path : List String) : List String → Interrupt
  | [] => .help (c.help (" ".intercalate path) true)
  | name :: rest =>
      match c.subcommand? name with
      | some inner => inner.helpOn (path ++ [inner.name]) rest
      | none =>
          if name = "help" ∧ !c.subcommands.isEmpty ∧ rest.isEmpty then
            .help (helpPage (" ".intercalate (path ++ [name])))
          else .usage

/-! ### Shapes of arguments -/

/-- What an argument looks like, whatever it turns out to be. -/
inductive Shape where
  | escape
  | long (name : String) (value : Option String)
  | short (letter : Char) (rest : List Char)
  | plain
  deriving DecidableEq, Repr

/-- The shape of an argument. A single hyphen is plain. -/
def Shape.of (arg : String) : Shape :=
  match arg.toList with
  | ['-', '-'] => .escape
  | '-' :: '-' :: cs =>
      .long (String.ofList (cs.takeWhile (· ≠ '=')))
        (if cs.contains '=' then some (String.ofList ((cs.dropWhile (· ≠ '=')).drop 1)) else none)
  | '-' :: c :: rest => .short c rest
  | _ => .plain

/-- Digits with at most one point and one exponent, neither of them first, and the exponent's
letter not last. A point may not come after the exponent's letter. -/
def isNumber (cs : List Char) : Bool :=
  let beforeExponent := cs.takeWhile (· ≠ 'e')
  let exponent := (cs.dropWhile (· ≠ 'e')).drop 1
  let hasExponent := cs.contains 'e'
  beforeExponent.all (fun c => c.isDigit || c = '.') && beforeExponent.count '.' ≤ 1
    && beforeExponent.head? ≠ some '.'
    && (!hasExponent || (!beforeExponent.isEmpty && !exponent.isEmpty && exponent.all Char.isDigit))

/-! ### Reading a line -/

/-- The argument that was understood last: an option, which has its value or waits for it, or a
positional argument. -/
inductive Held where
  | option (o : NamedOption) (value : Option String)
  | positional (p : Positional) (value : String)

/-- The command being read: its name with all the names before it, the argument that is not judged
yet, what was given to it so far, and whether all that follows is positional. -/
structure Level where
  command : Command
  path : List String
  held : Option Held := none
  options : List (String × String) := []
  values : List String := []
  escaped : Bool := false

namespace Level

/-- The option that waits for its value. -/
def waiting? (l : Level) : Option NamedOption :=
  match l.held with
  | some (.option o none) => some o
  | _ => none

/-- The positional argument whose turn it is. -/
def next? (l : Level) : Option Positional :=
  match l.held with
  | some (.positional _ _) => l.command.positionals[l.values.length + 1]?
  | _ => l.command.positionals[l.values.length]?

/-- Which texts with a hyphen in front can be the next positional argument. -/
def hyphens (l : Level) : Hyphens := (l.next?.map Positional.hyphens).getD .none

def letter? (l : Level) (c : Char) : Option NamedOption :=
  l.command.options.find? (·.short = some c)

/-- Judges the argument that was understood last. An option has a value and is given only once, and
every value is one that its argument accepts. -/
def settle (l : Level) : Except Interrupt Level :=
  match l.held with
  | none => .ok l
  | some (.option _ none) => .error .usage
  | some (.option o (some value)) =>
      if l.options.any (·.1 == o.long) || !o.accepts value then .error .usage
      else .ok { l with held := none, options := (o.long, value) :: l.options }
  | some (.positional p value) =>
      if p.accepts value then .ok { l with held := none, values := l.values ++ [value] }
      else .error .usage

/-- An option. One with its value in the same text is judged at once. -/
def option (l : Level) (o : NamedOption) (value : Option String) : Except Interrupt Level := do
  let l ← l.settle
  let l := { l with held := some (.option o value) }
  if value.isSome then l.settle else return l

/-- A value: of the option that waits for one, or else the next positional argument. -/
def value (l : Level) (arg : String) : Except Interrupt Level :=
  match l.waiting?, l.escaped, l.next? with
  | some o, false, _ => .ok { l with held := some (.option o (some arg)) }
  | _, _, some p => do
      let l ← l.settle
      return { l with held := some (.positional p arg) }
  | _, _, none => .error .usage

/-- A request for something else, which is heard if all before it was right. -/
def interrupt (l : Level) (i : Interrupt) : Except Interrupt Level := do
  let _ ← l.settle
  throw i

def help (l : Level) (wantsFull : Bool) : Interrupt :=
  .help (l.command.help (" ".intercalate l.path) wantsFull)

def version (l : Level) : Interrupt := .version ("-".intercalate l.path)

def long (l : Level) (arg name : String) (value : Option String) : Except Interrupt Level :=
  match l.command.options.find? (·.long == name) with
  | some o => l.option o value
  | none =>
      if name = "help" then l.interrupt (if value.isSome then .usage else l.help true)
      else if name = "version" then l.interrupt (if value.isSome then .usage else l.version)
      else if l.hyphens = .all then l.value arg
      else .error .usage

/-- A text that starts with one hyphen. An argument that takes all such texts takes it only if some
letter in it is no option's. -/
def short (l : Level) (arg : String) (c : Char) (rest : List Char) : Except Interrupt Level :=
  let known (c : Char) : Bool := (l.letter? c).isSome || c = 'h' || c = 'V'
  if l.hyphens = .numbers ∧ isNumber (c :: rest) then l.value arg
  else if l.hyphens = .all ∧ !(c :: rest).all known then l.value arg
  else match l.letter? c with
    | some o =>
        l.option o <| match rest with
          | [] => none
          | '=' :: value => some (String.ofList value)
          | value => some (String.ofList value)
    | none =>
        if c = 'h' then l.interrupt (l.help false)
        else if c = 'V' then l.interrupt l.version
        else .error .usage

def argument (l : Level) (arg : String) : Except Interrupt Level :=
  if l.escaped then l.value arg
  else match Shape.of arg with
    | .escape => .ok { l with escaped := true }
    | .long name value => l.long arg name value
    | .short c rest => l.short arg c rest
    | .plain => l.value arg

def takesSubcommand (l : Level) : Bool :=
  !l.command.subcommands.isEmpty && !l.escaped && l.waiting?.isNone

/-- The subcommand of that name, where one can stand. -/
def subcommand? (l : Level) (arg : String) : Option Command :=
  if l.takesSubcommand then l.command.subcommand? arg else none

def finish (l : Level) : Except Interrupt Matches := do
  let l ← l.settle
  if !l.command.subcommands.isEmpty || l.next?.isSome then throw .usage
  return ⟨[], l.options, l.values⟩

/-- Reads the rest of a line. -/
def parse (l : Level) : List String → Except Interrupt Matches
  | [] => l.finish
  | arg :: rest =>
      match l.subcommand? arg with
      | some c => do
          let m ← parse ⟨c, l.path ++ [c.name], none, [], [], false⟩ rest
          let l ← l.settle
          return ⟨c.name :: m.path, m.options ++ l.options, m.values⟩
      | none =>
          if l.takesSubcommand ∧ arg = "help" then .error (l.command.helpOn l.path rest)
          else do
            let l ← l.argument arg
            parse l rest

end Level

def Command.parse (c : Command) (args : List String) : Except Interrupt Matches :=
  Level.parse ⟨c, [c.name], none, [], [], false⟩ args

end LedgerWire.CommandLine
