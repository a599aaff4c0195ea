/-
The arguments of the command.

    --schema PATH --query TEXT [--param NAME=VALUE]… [--config PATH] [--raw]

An option's value follows it or is attached with an equals sign, and does not begin with a hyphen unless attached. An
option that waits for its value is settled when the next option comes or the arguments end; a word that is no argument
is reported before the waiting option is.
-/
import EntitySearch.Text.Basic

namespace EntitySearch.CommandLine

/-- what the command is asked to do -/
structure Arguments where
  schema : String
  query : String
  params : List String
  config : Option String
  raw : Bool
  deriving DecidableEq, Repr

/-- why nothing is run: a fault, or a question that is answered instead -/
inductive Refusal where
  | missingRequired
  | unknownArgument
  | invalidValue
  | conflict
  | tooManyValues
  | help
  | version
  deriving DecidableEq, Repr

/-- the options that take a value -/
inductive ValueOption where
  | schema
  | query
  | param
  | config
  deriving DecidableEq, Repr

/-- the options that take none -/
inductive Flag where
  | raw
  | help
  | version
  deriving DecidableEq, Repr

/-- an option waiting for its value, or with a value not yet settled -/
structure Pending where
  option : ValueOption
  value : Option String
  deriving DecidableEq, Repr

/-- what was found so far -/
structure Found where
  schema : Option String
  query : Option String
  params : List String
  config : Option String
  raw : Bool
  pending : Option Pending
  deriving DecidableEq, Repr

namespace Found

def nothing : Found := ⟨none, none, [], none, false, none⟩

/-- a path is not empty -/
def checkPath (value : String) : Except Refusal Unit := if value.isEmpty then .error .invalidValue else .ok ()

/-- an option and its value; only parameters may be repeated -/
def record (f : Found) (option : ValueOption) (value : String) : Except Refusal Found :=
  match option with
  | .param => .ok { f with params := f.params ++ [value] }
  | .query => if f.query.isSome then .error .conflict else .ok { f with query := some value }
  | .schema =>
    if f.schema.isSome then .error .conflict
    else do
      checkPath value
      .ok { f with schema := some value }
  | .config =>
    if f.config.isSome then .error .conflict
    else do
      checkPath value
      .ok { f with config := some value }

/-- records the option that is waiting, which must have its value by now -/
def settle (f : Found) : Except Refusal Found :=
  match f.pending with
  | none => .ok f
  | some ⟨_, none⟩ => .error .invalidValue
  | some ⟨option, some value⟩ => { f with pending := none }.record option value

/-- a flag; the one that is no question may be given once -/
def raise (f : Found) (flag : Flag) : Except Refusal Found := do
  let f ← f.settle
  match flag with
  | .help => .error .help
  | .version => .error .version
  | .raw => if f.raw then .error .conflict else .ok { f with raw := true }

end Found

def valueOption? (name : String) : Option ValueOption :=
  if name == "schema" then some .schema
  else if name == "query" then some .query
  else if name == "param" then some .param
  else if name == "config" then some .config
  else none

def flag? (name : String) : Option Flag :=
  if name == "raw" then some .raw
  else if name == "help" then some .help
  else if name == "version" then some .version
  else none

/-- a word behind two hyphens -/
def long (f : Found) (word : List Char) : Except Refusal Found :=
  let (name, value) := match Text.splitFirst '=' word with
    | some (name, value) => (String.ofList name, some (String.ofList value))
    | none => (String.ofList word, none)
  match valueOption? name, flag? name, value with
  | some option, _, some value => do (← f.settle).record option value
  | some option, _, none => do .ok { (← f.settle) with pending := some ⟨option, none⟩ }
  | none, some _, some _ => .error .tooManyValues
  | none, some flag, none => f.raise flag
  | none, none, _ => .error .unknownArgument

/-- the letters behind one hyphen -/
def short (f : Found) : List Char → Except Refusal Found
  | [] => .ok f
  | 'h' :: _ => f.raise .help
  | 'V' :: _ => f.raise .version
  | _ :: _ => .error .unknownArgument

/-- a word that is no option: the value that an option waits for, or nothing that is known -/
def plain (f : Found) (word : String) : Except Refusal Found :=
  match f.pending with
  | some ⟨option, none⟩ => .ok { f with pending := some ⟨option, some word⟩ }
  | _ => .error .unknownArgument

/-- one argument -/
def step (f : Found) (word : String) : Except Refusal Found :=
  match word.toList with
  | '-' :: '-' :: rest => long f rest
  | ['-'] => plain f word
  | '-' :: rest => short f rest
  | _ => plain f word

/-- all arguments; nothing may follow two hyphens alone -/
def collect (f : Found) : List String → Except Refusal Found
  | [] => f.settle
  | word :: rest =>
    if word == "--" then (if rest.isEmpty then f.settle else .error .unknownArgument)
    else do collect (← step f word) rest

/-- the arguments, if the required ones are there -/
def parse (words : List String) : Except Refusal Arguments := do
  let f ← collect .nothing words
  match f.schema, f.query with
  | some schema, some query => .ok ⟨schema, query, f.params, f.config, f.raw⟩
  | _, _ => .error .missingRequired

end EntitySearch.CommandLine
