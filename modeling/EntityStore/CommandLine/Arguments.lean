import EntityStore.Options

/-!
# Command-line arguments

A subcommand followed by its options, each at most once and in any order. An option is written
`--db x`, `--db=x`, `-d x`, `-dx` or `-d=x`.
-/

namespace EntityStore.CommandLine

inductive Invocation
  | create (db model : String)
  | query (db model entity : String) (orderBy : Option String) (take : Option UInt64)
  | drop (db model : String)
deriving DecidableEq

structure OptionName where
  long : String
  short : Option Char

def databaseOptions : List OptionName := [⟨"db", some 'd'⟩, ⟨"model", some 'm'⟩]

def queryOptions : List OptionName :=
  databaseOptions ++ [⟨"entity", some 'e'⟩, ⟨"order-by", none⟩, ⟨"take", some 't'⟩]

inductive Token
  | long (name : String) (value : Option String)
  | short (name : Char) (value : Option String)
  | separator
  | plain (text : String)

def attached : List Char → Option String
  | [] => none
  | '=' :: rest => some (String.ofList rest)
  | cs => some (String.ofList cs)

def splitEquals (cs : List Char) : String × Option String :=
  match cs.span (fun c => c != '=') with
  | (name, []) => (String.ofList name, none)
  | (name, _ :: value) => (String.ofList name, some (String.ofList value))

def Token.ofArgument (s : String) : Token :=
  match s.toList with
  | ['-', '-'] => .separator
  | '-' :: '-' :: rest =>
    let (name, value) := splitEquals rest
    .long name value
  | '-' :: c :: rest => .short c (attached rest)
  | _ => .plain s

/-- The long name of an option that is written in an argument, with the attached value. -/
def optionOf (options : List OptionName) : Token → Option (String × Option String)
  | .long name value => (options.find? (·.long == name)).map (fun o => (o.long, value))
  | .short c value => (options.find? (·.short == some c)).map (fun o => (o.long, value))
  | .separator | .plain _ => none

/-- The values of options under their long names. A separator may end the arguments. -/
def readOptions (options : List OptionName) : List String → Option (List (String × String))
  | [] => some []
  | [argument] =>
    match Token.ofArgument argument with
    | .separator => some []
    | token =>
      match optionOf options token with
      | some (name, some value) => some [(name, value)]
      | _ => none
  | argument :: next :: rest =>
    match optionOf options (Token.ofArgument argument) with
    | none => none
    | some (name, some value) => (readOptions options (next :: rest)).map ((name, value) :: ·)
    | some (name, none) =>
      match Token.ofArgument next with
      | .plain value => (readOptions options rest).map ((name, value) :: ·)
      | _ => none

def isDistinct : List String → Bool
  | [] => true
  | x :: rest => !rest.contains x && isDistinct rest

/-- The options of a subcommand, none of them given twice. -/
def optionsOf? (options : List OptionName) (arguments : List String) :
    Option (List (String × String)) := do
  let values ← readOptions options arguments
  if isDistinct (values.map (·.1)) then return values else none

def number? (values : List (String × String)) (name : String) : Option (Option UInt64) :=
  match values.lookup name with
  | none => some none
  | some s => (StoreOptions.number? UInt64.size s).map (fun n => some (UInt64.ofNat n))

def Invocation.ofArguments? : List String → Option Invocation
  | "create" :: rest => do
    let values ← optionsOf? databaseOptions rest
    return .create (← values.lookup "db") (← values.lookup "model")
  | "drop" :: rest => do
    let values ← optionsOf? databaseOptions rest
    return .drop (← values.lookup "db") (← values.lookup "model")
  | "query" :: rest => do
    let values ← optionsOf? queryOptions rest
    return .query (← values.lookup "db") (← values.lookup "model") (← values.lookup "entity")
      (values.lookup "order-by") (← number? values "take")
  | _ => none

end EntityStore.CommandLine
