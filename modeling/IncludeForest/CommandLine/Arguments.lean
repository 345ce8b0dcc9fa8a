import IncludeForest.Settings.Basic

/-!
# Arguments

What a user asks for on the command line: a log to read, and options. An option
is a word behind two hyphens, some also a letter behind one. An option with a
value takes it from behind an equals sign or from the next argument, which then
must not look like an option. A hyphen alone is an ordinary argument, and behind
two hyphens alone there are no options any more.

Arguments are read in order, and the first that is wrong ends the reading, as
does a request for the version or for help. No option may be given twice. The
two options on simplifying paths take each other back, so of the two the last
one given counts.
-/

namespace IncludeForest.CommandLine

/-- **What a run is asked to do.** -/
structure Request where
  /-- The log to read. -/
  input : Option String := none
  /-- Whether headers of the toolchain are to be dropped. -/
  hideToolchain : Bool := false
  /-- Whether only what leads to a cycle or a match is to be opened. -/
  autoExpand : Bool := false
  /-- Whether paths are to be simplified, if that is asked for. -/
  simplify : Option Bool := none
  /-- What to search for. -/
  find : Option String := none
  /-- The file to export to. -/
  json : Option String := none
  /-- When styles are to be used. -/
  color : Option ColorMode := none
  /-- The settings file to read in place of the usual one. -/
  config : Option String := none
  /-- Whether the program is to tell of its doings. -/
  debug : Bool := false
  deriving DecidableEq, Repr, Inhabited

/-- **What a command line asks for.** -/
inductive Invocation where
  /-- To read a log. -/
  | scan (input : String) (request : Request)
  /-- To be told the version. -/
  | version
  /-- To be told the options. -/
  | help
  /-- Nothing that can be made out. -/
  | usageError
  deriving DecidableEq, Repr

namespace Request

/-- A choice that is made for the first time. -/
def once {α : Type} (current : Option α) (value : α) : Option (Option α) :=
  if current.isSome then none else some (some value)

/-- A path, which is not empty. -/
def path? (text : String) : Option String :=
  if text.isEmpty then none else some text

/-- The request with one more argument that is no option. -/
def positional? (r : Request) (text : String) : Option Request := do
  return { r with input := ← once r.input (← path? text) }

/-- The request with an option that has no value, unless it is unknown or given
before. -/
def flag? (r : Request) (name : String) : Option Request :=
  match name with
  | "no-std" => if r.hideToolchain then none else some { r with hideToolchain := true }
  | "auto-expand" => if r.autoExpand then none else some { r with autoExpand := true }
  | "debug" => if r.debug then none else some { r with debug := true }
  | "simplify" => if r.simplify = some true then none else some { r with simplify := some true }
  | "no-simplify" =>
    if r.simplify = some false then none else some { r with simplify := some false }
  | _ => none

/-- Whether an option has a value. -/
def takesValue (name : String) : Bool :=
  name ∈ ["find", "json", "color", "config"]

/-- The request with an option and its value, unless the value makes no sense or
the option was given before. -/
def option? (r : Request) (name value : String) : Option Request :=
  match name with
  | "find" => do return { r with find := ← once r.find value }
  | "json" => do return { r with json := ← once r.json (← path? value) }
  | "config" => do return { r with config := ← once r.config (← path? value) }
  | "color" => do return { r with color := ← once r.color (← ColorMode.ofName? value) }
  | _ => none

end Request

/-- **An argument by its looks.** -/
inductive Word where
  /-- What ends the options. -/
  | endOfOptions
  /-- An option by its name, with the value behind its equals sign. -/
  | long (name : String) (value : Option String)
  /-- Options by their letters. -/
  | short (letters : List Char)
  /-- Anything else. -/
  | plain (text : String)
  deriving DecidableEq, Repr

/-- What an argument looks like. -/
def Word.ofArgument (text : String) : Word :=
  match text.toList with
  | ['-', '-'] => endOfOptions
  | '-' :: '-' :: rest =>
    let name := String.ofList (rest.takeWhile (· != '='))
    long name ((rest.dropWhile (· != '=')).tail?.map String.ofList)
  | ['-'] => plain text
  | '-' :: letters => short letters
  | _ => plain text

namespace Invocation

/-- **What came of an option**: the request so far, or the end of the reading. -/
abbrev Step := Invocation ⊕ Request

/-- The step to a request, if there is one. -/
def orUsageError : Option Request → Step
  | some r => .inr r
  | none => .inl usageError

/-- The step over an option without a value. -/
def stepFlag (r : Request) (name : String) : Step :=
  match name with
  | "version" => .inl version
  | "help" => .inl help
  | _ => orUsageError (r.flag? name)

/-- The name of the option that a letter stands for. -/
def nameOfLetter? : Char → Option String
  | 'd' => some "debug"
  | 'V' => some "version"
  | 'h' => some "help"
  | _ => none

/-- The step over options given by their letters. -/
def stepLetters (r : Request) : List Char → Step
  | [] => .inr r
  | c :: rest =>
    match nameOfLetter? c with
    | none => .inl usageError
    | some name =>
      match stepFlag r name with
      | .inr r => stepLetters r rest
      | .inl result => .inl result

/-- What a request amounts to when the arguments are at an end. -/
def ofRequest (r : Request) : Invocation :=
  match r.input with
  | some input => scan input r
  | none => usageError

/-- What the arguments behind the end of the options amount to. -/
def readPlain (r : Request) : List String → Invocation
  | [] => ofRequest r
  | text :: rest =>
    match r.positional? text with
    | some r => readPlain r rest
    | none => usageError

/-- What the arguments amount to that follow those in the request. -/
def read (r : Request) : List String → Invocation
  | [] => ofRequest r
  | text :: rest =>
    match Word.ofArgument text with
    | .endOfOptions => readPlain r rest
    | .plain text =>
      match r.positional? text with
      | some r => read r rest
      | none => usageError
    | .short letters =>
      match stepLetters r letters with
      | .inr r => read r rest
      | .inl result => result
    | .long name (some value) =>
      match r.option? name value with
      | some r => read r rest
      | none => usageError
    | .long name none =>
      if Request.takesValue name then
        match rest with
        | [] => usageError
        | next :: rest =>
          match Word.ofArgument next with
          | .plain value =>
            match r.option? name value with
            | some r => read r rest
            | none => usageError
          | _ => usageError
      else
        match stepFlag r name with
        | .inr r => read r rest
        | .inl result => result

/-- **What a command line asks for.** -/
def ofArguments (arguments : List String) : Invocation :=
  read {} arguments

end Invocation

end IncludeForest.CommandLine
