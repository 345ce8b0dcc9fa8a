import IncludeForest.Toml.Basic

/-!
# What a settings file says

The keys of a settings file, each with what the file gives for it, before
anyone asks whether it makes sense. The keys stand in four sections. A key of
another name is passed over, but a known key with a value of the wrong type
makes the whole file unreadable.

A section can be written in three ways: as a table; as a list, which gives the
section's keys in their order without naming them and may be shorter or longer;
and as a date, which gives none of them.
-/

namespace IncludeForest

open Toml (Value)

/-- **What a settings file gives**, key by key. -/
structure RawSettings where
  /-- Section `filters`: whether headers of the toolchain are dropped. -/
  hideToolchain : Option Bool := none
  /-- Section `filters`: the patterns that tell them. -/
  toolchainPatterns : Option (List String) := none
  /-- Section `view`: whether paths are simplified. -/
  simplifyPaths : Option Bool := none
  /-- Section `view`: whether only what leads somewhere is opened. -/
  autoExpand : Option Bool := none
  /-- Section `view`: when styles are used. -/
  color : Option String := none
  /-- Section `paths`: whether paths are compared without regard to case. -/
  ignoreCase : Option Bool := none
  /-- Section `logging`: how much the program tells of itself. -/
  level : Option String := none
  deriving DecidableEq, Repr, Inhabited

namespace RawSettings

/-- **The fields of a section**, as it was written. -/
inductive Fields where
  /-- By name. -/
  | named (entries : List (String × Value))
  /-- By their order. -/
  | listed (items : List Value)

namespace Fields

/-- The fields that a value gives, if it can be a section. -/
def ofValue? : Value → Option Fields
  | .table entries => some (named entries)
  | .array items => some (listed items)
  | .datetime _ => some (named [])
  | _ => none

/-- The fields of the section of this name; none of them if it is absent. -/
def ofSection? (name : String) (document : List (String × Value)) : Option Fields :=
  match Value.get? name document with
  | none => some (named [])
  | some v => ofValue? v

/-- What the section gives for the field of this name and place. -/
def get? (fields : Fields) (name : String) (place : Nat) : Option Value :=
  match fields with
  | named entries => Value.get? name entries
  | listed items => items[place]?

end Fields

/-- A value as a truth value. -/
def boolean? : Value → Option Bool
  | .boolean b => some b
  | _ => none

/-- A value as a string. -/
def string? : Value → Option String
  | .string s => some s
  | _ => none

/-- A value as a list of strings. -/
def strings? : Value → Option (List String)
  | .array items => items.mapM string?
  | _ => none

/-- What is given for a field, read as the field asks for: nothing given is
nothing read, but what is given has to be readable. -/
def read? {α : Type} (as? : Value → Option α) : Option Value → Option (Option α)
  | none => some none
  | some v => (as? v).map some

/-- **What a document gives for the known keys**, unless a value is of the
wrong type. -/
def ofDocument? (document : List (String × Value)) : Option RawSettings := do
  let filters ← Fields.ofSection? "filters" document
  let view ← Fields.ofSection? "view" document
  let paths ← Fields.ofSection? "paths" document
  let logging ← Fields.ofSection? "logging" document
  return {
    hideToolchain := ← read? boolean? (filters.get? "ignore_std" 0)
    toolchainPatterns := ← read? strings? (filters.get? "std_include_patterns" 1)
    simplifyPaths := ← read? boolean? (view.get? "simplify_paths" 0)
    autoExpand := ← read? boolean? (view.get? "auto_expand" 1)
    color := ← read? string? (view.get? "color" 2)
    ignoreCase := ← read? boolean? (paths.get? "case_insensitive" 0)
    level := ← read? string? (logging.get? "level" 0) }

end RawSettings

end IncludeForest
