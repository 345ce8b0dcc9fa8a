/-!
# When two paths name one header

A log writes a header's path the way the compiler found it, and on a file
system that ignores case the same header can be written in several ways. A
**path policy** says which: under `identity` a path is compared as it is
written, under `caseInsensitive` the ASCII letters are folded to small ones
and the slash counts as a backslash.

The policy acts on one character at a time and never changes how many bytes a
character takes. So an offset into the normalised form of a path is an offset
into the path.
-/

namespace IncludeForest

/-- **How paths are compared.** -/
inductive PathPolicy where
  /-- As they are written. -/
  | identity
  /-- Without regard to the case of ASCII letters and the direction of
  slashes. -/
  | caseInsensitive
  deriving DecidableEq, Repr, Inhabited

namespace PathPolicy

/-- The policy of a file system that ignores case, or of one that does not. -/
def ofIgnoreCase (caseInsensitive : Bool) : PathPolicy :=
  if caseInsensitive then .caseInsensitive else .identity

/-- What the policy compares a character as. -/
def normalizeChar : PathPolicy → Char → Char
  | identity, c => c
  | caseInsensitive, c => if c = '/' then '\\' else c.toLower

/-- **What the policy compares a path as.** -/
def normalize (policy : PathPolicy) (path : String) : String :=
  String.ofList (path.toList.map policy.normalizeChar)

@[simp] theorem toList_normalize (policy : PathPolicy) (path : String) :
    (policy.normalize path).toList = path.toList.map policy.normalizeChar := by
  simp [normalize]

/-- Comparing paths as they are written changes none of them. -/
@[simp] theorem normalize_identity (path : String) : identity.normalize path = path := by
  have h : (fun c => identity.normalizeChar c) = id := rfl
  simp [normalize, h]

end PathPolicy

end IncludeForest
