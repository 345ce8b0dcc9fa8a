import IncludeForest.Log.Line

/-!
# Whose lines they are

A line of a log belongs to a stream or to none (`streamOf?`), whatever it
announces and whatever filter is in use. What a log announces on one stream is
a list by itself (`announcementsOn`), to which the lines of other streams
contribute nothing.
-/

namespace IncludeForest

namespace Log

/-- **The stream a line belongs to**, if it belongs to one. -/
def streamOf? (line : List Char) : Option StreamId :=
  (splitStream? line).map (·.1)

/-- The stream of a line is that of what it announces. -/
theorem streamOf?_eq (filter : Option PathFilter) (line : List Char) :
    streamOf? line = (announcement? filter line).map (·.1) := by
  unfold streamOf? announcement?
  rw [Option.map_map]
  rfl

/-- **What a log announces on a stream**, line by line. -/
def announcementsOn (filter : Option PathFilter) (id : StreamId) (log : List (List Char)) :
    List Announcement :=
  log.filterMap fun line => (announcement? filter line).bind fun found =>
    if found.1 = id then some found.2 else none

variable {filter : Option PathFilter} {id : StreamId} {line : List Char}

theorem announcementsOn_cons_self {announced : Announcement}
    (h : announcement? filter line = some (id, announced)) (log : List (List Char)) :
    announcementsOn filter id (line :: log) = announced :: announcementsOn filter id log := by
  unfold announcementsOn
  rw [List.filterMap_cons, h, Option.bind_some, if_pos rfl]

theorem announcementsOn_cons_ne (h : streamOf? line ≠ some id) (log : List (List Char)) :
    announcementsOn filter id (line :: log) = announcementsOn filter id log := by
  rw [streamOf?_eq filter] at h
  unfold announcementsOn
  cases hline : announcement? filter line with
  | none => rw [List.filterMap_cons, hline, Option.bind_none]
  | some found =>
    rw [hline] at h
    rw [List.filterMap_cons, hline, Option.bind_some, if_neg fun hid => h (congrArg some hid)]

end Log

end IncludeForest
