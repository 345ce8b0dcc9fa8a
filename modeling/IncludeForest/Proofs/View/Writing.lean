import IncludeForest.View.Outline

/-!
# Lines without styles

What stands on a line is known without its styles, and so is the text of the line: it is
what its segments say, one after the other (`plainText`). For the parts that a line is
put together from this text is given here, so that no other module has to look into
segments to know it. The path of a header is cut where a hit begins and ends, and is the
path all the same (`plainText_headerName`).
-/

namespace IncludeForest.View

open Text

/-- **What some segments say.** -/
def plainText (segments : List Segment) : String :=
  String.join (segments.map (·.text))

@[simp] theorem plainText_nil : plainText [] = "" := rfl

@[simp] theorem plainText_cons (s : Segment) (segments : List Segment) :
    plainText (s :: segments) = s.text ++ plainText segments := by
  unfold plainText
  rw [List.map_cons, String.join_cons]

@[simp] theorem plainText_append (front back : List Segment) :
    plainText (front ++ back) = plainText front ++ plainText back := by
  unfold plainText
  rw [List.map_append, String.join_append]

/-- No segment holds what they do not say. -/
theorem mem_plainText {segments : List Segment} {s : Segment} (hs : s ∈ segments) {c : Char}
    (hc : c ∈ s.text.toList) : c ∈ (plainText segments).toList := by
  induction segments with
  | nil => cases hs
  | cons first segments ih =>
    rw [plainText_cons, String.toList_append, List.mem_append]
    rcases List.mem_cons.1 hs with rfl | hs
    · exact .inl hc
    · exact .inr (ih hs)

/-- A segment that is written without styles is its text. -/
theorem Segment.write_false (s : Segment) : s.write false = s.text :=
  if_neg fun h => Bool.false_ne_true h.1

/-- The spaces that a line is indented by. -/
def indentation (level : Nat) : String :=
  String.ofList (List.replicate (2 * level) ' ')

/-- **A line that is written without styles** is its indentation, what its segments say,
and a line end. -/
theorem Line.write_false (line : Line) :
    line.write false = indentation line.level ++ plainText line.segments ++ "\n" := by
  have hsegments : (line.segments.map (·.write false)) = line.segments.map (·.text) :=
    List.map_congr_left fun s _ => s.write_false
  unfold Line.write indentation plainText
  rw [hsegments, Nat.mul_comm]
  rfl

/-! ## What the parts of a line say -/

theorem plainText_marker (text : String) : plainText (marker text) = " " ++ text := by
  unfold marker
  rw [plainText_cons, plainText_cons, plainText_nil, String.append_empty]

theorem plainText_hiddenCount (count : Nat) :
    plainText (hiddenCount count) = " (+" ++ toString count ++ ")" := by
  unfold hiddenCount
  rw [plainText_marker]
  show " " ++ ("(+" ++ toString count ++ ")") = _
  rw [← String.append_assoc, ← String.append_assoc]
  rfl

/-- A marker that may hold comes before those behind it. -/
theorem plainText_markers_cons (holds : Bool) (text : String) (rest : List (Bool × String)) :
    plainText (markers ((holds, text) :: rest))
      = (if holds then " " ++ text else "") ++ plainText (markers rest) := by
  unfold markers
  cases holds with
  | true => rw [List.filter_cons_of_pos rfl, List.flatMap_cons, plainText_append, plainText_marker,
      if_pos rfl]
  | false => rw [List.filter_cons_of_neg Bool.false_ne_true, if_neg Bool.false_ne_true,
      String.empty_append]

/-- **The path of a header is written whole**, wherever it is cut to be painted. -/
theorem plainText_headerName (h : Header) : plainText (headerName h) = h.shownPath := by
  have hwhole (style : Style) : plainText [⟨h.shownPath, style⟩] = h.shownPath := by
    rw [plainText_cons, plainText_nil, String.append_empty]
  unfold headerName
  dsimp only
  split
  · exact hwhole _
  · next span _ =>
    split
    · exact hwhole _
    · next front rest hfront =>
      split
      · exact hwhole _
      · next hit back hback =>
        obtain ⟨hpath, -⟩ := splitAtByte?_eq_some hfront
        obtain ⟨hrest, -⟩ := splitAtByte?_eq_some hback
        rw [plainText_cons, plainText_cons, plainText_cons, plainText_nil, String.append_empty]
        refine String.toList_injective ?_
        rw [String.toList_append, String.toList_append, String.toList_ofList, String.toList_ofList,
          String.toList_ofList, hpath, hrest]

end IncludeForest.View
