import IncludeForest.Proofs.Text.Decoding
import IncludeForest.Proofs.Text.Lines
import IncludeForest.Scan.Basic

/-!
# A log is read line by line

The bytes of a log are decoded before the lines are told apart, so nothing in the
program says that a broken character ends where its line ends. It does: the lines
of a log are the lines of its bytes, each decoded by itself
(`logLines_eq_map`), for no line feed and no return is ever taken for anything
else. What is wrong with one line is not seen in another.

It follows that a log can end its lines either way. `withReturns` puts a return
before every line feed that has none, and cutting takes them away again
(`cutLines_withReturns`).
-/

namespace IncludeForest

open Text Text.Utf8

/-! ## Lines of bytes -/

/-- A piece of bytes holds no line feed if its text holds none. -/
theorem newLine_notMem_decodeLossy {piece : List UInt8} (h : 0x0A ∉ piece) :
    '\n' ∉ decodeLossy piece :=
  fun hmem => h (mem_of_mem_decodeLossy (a := 0x0A) (by decide) (by decide) hmem)

/-- A return can be taken away before decoding or after. -/
theorem withoutReturn_decodeLossy (piece : List UInt8) :
    withoutReturn '\r' (decodeLossy piece) = decodeLossy (withoutReturn 0x0D piece) := by
  have hlast : (decodeLossy piece).getLast? = some '\r' ↔ piece.getLast? = some 0x0D :=
    getLast?_decodeLossy (a := 0x0D) (by decide) (by decide)
  unfold withoutReturn
  by_cases h : piece.getLast? = some 0x0D
  · obtain ⟨front, rfl⟩ := List.getLast?_eq_some_iff.1 h
    have hdecoded : decodeLossy (front ++ [0x0D]) = decodeLossy front ++ ['\r'] :=
      decodeLossy_append_cons (a := 0x0D) (by decide) front []
    rw [if_pos (hlast.2 h), if_pos h, hdecoded, List.dropLast_concat, List.dropLast_concat]
  · rw [if_neg fun hdecoded => h (hlast.1 hdecoded), if_neg h]

/-- **The lines of a log are those of its bytes, decoded one by one.** -/
theorem logLines_eq_map (log : List UInt8) :
    logLines log = (cutLines 0x0A 0x0D log).map decodeLossy := by
  unfold logLines
  rw [lines_eq_cutLines]
  induction log using induction_on_lines (0x0A : UInt8) with
  | last piece h =>
    rw [cutLines_of_notMem (newLine_notMem_decodeLossy h), cutLines_of_notMem h]
    simp only [List.isEmpty_iff, decodeLossy_eq_nil_iff]
    split <;> rfl
  | line piece rest h ih =>
    have hdecoded : decodeLossy (piece ++ 0x0A :: rest)
        = decodeLossy piece ++ '\n' :: decodeLossy rest :=
      decodeLossy_append_cons (a := 0x0A) (by decide) piece rest
    rw [hdecoded, cutLines_append_cons (newLine_notMem_decodeLossy h), cutLines_append_cons h, ih,
      withoutReturn_decodeLossy, List.map_cons]

/-! ## Returns -/

/-- Some bytes with a return before every line feed that has none, given whether
there is one directly before them. -/
def putReturns (behindReturn : Bool) : List UInt8 → List UInt8
  | [] => []
  | b :: rest =>
    if b = 0x0A ∧ behindReturn = false then 0x0D :: b :: putReturns false rest
    else b :: putReturns (b = 0x0D) rest

/-- **A log with a return before every line feed**: where there is none, one is
put. -/
def withReturns (log : List UInt8) : List UInt8 :=
  putReturns false log

/-- A last piece stays as it is. -/
theorem putReturns_of_notMem {piece : List UInt8} (h : 0x0A ∉ piece) (behindReturn : Bool) :
    putReturns behindReturn piece = piece := by
  induction piece generalizing behindReturn with
  | nil => rfl
  | cons b piece ih =>
    obtain ⟨hb, hpiece⟩ := List.ne_and_not_mem_of_not_mem_cons h
    rw [putReturns, if_neg fun hfeed => hb hfeed.1.symm, ih hpiece]

/-- A piece before a line feed ends in a return: in its own, or in one that is
put. -/
theorem putReturns_append_cons {piece : List UInt8} (h : 0x0A ∉ piece) (behindReturn : Bool)
    (rest : List UInt8) :
    putReturns behindReturn (piece ++ 0x0A :: rest)
      = piece ++ (if piece.getLast?.elim behindReturn (· == 0x0D) then [] else [0x0D])
        ++ 0x0A :: putReturns false rest := by
  induction piece generalizing behindReturn with
  | nil => cases behindReturn <;> rfl
  | cons b piece ih =>
    obtain ⟨hb, hpiece⟩ := List.ne_and_not_mem_of_not_mem_cons h
    have hlast : (b :: piece).getLast?.elim behindReturn (· == 0x0D)
        = piece.getLast?.elim (decide (b = 0x0D)) (· == 0x0D) := by
      rw [List.getLast?_cons]
      cases piece.getLast? <;> rfl
    rw [List.cons_append, putReturns, if_neg fun hfeed => hb hfeed.1.symm, ih hpiece, hlast]
    rfl

/-- **Cutting takes the returns away** that were put. -/
theorem cutLines_withReturns (log : List UInt8) :
    cutLines 0x0A 0x0D (withReturns log) = cutLines 0x0A 0x0D log := by
  unfold withReturns
  induction log using induction_on_lines (0x0A : UInt8) with
  | last piece h => rw [putReturns_of_notMem h]
  | line piece rest h ih =>
    rw [putReturns_append_cons h, cutLines_append_cons h]
    by_cases hreturn : piece.getLast? = some 0x0D
    · rw [hreturn, Option.elim_some, if_pos (beq_self_eq_true _), List.append_nil,
        cutLines_append_cons h, ih]
    · have hput : piece.getLast?.elim false (· == 0x0D) = false := by
        cases hlast : piece.getLast? with
        | none => rfl
        | some b => exact beq_false_of_ne fun hb => hreturn (hlast.trans (congrArg some hb))
      have hpiece : 0x0A ∉ piece ++ [0x0D] := by simpa using h
      rw [hput, if_neg Bool.false_ne_true, cutLines_append_cons hpiece, ih]
      unfold withoutReturn
      rw [List.getLast?_concat, if_pos rfl, List.dropLast_concat, if_neg hreturn]

/-! ## The lines that are read -/

/-- **A log is read line by line, and its lines can end either way.** The lines
that are read are those of its bytes, each decoded by itself, and these are what
is scanned for the forest. So where two logs of as many lines have the same bytes
between two line feeds, they have the same line, whatever is wrong with the bytes
elsewhere; and a log with a return before every line feed is read as the log is. -/
theorem logLines_by_line (rules : ForestRules) (filter : Option PathFilter) (log : List UInt8) :
    logLines log = (cutLines 0x0A 0x0D log).map decodeLossy ∧
      (Forest.ofLog rules filter log =
        match scan (.empty rules) filter ((cutLines 0x0A 0x0D log).map decodeLossy) with
        | (_, some e) => .error e
        | (s, none) => .ok (finish s.forest s.tally)) ∧
      (∀ (other : List UInt8) (i : Nat), (other.splitOn 0x0A).length = (log.splitOn 0x0A).length →
        (other.splitOn 0x0A)[i]? = (log.splitOn 0x0A)[i]? →
        (logLines other)[i]? = (logLines log)[i]?) ∧
      Forest.ofLog rules filter (withReturns log) = Forest.ofLog rules filter log := by
  refine ⟨logLines_eq_map log, ?_, fun other i hlength hpiece => ?_, ?_⟩
  · rw [← logLines_eq_map]
    rfl
  · rw [logLines_eq_map, logLines_eq_map, List.getElem?_map, List.getElem?_map, getElem?_cutLines,
      getElem?_cutLines, hlength, hpiece]
  · unfold Forest.ofLog
    rw [logLines_eq_map, cutLines_withReturns, ← logLines_eq_map]

/-- A character that is broken off by its line end does not reach into the line
after it, which a log without that character has as well. -/
theorem logLines_by_line_broken :
    let log : List UInt8 := [0x61, 0x0D, 0x0A, 0xE2, 0x82, 0x0A, 0x62, 0x0D]
    let other : List UInt8 := [0x61, 0x0D, 0x0A, 0x0A, 0x62, 0x0D]
    (other.splitOn 0x0A).length = (log.splitOn 0x0A).length ∧
      (other.splitOn 0x0A)[2]? = (log.splitOn 0x0A)[2]? ∧
      (logLines other)[2]? = (logLines log)[2]? ∧
      logLines log = [['a'], ['\uFFFD'], ['b', '\r']] := by
  intro log other
  obtain ⟨hlines, -, hother, -⟩ := logLines_by_line {} none log
  have hpieces : (other.splitOn 0x0A).length = (log.splitOn 0x0A).length := by decide
  have hpiece : (other.splitOn 0x0A)[2]? = (log.splitOn 0x0A)[2]? := by decide
  exact ⟨hpieces, hpiece, hother other 2 hpieces hpiece, hlines.trans (by decide)⟩

end IncludeForest
