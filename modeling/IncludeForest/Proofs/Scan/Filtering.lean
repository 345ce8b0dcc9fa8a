import Mathlib.Data.List.Nodup
import IncludeForest.Proofs.Scan.Accounting
import IncludeForest.Proofs.Scan.Consistency
import IncludeForest.Proofs.Scan.Tracing

/-!
# What a filter leaves of the trees

A filter drops notes before the forest sees them, and the notes that are left
keep their levels. So a header whose note is kept hangs on the way down that is
there, and that may be another way than without the filter: where a header is
missing, what stood below it comes to stand below the header before.

The two ways go together down to the first header that is dropped
(`SameUntil`), and as long as none is dropped on it, they are one way. A kept
note cuts both at its level, a dropped one only the first, and both times this
stays true (`SameUntil.take_concat`, `SameUntil.concat_dropped`). For the trees
it follows that a header that no dropped one stands above has the same headers
above it as without the filter and closes a cycle if it did without
(`traces_of_filter`). The condition cannot be left out: below a dropped header,
a filter can make a cycle where there is none
(`exists_cycle_of_filter`).
-/

namespace IncludeForest

open IncludeTree Log

/-! ## Ways with entries left out -/

section

variable {α : Type} {kept : α → Bool} {way way' : List α} {a : α}

/-- **Two ways that are the same**, or the same down to where the first goes by
an entry that is dropped. -/
def SameUntil (kept : α → Bool) (way way' : List α) : Prop :=
  way' = way ∨
    ∃ front a behind others, way = front ++ a :: behind ∧ way' = front ++ others ∧ kept a = false

namespace SameUntil

/-- The first way is there down to the first dropped entry. -/
theorem takeWhile_isPrefix (h : SameUntil kept way way') : way.takeWhile kept <+: way' := by
  obtain rfl | ⟨front, a, behind, others, rfl, rfl, ha⟩ := h
  · exact List.takeWhile_prefix kept
  · have hfront : (front ++ a :: behind).takeWhile kept <+: front := by
      rw [List.takeWhile_append, List.takeWhile_cons_of_neg (by simp [ha]), List.append_nil]
      split
      · exact List.prefix_rfl
      · exact List.takeWhile_prefix kept
    exact hfront.trans (List.prefix_append front others)

/-- Where nothing is dropped the ways are the same. -/
theorem eq_of_forall (h : SameUntil kept way way') (hkept : ∀ a ∈ way, kept a = true) :
    way' = way := by
  refine h.resolve_right ?_
  rintro ⟨front, a, behind, others, rfl, -, ha⟩
  rw [hkept a (by simp)] at ha
  cases ha

/-- The ways stay the same that far when both are cut at one depth. -/
theorem take (h : SameUntil kept way way') (n : Nat) :
    SameUntil kept (way.take n) (way'.take n) := by
  obtain rfl | ⟨front, a, behind, others, rfl, rfl, ha⟩ := h
  · exact .inl rfl
  · by_cases hn : n ≤ front.length
    · left
      rw [List.take_append_of_le_length hn, List.take_append_of_le_length hn]
    · right
      obtain ⟨k, hk⟩ := Nat.exists_eq_add_of_lt (Nat.lt_of_not_le hn)
      refine ⟨front, a, behind.take k, others.take (k + 1), ?_, ?_, ha⟩
      · rw [hk, Nat.add_assoc, List.take_length_add_append, List.take_succ_cons]
      · rw [hk, Nat.add_assoc, List.take_length_add_append]

/-- A kept entry goes to the end of both. -/
theorem concat (h : SameUntil kept way way') (a : α) :
    SameUntil kept (way ++ [a]) (way' ++ [a]) := by
  obtain rfl | ⟨front, b, behind, others, rfl, rfl, hb⟩ := h
  · exact .inl rfl
  · exact .inr ⟨front, b, behind ++ [a], others ++ [a], by simp, by simp, hb⟩

/-- A dropped entry goes to the end of the first, and the second stays. -/
theorem concat_dropped (h : SameUntil kept way way') (n : Nat) (ha : kept a = false) :
    SameUntil kept (way.take n ++ [a]) way' := by
  obtain rfl | ⟨front, b, behind, others, rfl, rfl, hb⟩ := h
  · exact .inr ⟨way'.take n, a, [], way'.drop n, rfl, (List.take_append_drop n way').symm, ha⟩
  · by_cases hn : n ≤ front.length
    · refine .inr ⟨front.take n, a, [], front.drop n ++ others, ?_, ?_, ha⟩
      · rw [List.take_append_of_le_length hn]
      · rw [← List.append_assoc, List.take_append_drop]
    · obtain ⟨k, hk⟩ := Nat.exists_eq_add_of_lt (Nat.lt_of_not_le hn)
      refine .inr ⟨front, b, behind.take k ++ [a], others, ?_, rfl, hb⟩
      rw [hk, Nat.add_assoc, List.take_length_add_append, List.take_succ_cons, List.append_assoc]
      rfl

end SameUntil

/-- **What is kept has the same way above it** as before, down to the first
entry that is dropped. -/
theorem exists_mem_waysAfter_of_filter (h : SameUntil kept way way') (hs : List (Nat × α))
    {e' : α × List α} (he' : e' ∈ waysAfter way' (hs.filter fun e => kept e.2)) :
    ∃ e ∈ waysAfter way hs, e.1 = e'.1 ∧ SameUntil kept e.2 e'.2 := by
  induction hs generalizing way way' with
  | nil => exact absurd he' List.not_mem_nil
  | cons entry hs ih =>
    obtain ⟨depth, a⟩ := entry
    rw [waysAfter]
    cases ha : kept a with
    | true =>
      rw [List.filter_cons_of_pos (by exact ha), waysAfter, List.mem_cons] at he'
      rcases he' with rfl | he'
      · exact ⟨_, List.mem_cons_self, rfl, h.take depth⟩
      · obtain ⟨e, he, hsame⟩ := ih ((h.take depth).concat a) he'
        exact ⟨e, List.mem_cons_of_mem _ he, hsame⟩
    | false =>
      rw [List.filter_cons_of_neg (by simp [ha])] at he'
      obtain ⟨e, he, hsame⟩ := ih (h.concat_dropped depth ha) he'
      exact ⟨e, List.mem_cons_of_mem _ he, hsame⟩

end

/-! ## Trees with headers left out -/

section

variable {rules : ForestRules} {f : PathFilter} {m m' : Module} {all : List Note}

/-- A note of a module is kept if its line is that of a kept note. -/
theorem mem_lines_filter_iff (h : all.Pairwise (·.line < ·.line)) {note : Note}
    (hnote : note ∈ all) :
    note.line ∈ (all.filter (·.isKept f)).map (·.line) ↔ note.isKept f = true := by
  constructor
  · intro hmem
    obtain ⟨other, hother, hline⟩ := List.mem_map.1 hmem
    obtain ⟨hother, hkept⟩ := List.mem_filter.1 hother
    have hnodup : (all.map (·.line)).Nodup := List.pairwise_map.2 (h.imp Nat.ne_of_lt)
    rwa [List.inj_on_of_nodup_map hnodup hother hnote hline] at hkept
  · exact fun hkept => List.mem_map_of_mem (List.mem_filter.2 ⟨hnote, hkept⟩)

/-- **What is kept of a module** stands below the same headers as before, down
to the first that is dropped. -/
theorem Module.Records.exists_trace_of_filter
    (h : m.Records rules (all.map fun n => (n.level, n.path)))
    (h' : m'.Records rules ((all.filter (·.isKept f)).map fun n => (n.level, n.path)))
    (hexact : m.CyclesExact) (hexact' : m'.CyclesExact) (hlines : all.Pairwise (·.line < ·.line))
    {t' : Trace} :
    let kept := (all.filter (·.isKept f)).map (·.line)
    t' ∈ m'.traces kept → ∃ t ∈ m.traces (all.map (·.line)), t.line = t'.line ∧
      t.header.comparedPath = t'.header.comparedPath ∧
      t.above.takeWhile (· ∈ kept) <+: t'.above ∧
      ((∀ line ∈ t.above, line ∈ kept) →
        t'.above = t.above ∧ t'.header.closesCycle = t.header.closesCycle) := by
  intro kept ht'
  let isKept (a : Nat × String) : Bool := decide (a.1 ∈ kept)
  have hfilter : (all.map fun n => (n.level, told rules n)).filter (fun e => isKept e.2)
      = (all.filter (·.isKept f)).map fun n => (n.level, told rules n) := by
    rw [List.filter_map]
    refine congrArg _ (List.filter_congr fun note hnote => ?_)
    exact Bool.eq_iff_iff.2 ((decide_eq_true_iff).trans (mem_lines_filter_iff hlines hnote))
  have hmem' := List.mem_map_of_mem (f := fun t : Trace =>
    (t.line, t.header.comparedPath, t.header.closesCycle, t.above)) ht'
  rw [h'.traces_eq hexact', ← hfilter] at hmem'
  obtain ⟨e', he', htold'⟩ := List.mem_map.1 hmem'
  obtain ⟨e, he, hsame, hway⟩ := exists_mem_waysAfter_of_filter (.inl rfl) _ he'
  have hmem := List.mem_map_of_mem (f := fun e : (Nat × String) × List (Nat × String) =>
    (e.1.1, e.1.2, e.2.any (·.2 == e.1.2), e.2.map (·.1))) he
  rw [← h.traces_eq hexact] at hmem
  obtain ⟨t, ht, htold⟩ := List.mem_map.1 hmem
  simp only [Prod.mk.injEq] at htold htold'
  obtain ⟨hline, hpath, hcloses, habove⟩ := htold
  obtain ⟨hline', hpath', hcloses', habove'⟩ := htold'
  refine ⟨t, ht, ?_, ?_, ?_, fun hall => ?_⟩
  · rw [hline, hsame, hline']
  · rw [hpath, hsame, hpath']
  · rw [habove, ← habove', List.takeWhile_map]
    exact hway.takeWhile_isPrefix.map _
  · have heq : e'.2 = e.2 := by
      refine hway.eq_of_forall fun a ha => decide_eq_true (hall a.1 ?_)
      rw [habove]
      exact List.mem_map_of_mem ha
    rw [← habove', ← hcloses', heq, ← hsame, habove, hcloses]
    exact ⟨rfl, rfl⟩

/-- A module that is there with a filter is there without. -/
theorem exists_module?_of_filter {log : List (List Char)}
    (hall : (scan (.empty rules) none log).2 = none)
    (hsome : (scan (.empty rules) (some f) log).2 = none) {id : StreamId} {name : String}
    (h : (scan (.empty rules) (some f) log).1.forest.module? id name = some m') :
    ∃ m, (scan (.empty rules) none log).1.forest.module? id name = some m := by
  have hstarts : StartsModule (some f) log id name :=
    (((reflects_scan hsome).streams id).modules name).1 (Option.isSome_iff_exists.2 ⟨m', h⟩)
  obtain ⟨line, hline, hannounced⟩ := hstarts
  have hstarts : StartsModule none log id name :=
    ⟨line, hline, announcement?_eq_module_iff.1 hannounced⟩
  exact Option.isSome_iff_exists.1 ((((reflects_scan hall).streams id).modules name).2 hstarts)

/-- **What a filter leaves of a module**, header by header. -/
theorem exists_traces_of_filter {log : List (List Char)}
    (hall : (scan (.empty rules) none log).2 = none)
    (hsome : (scan (.empty rules) (some f) log).2 = none) {id : StreamId} {name : String}
    (hm' : (scan (.empty rules) (some f) log).1.forest.module? id name = some m') :
    let lines := (notes none id name log).map (·.line)
    let kept := (notes (some f) id name log).map (·.line)
    ∃ m, (scan (.empty rules) none log).1.forest.module? id name = some m ∧
      m.IsTracedBy rules (notes none id name log) ∧
      m'.IsTracedBy rules (notes (some f) id name log) ∧ kept.Sublist lines ∧
      ∀ t' ∈ m'.traces kept, ∃ t ∈ m.traces lines, t.line = t'.line ∧
        t.header.comparedPath = t'.header.comparedPath ∧
        t.above.takeWhile (· ∈ kept) <+: t'.above ∧
        ((∀ line ∈ t.above, line ∈ kept) →
          t'.above = t.above ∧ t'.header.closesCycle = t.header.closesCycle) := by
  intro lines kept
  obtain ⟨m, hm⟩ := exists_module?_of_filter hall hsome hm'
  have hreachable := (Scanner.accounts_scan rules none hall).isReachable
  have hreachable' := (Scanner.accounts_scan rules (some f) hsome).isReachable
  have hexact := hreachable.cyclesExact id name m hm
  have hexact' := hreachable'.cyclesExact id name m' hm'
  have hrecords := (Scanner.follows_scan rules none hall).records.module hm
  have hrecords' := (Scanner.follows_scan rules (some f) hsome).records.module hm'
  rw [hreachable.rules_eq] at hrecords
  rw [hreachable'.rules_eq] at hrecords'
  have hlines : (notes none id name log).Pairwise (·.line < ·.line) := pairwise_notes log
  have hkept : kept = ((notes none id name log).filter (·.isKept f)).map (·.line) :=
    congrArg (List.map (·.line)) (notes_some log)
  refine ⟨m, hm, hrecords.isTracedBy hexact hlines,
    hrecords'.isTracedBy hexact' (pairwise_notes log), ?_, fun t' ht' => ?_⟩
  · rw [hkept]
    exact List.filter_sublist.map _
  · rw [notes_some] at hrecords'
    rw [hkept] at ht' ⊢
    exact hrecords.exists_trace_of_filter hrecords' hexact hexact' hlines ht'

end

/-- **Dropping notes changes nothing where nothing above is dropped.** When a log
is accepted with a filter and without one, the headers that are kept are among
all headers, line by line. What stands above a kept header without the filter
stands above it with the filter as well, from the root down to the first header
that is dropped; where none is dropped above it, nothing else stands above it,
and it closes a cycle with the filter if and only if it does without. So if no
kept header stands below a dropped one and there is no cycle without the filter,
there is none with it. -/
theorem traces_of_filter (rules : ForestRules) (f : PathFilter) (log : List (List Char))
    (hall : (scan (.empty rules) none log).2 = none)
    (hsome : (scan (.empty rules) (some f) log).2 = none) :
    let s := (scan (.empty rules) none log).1
    let s' := (scan (.empty rules) (some f) log).1
    let lines (id : StreamId) (name : String) := (notes none id name log).map (·.line)
    let kept (id : StreamId) (name : String) := (notes (some f) id name log).map (·.line)
    (∀ id name m', s'.forest.module? id name = some m' →
      ∃ m, s.forest.module? id name = some m ∧
        m.IsTracedBy rules (notes none id name log) ∧
        m'.IsTracedBy rules (notes (some f) id name log) ∧
        (kept id name).Sublist (lines id name) ∧
        ∀ t' ∈ m'.traces (kept id name), ∃ t ∈ m.traces (lines id name), t.line = t'.line ∧
          t.header.comparedPath = t'.header.comparedPath ∧
          t.above.takeWhile (· ∈ kept id name) <+: t'.above ∧
          ((∀ line ∈ t.above, line ∈ kept id name) →
            t'.above = t.above ∧ t'.header.closesCycle = t.header.closesCycle)) ∧
    (s.tally.cycles = 0 →
      (∀ id name m, s.forest.module? id name = some m →
        ∀ t ∈ m.traces (lines id name), t.line ∈ kept id name →
          ∀ line ∈ t.above, line ∈ kept id name) →
      s'.tally.cycles = 0) := by
  intro s s' lines kept
  refine ⟨fun id name m' hm' => exists_traces_of_filter hall hsome hm', fun hcycles hbelow => ?_⟩
  rw [← (Scanner.accounts_scan rules none hall).cycles, Forest.count_eq_zero_iff] at hcycles
  rw [← (Scanner.accounts_scan rules (some f) hsome).cycles, Forest.count_eq_zero_iff]
  intro id name m' hm' p' hp'
  obtain ⟨m, hm, -, htraced, -, htraces⟩ := exists_traces_of_filter hall hsome hm'
  obtain ⟨t', ht', hheader'⟩ : ∃ t' ∈ m'.traces (kept id name), t'.header = p'.header := by
    rw [← List.mem_map, m'.map_header_traces]
    exact List.mem_map_of_mem hp'
  obtain ⟨t, ht, hline, -, -, hsame⟩ := htraces t' ht'
  have hline' : t.line ∈ kept id name := by
    have hlines : (m'.traces (kept id name)).map (·.line) = kept id name := htraced.map_line
    rw [hline, ← hlines]
    exact List.mem_map_of_mem ht'
  obtain ⟨p, hp, hheader⟩ : ∃ p ∈ m.places, p.header = t.header := by
    rw [← List.mem_map, ← m.map_header_traces (lines id name)]
    exact List.mem_map_of_mem ht
  rw [← hheader', (hsame (hbelow id name m hm t ht hline')).2, ← hheader]
  exact hcycles id name m hm p hp

/-- A dropped header with a kept one beside it, both below the first: the kept
one stays where it is, and there is no cycle with the filter as there is none
without. -/
theorem traces_of_filter_beside :
    let f : PathFilter := ⟨[.sequence ("std".toList.map fun c => .char (.range c c))]⟩
    let log := [
      "1> Project: demo", "1> main.cpp", "1> Note: including file: a.h",
      "1> Note: including file:  std.h", "1> Note: including file:  b.h"].map String.toList
    let s := (scan (.empty {}) none log).1
    let s' := (scan (.empty {}) (some f) log).1
    (∃ m m', s.forest.module? 1 "main.cpp" = some m ∧ s'.forest.module? 1 "main.cpp" = some m' ∧
      ∃ t' ∈ m'.traces ((notes (some f) 1 "main.cpp" log).map (·.line)),
      ∃ t ∈ m.traces ((notes none 1 "main.cpp" log).map (·.line)),
        t'.line = 5 ∧ t.line = 5 ∧ t'.above = t.above) ∧
    s'.tally.cycles = 0 := by
  intro f log s s'
  have hall : (scan (.empty {}) none log).2 = none := by decide +kernel
  obtain ⟨hmodules, hcycles⟩ := traces_of_filter {} f log hall (by decide +kernel)
  dsimp only at hmodules hcycles
  have hlines : (notes none 1 "main.cpp" log).map (·.line) = [3, 4, 5] := by decide +kernel
  have hkept : (notes (some f) 1 "main.cpp" log).map (·.line) = [3, 5] := by decide +kernel
  have htraces : (s.forest.module? 1 "main.cpp").map (fun m =>
      (m.traces [3, 4, 5]).map fun t => (t.line, t.above))
      = some [(3, []), (4, [3]), (5, [3])] := by decide +kernel
  have hthere : (s'.forest.module? 1 "main.cpp").isSome = true := by decide +kernel
  obtain ⟨m, hm, htraces⟩ := Option.map_eq_some_iff.1 htraces
  obtain ⟨m', hm'⟩ := Option.isSome_iff_exists.1 hthere
  -- No header stands below the one of line 4.
  have hbelow : ∀ t ∈ m.traces [3, 4, 5], ∀ line ∈ t.above, line ∈ [3, 5] := by
    intro t ht
    have hmem := List.mem_map_of_mem (f := fun t : Trace => (t.line, t.above)) ht
    rw [htraces] at hmem
    have hkept : ∀ e ∈ [(3, []), (4, [3]), (5, [3])], ∀ line ∈ e.2, line ∈ [3, 5] := by decide
    exact hkept _ hmem
  refine ⟨⟨m, m', hm, hm', ?_⟩, hcycles (by decide +kernel) ?_⟩
  · obtain ⟨m₁, hm₁, -, htraced, -, hsame⟩ := hmodules 1 "main.cpp" m' hm'
    obtain rfl : m₁ = m := Option.some.inj (hm₁.symm.trans hm)
    obtain ⟨t', ht', hline'⟩ : ∃ t' ∈ m'.traces _, t'.line = 5 := by
      rw [← List.mem_map, htraced.map_line, hkept]
      decide
    obtain ⟨t, ht, hline, -, -, habove⟩ := hsame t' ht'
    refine ⟨t', ht', t, ht, hline', hline.trans hline', (habove fun line hline => ?_).1⟩
    exact hkept ▸ hbelow t (hlines ▸ ht) line hline
  · intro id name m₁ hm₁ t ht _
    -- There is one module only.
    obtain ⟨line, hline, hannounced⟩ : StartsModule none log id name :=
      (((reflects_scan hall).streams id).modules name).1 (Option.isSome_iff_exists.2 ⟨m₁, hm₁⟩)
    have honly : (log.filterMap (announcement? none)).filter
        (fun e => (startedModule? e.2).isSome) = [(1, .module "main.cpp")] := by decide +kernel
    have hmem : (id, Announcement.module name) ∈ [(1, .module "main.cpp")] :=
      honly ▸ List.mem_filter.2 ⟨List.mem_filterMap.2 ⟨line, hline, hannounced⟩, rfl⟩
    obtain ⟨rfl, hname⟩ := Prod.mk.inj (List.mem_singleton.1 hmem)
    obtain rfl : name = "main.cpp" := Announcement.module.inj hname
    obtain rfl : m₁ = m := Option.some.inj (hm₁.symm.trans hm)
    exact fun line hline => hkept ▸ hbelow t (hlines ▸ ht) line hline

/-- Below a dropped header, a kept one comes to stand below the header before,
which can be the same. -/
theorem exists_cycle_of_filter :
    let f : PathFilter := ⟨[.sequence ("std".toList.map fun c => .char (.range c c))]⟩
    let log := [
      "1> Project: demo", "1> main.cpp", "1> Note: including file: a.h",
      "1> Note: including file: std.h", "1> Note: including file:  a.h"].map String.toList
    let s := (scan (.empty {}) none log).1
    let s' := (scan (.empty {}) (some f) log).1
    PathFilter.ofPatterns ["std"] = .ok f ∧
      (scan (.empty {}) none log).2 = none ∧ (scan (.empty {}) (some f) log).2 = none ∧
      ¬(∀ m m', s.forest.module? 1 "main.cpp" = some m → s'.forest.module? 1 "main.cpp" = some m' →
        ∀ t' ∈ m'.traces ((notes (some f) 1 "main.cpp" log).map (·.line)),
          ∃ t ∈ m.traces ((notes none 1 "main.cpp" log).map (·.line)),
            t.line = t'.line ∧ ∀ line ∈ t'.above, line ∈ t.above) ∧
      s.tally.cycles = 0 ∧ s'.tally.cycles = 1 := by
  intro f log s s'
  have hfilter : (PathFilter.ofPatterns ["std"]).toOption = some f := by decide +kernel
  have htraces : (s.forest.module? 1 "main.cpp").map (fun m =>
      (m.traces ((notes none 1 "main.cpp" log).map (·.line))).map fun t => (t.line, t.above))
      = some [(3, []), (4, []), (5, [4])] := by decide +kernel
  have htraces' : (s'.forest.module? 1 "main.cpp").map (fun m =>
      (m.traces ((notes (some f) 1 "main.cpp" log).map (·.line))).map fun t => (t.line, t.above))
      = some [(3, []), (5, [3])] := by decide +kernel
  refine ⟨?_, by decide +kernel, by decide +kernel, fun hcontains => ?_, by decide +kernel,
    by decide +kernel⟩
  · cases hread : PathFilter.ofPatterns ["std"] with
    | error e =>
      rw [hread] at hfilter
      cases hfilter
    | ok filter =>
      rw [hread] at hfilter
      exact congrArg Except.ok (Option.some.inj hfilter)
  · obtain ⟨m, hm, htraces⟩ := Option.map_eq_some_iff.1 htraces
    obtain ⟨m', hm', htraces'⟩ := Option.map_eq_some_iff.1 htraces'
    obtain ⟨t', ht', heq'⟩ := List.mem_map.1 (htraces' ▸ List.mem_cons_of_mem _
      (List.mem_singleton_self ((5, [3]) : Nat × List Nat)))
    obtain ⟨t, ht, hline, habove⟩ := hcontains m m' hm hm' t' ht'
    obtain ⟨hline', habove'⟩ := Prod.mk.inj heq'
    have hmem := List.mem_map_of_mem (f := fun t : Trace => (t.line, t.above)) ht
    rw [htraces, hline, hline'] at hmem
    have hcontained : 3 ∈ t.above := habove 3 (by rw [habove']; exact List.mem_singleton_self 3)
    obtain hmem : t.above = [4] := by simpa using hmem
    rw [hmem] at hcontained
    cases List.mem_singleton.1 hcontained

end IncludeForest
