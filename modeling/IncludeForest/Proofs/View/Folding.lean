import IncludeForest.Proofs.Forest.Matches
import IncludeForest.Proofs.Forest.Totals
import IncludeForest.Proofs.View.Entries

/-!
# What folding hides

To fold a line is to leave out what stands below it, and that could be wrong in two
ways: something that is looked for could be among it, or its count could be.

Nothing that is looked for is left out, because whatever stands above a mark knows of
it: a header by `IncludeTree.below_of_mem_above`, a module and a project since they ask
what is below them. So the way down to a mark is open all along
(`Forest.IsReachable.isVisible_of_marked`).

And what is left out is counted once. Where a project is opened, every header either has
a line or stands below exactly one line that is folded, and the lines and the counts add
up to all headers there are (`tally_ofProject`). `forestText_exact` puts this together
with what the text is.
-/

namespace IncludeForest

open IncludeTree

namespace View

variable {autoExpand : Bool} {p : Project} {name : String} {m : Module}

/-! ## What is counted -/

/-- **How many headers some lines stand for**: those they are of, and those they
count. -/
def tally (autoExpand : Bool) (lines : List Entry) : Nat :=
  lines.countP (·.isHeader) + (lines.map fun e => (e.count? autoExpand).getD 0).sum

@[simp] theorem tally_nil : tally autoExpand [] = 0 := rfl

theorem tally_append (lines more : List Entry) :
    tally autoExpand (lines ++ more) = tally autoExpand lines + tally autoExpand more := by
  unfold tally
  rw [List.countP_append, List.map_append, List.sum_append]
  omega

/-- What the lines of some modules stand for adds up. -/
theorem tally_flatMap {α : Type} (lines : α → List Entry) (l : List α) :
    tally autoExpand (l.flatMap lines) = (l.map fun a => tally autoExpand (lines a)).sum := by
  induction l with
  | nil => rfl
  | cons a l ih => rw [List.flatMap_cons, tally_append, ih, List.map_cons, List.sum_cons]

theorem tally_header_cons (p : Project) (name : String) (m : Module) (q : Place)
    (lines : List Entry) :
    tally autoExpand (.header p name m q :: lines)
      = 1 + ((Entry.header p name m q).count? autoExpand).getD 0 + tally autoExpand lines := by
  unfold tally
  rw [List.countP_cons_of_pos rfl, List.map_cons, List.sum_cons]
  omega

theorem tally_cons_of_not_isHeader {e : Entry} (h : e.isHeader = false) (lines : List Entry) :
    tally autoExpand (e :: lines) = (e.count? autoExpand).getD 0 + tally autoExpand lines := by
  unfold tally
  rw [List.countP_cons_of_neg (Bool.eq_false_iff.1 h), List.map_cons, List.sum_cons]
  exact Nat.add_left_comm ..

/-- The count of a folded header is that of all headers below it, if only because there
is none. -/
theorem count?_header {q : Place} (hleads : q.header.leads = false) :
    ((Entry.header p name m q).count? true).getD 0 = sizeAll q.tree.children := by
  cases hchildren : q.tree.children.isEmpty with
  | true =>
    have hcount : (Entry.header p name m q).count? true = none :=
      count?_of_leaf (congrArg (!·) hchildren)
    rw [hcount, List.isEmpty_iff.1 hchildren]
    rfl
  | false =>
    have hcount : (Entry.header p name m q).count? true = _ :=
      count?_of_folded hleads (congrArg (!·) hchildren)
    rw [hcount, hidden_header hleads, Option.getD_some]

mutual

theorem tally_placesBelow {above : List Header} (p : Project) (name : String) (m : Module)
    (habove : (!autoExpand || above.all (·.leads)) = true) :
    (t : IncludeTree) →
      tally autoExpand
          (((placesBelow above t).filter (·.isReached autoExpand)).map (.header p name m))
        = t.size
  | node h ts => by
    rw [filter_placesBelow h ts habove, List.map_cons, tally_header_cons, size]
    by_cases hopen : (!autoExpand || h.leads) = true
    · rw [if_pos hopen, tally_placesBelowAll p name m (opened_cons hopen habove) ts,
        count?_of_opened hopen, Option.getD_none, Nat.add_zero, Nat.add_comm]
    · rw [if_neg hopen]
      obtain ⟨rfl, hleads⟩ := folded_of_not_opened hopen
      have hcount : ((Entry.header p name m ⟨above, node h ts⟩).count? true).getD 0 = sizeAll ts :=
        count?_header hleads
      rw [hcount, List.map_nil, tally_nil, Nat.add_zero, Nat.add_comm]

/-- **What is reached of some trees stands for all their headers.** -/
theorem tally_placesBelowAll {above : List Header} (p : Project) (name : String) (m : Module)
    (habove : (!autoExpand || above.all (·.leads)) = true) :
    (ts : List IncludeTree) →
      tally autoExpand
          (((placesBelowAll above ts).filter (·.isReached autoExpand)).map (.header p name m))
        = sizeAll ts
  | [] => rfl
  | t :: ts => by
    rw [placesBelowAll, List.filter_append, List.map_append, tally_append, sizeAll,
      tally_placesBelow p name m habove t, tally_placesBelowAll p name m habove ts]

end

/-- **The lines of a module stand for all its headers**, if its project is opened. -/
theorem tally_ofModule (hp : (!autoExpand || p.leads) = true) (name : String) (m : Module) :
    tally autoExpand ((Entry.ofModule p name m).filter (·.isVisible autoExpand)) = m.size := by
  rw [filter_ofModule hp, tally_cons_of_not_isHeader rfl]
  by_cases hopen : (!autoExpand || m.leads) = true
  · have hroots : (!autoExpand || ([] : List Header).all (·.leads)) = true := Bool.or_true _
    rw [if_pos hopen, count?_of_opened hopen, Option.getD_none, Nat.zero_add]
    exact tally_placesBelowAll p name m hroots m.roots
  · rw [if_neg hopen]
    obtain ⟨rfl, hleads⟩ := folded_of_not_opened hopen
    have hcount : (Entry.module p name m).count? true = _ := count?_of_folded hleads rfl
    rw [hcount, hidden_module hleads, Option.getD_some, tally_nil, Nat.add_zero]

/-- **The lines of a project that is opened stand for all its headers.** -/
theorem tally_ofProject (hp : (!autoExpand || p.leads) = true) :
    tally autoExpand ((Entry.ofProject p).filter (·.isVisible autoExpand))
      = p.modules.sum Module.size := by
  rw [filter_ofProject, tally_cons_of_not_isHeader rfl, if_pos hp, count?_of_opened hp,
    Option.getD_none, Nat.zero_add, tally_flatMap]
  exact congrArg List.sum (List.map_congr_left fun entry _ => tally_ofModule hp entry.1 entry.2)

/-! ## What is never hidden -/

/-- The headers of a forest that have an entry. -/
theorem header_mem_ofForest_iff {f : Forest} {q : Place} :
    .header p name m q ∈ Entry.ofForest f ↔
      p ∈ f.projects.values ∧ (name, m) ∈ p.modules.toList ∧ q ∈ m.places := by
  constructor
  · intro h
    obtain ⟨project, hproject, h⟩ := List.mem_flatMap.1 h
    rcases List.mem_cons.1 h with h | h
    · cases h
    obtain ⟨entry, hm, h⟩ := List.mem_flatMap.1 h
    rcases List.mem_cons.1 h with h | h
    · cases h
    obtain ⟨r, hr, hsame⟩ := List.mem_map.1 h
    cases hsame
    exact ⟨hproject, hm, hr⟩
  · rintro ⟨hproject, hm, hq⟩
    refine List.mem_flatMap.2 ⟨p, hproject, List.mem_cons_of_mem _ ?_⟩
    refine List.mem_flatMap.2 ⟨(name, m), hm, List.mem_cons_of_mem _ ?_⟩
    exact List.mem_map_of_mem hq

end View

namespace Forest

open View

/-- What is in a project is found in the forest. -/
theorem exists_module? {f : Forest} {p : Project} {name : String} {m : Module}
    (hp : p ∈ f.projects.values) (hm : (name, m) ∈ p.modules.toList) :
    ∃ id, f.module? id name = some m := by
  obtain ⟨⟨id, _⟩, hproject, rfl⟩ := List.mem_map.1 hp
  exact ⟨id, module?_of_mem hproject hm⟩

/-- **What closes a cycle or is matched can always be seen.** -/
theorem IsReachable.isVisible_of_marked {rules : ForestRules} {f : Forest}
    (hf : f.IsReachable rules) (autoExpand : Bool) {p : Project} {name : String} {m : Module}
    {q : Place} (hq : .header p name m q ∈ Entry.ofForest f)
    (hmarked : q.header.closesCycle = true ∨ q.header.isMatched = true) :
    (Entry.header p name m q).isVisible autoExpand = true := by
  obtain ⟨hp, hm, hq⟩ := header_mem_ofForest_iff.1 hq
  obtain ⟨id, hfound⟩ := exists_module? hp hm
  have hcycles := hf.cyclesExact id name m hfound
  have hmatches := hf.matchesExact id name m hfound
  have hvalue : m ∈ p.modules.values := List.mem_map.2 ⟨(name, m), hm, rfl⟩
  have hmodule : m.leads = true := by
    refine Bool.or_eq_true_iff.2 (hmarked.imp (fun hcycle => ?_) fun hmatched => ?_)
    · rw [hcycles.hasCycle]
      exact anyHeader_eq_true_iff.2 ⟨q, hq, hcycle⟩
    · rw [hmatches.hasMatch]
      exact anyHeader_eq_true_iff.2 ⟨q, hq, hmatched⟩
  have hproject : p.leads = true :=
    Bool.or_eq_true_iff.2 ((Bool.or_eq_true_iff.1 hmodule).imp
      (fun hcycle => List.any_eq_true.2 ⟨m, hvalue, hcycle⟩)
      fun hmatch => List.any_eq_true.2 ⟨m, hvalue, hmatch⟩)
  have habove : q.above.all (·.leads) = true :=
    List.all_eq_true.2 fun g hg => Bool.or_eq_true_iff.2 (hmarked.imp
      (fun hcycle => below_of_mem_above hcycles.contains hq hcycle hg)
      fun hmatched => below_of_mem_above hmatches.contains hq hmatched hg)
  show (!autoExpand || (p.leads && m.leads && q.above.all (·.leads))) = true
  rw [hproject, hmodule, habove]
  exact Bool.or_true _

end Forest

namespace View

open Text

/-- **The outline is written exactly.** After every run, the text without styles is that
of the entries which can be seen, one line for each, and the projects and the modules of
each come in order. If nothing is to be folded, every entry can be seen and has no count.
Either way, what closes a cycle or is matched can be seen; and in a project that is
opened, the headers that can be seen and the counts add up to all its headers. -/
theorem forestText_exact (rules : ForestRules) (steps : List Forest.Step) (autoExpand : Bool) :
    let f := ((Forest.empty rules).performAll steps).1
    let shown := (Entry.ofForest f).filter (·.isVisible autoExpand)
    forestText { autoExpand, color := false } f = String.join (shown.map (·.text autoExpand)) ∧
    f.projects.toList.Pairwise (fun e e' => e.1 < e'.1) ∧
    (∀ p ∈ f.projects.values, p.modules.toList.Pairwise fun e e' =>
      e.1.toUTF8.data.toList < e'.1.toUTF8.data.toList) ∧
    (autoExpand = false → shown = Entry.ofForest f ∧ ∀ e ∈ shown, e.count? autoExpand = none) ∧
    (∀ p name m q, .header p name m q ∈ Entry.ofForest f →
      q.header.closesCycle = true ∨ q.header.isMatched = true → .header p name m q ∈ shown) ∧
    ∀ p ∈ f.projects.values, autoExpand = false ∨ p.hasCycle = true ∨ p.hasMatch = true →
      let lines := (Entry.ofProject p).filter (·.isVisible autoExpand)
      lines.countP (·.isHeader) + (lines.map fun e => (e.count? autoExpand).getD 0).sum
        = (p.modules.values.map (·.size)).sum := by
  intro f shown
  have hf : f.IsReachable rules := Forest.isReachable_performAll rules steps
  refine ⟨forestText_eq autoExpand f, ?_, fun p _ => ?_, ?_, ?_, fun p hp hopen => ?_⟩
  · exact f.projects.sorted.imp fun hlt => compareOfLessAndEq_eq_lt.1 hlt
  · exact p.modules.sorted.imp fun hlt => toUTF8_lt_of_compare hlt
  · rintro rfl
    refine ⟨List.filter_eq_self.2 fun e _ => ?_, fun e _ => count?_of_opened rfl⟩
    cases e <;> rfl
  · intro p name m q hq hmarked
    exact List.mem_filter.2 ⟨hq, hf.isVisible_of_marked autoExpand hq hmarked⟩
  · have hp : (!autoExpand || p.leads) = true := by
      rcases hopen with rfl | hcycle | hmatch
      · rfl
      · rw [Project.leads, hcycle, Bool.true_or, Bool.or_true]
      · rw [Project.leads, hmatch, Bool.or_true, Bool.or_true]
    exact (tally_ofProject hp).trans (SortedMap.sum_values p.modules Module.size).symm

/-- A header leads to the match below it and is opened; one beside it, a module and a
project lead nowhere and are folded. The first project has five headers: three have a
line, and two are counted. -/
theorem forestText_exact_folded :
    let rules : ForestRules := { policy := .caseInsensitive, query := "b.h" }
    let steps : List Forest.Step :=
      [.project 1 "demo", .module 1 "main.cpp", .note 1 "main.cpp" 0 "a.h",
        .note 1 "main.cpp" 1 "b.h", .note 1 "main.cpp" 0 "c.h", .note 1 "main.cpp" 1 "d.h",
        .module 1 "util.cpp", .note 1 "util.cpp" 0 "e.h", .project 2 "lib",
        .module 2 "lib.cpp", .note 2 "lib.cpp" 0 "f.h"]
    let f := ((Forest.empty rules).performAll steps).1
    let shown := (Entry.ofForest f).filter (·.isVisible true)
    String.join (shown.map (·.text true)) =
      "demo\n  main.cpp\n    a.h\n      b.h [match]\n    c.h (+1)\n  util.cpp (+1)\nlib (+1)\n" ∧
      forestText { autoExpand := true, color := false } f
        = String.join (shown.map (·.text true)) ∧
      (∃ p name m q, .header p name m q ∈ shown ∧ q.header.isMatched = true) ∧
      ∃ p ∈ f.projects.values,
        let lines := (Entry.ofProject p).filter (·.isVisible true)
        lines.countP (·.isHeader) + (lines.map fun e => (e.count? true).getD 0).sum = 5 := by
  intro rules steps f shown
  obtain ⟨htext, -, -, -, hmarked, hsum⟩ := forestText_exact rules steps true
  refine ⟨by decide +kernel, htext, ?_, ?_⟩
  · have hmatch : (f.projects.values.any fun p => p.modules.toList.any fun e =>
        e.2.places.any (·.header.isMatched)) = true := by decide +kernel
    obtain ⟨p, hp, hmatch⟩ := List.any_eq_true.1 hmatch
    obtain ⟨⟨name, m⟩, hm, hmatch⟩ := List.any_eq_true.1 hmatch
    obtain ⟨q, hq, hmatched⟩ := List.any_eq_true.1 hmatch
    have hentry := header_mem_ofForest_iff.2 ⟨hp, hm, hq⟩
    exact ⟨p, name, m, q, hmarked p name m q hentry (.inr hmatched), hmatched⟩
  · have hopen : (f.projects.values.any fun p =>
        p.hasMatch && (p.modules.values.map (·.size)).sum == 5) = true := by decide +kernel
    obtain ⟨p, hp, hopen⟩ := List.any_eq_true.1 hopen
    obtain ⟨hmatch, hfive⟩ := Bool.and_eq_true_iff.1 hopen
    exact ⟨p, hp, (hsum p hp (.inr (.inr hmatch))).trans (beq_iff_eq.1 hfive)⟩

end View

end IncludeForest
