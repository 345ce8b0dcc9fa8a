import IncludeForest.Export
import IncludeForest.Proofs.Json.Grammar
import IncludeForest.Proofs.Json.Unambiguity

/-!
# What an export tells

An export leaves things out – offsets where nothing is matched, trees where
nothing is included, a common prefix where none is kept – and yet nothing is
lost: what is left out is left out in one case only, and no member behind it has
its name (`optional_member_inj`). So every document that the export of a forest is made of tells
what it was made of, from the members of a header up to the projects.

The figures and the cycles are in an export for the reader's convenience: they
are found out from the projects, and add nothing that tells forests apart. What
an export does tell of the rules of a forest is the needle, and no more. So two
forests are exported alike just if they were searched for the same and have the
same projects (`text_faithful`).
-/

namespace IncludeForest

namespace Export

/-! ## Members and entries -/

/-- Objects are compared member by member. -/
theorem members_inj {name name' : String} {value value' : Json}
    {rest rest' : List (String × Json)}
    (heq : (name, value) :: rest = (name', value') :: rest') :
    name = name' ∧ value = value' ∧ rest = rest' := by
  obtain ⟨hmember, hrest⟩ := List.cons.inj heq
  obtain ⟨hname, hvalue⟩ := Prod.mk.inj hmember
  exact ⟨hname, hvalue, hrest⟩

/-- **A member that can be left out** tells whether it is there, and its value if
it is – as long as no member behind it has the same name. -/
theorem optional_member_inj {name : String} {absent absent' : Bool} {value value' : Json}
    {rest rest' : List (String × Json)} (hrest : name ∉ rest.map (·.1))
    (hrest' : name ∉ rest'.map (·.1))
    (heq : (if absent then [] else [(name, value)]) ++ rest
      = (if absent' then [] else [(name, value')]) ++ rest') :
    absent = absent' ∧ (absent = false → value = value') ∧ rest = rest' := by
  cases absent with
  | true =>
    cases absent' with
    | true => exact ⟨rfl, nofun, heq⟩
    | false =>
      obtain rfl : rest = (name, value') :: rest' := heq
      exact absurd List.mem_cons_self hrest
  | false =>
    cases absent' with
    | true =>
      obtain rfl : (name, value) :: rest = rest' := heq
      exact absurd List.mem_cons_self hrest'
    | false =>
      obtain ⟨-, hvalue, hbehind⟩ := members_inj heq
      exact ⟨rfl, fun _ => hvalue, hbehind⟩

/-- Maps are told by what their entries are exported as, if each entry is. -/
theorem sortedMap_eq_of_map_eq {κ α β : Type} [Ord κ] {m n : SortedMap κ α} {write : κ × α → β}
    (hwrite : ∀ e e', write e = write e' → e = e') (heq : m.toList.map write = n.toList.map write) :
    m = n :=
  SortedMap.ext ((List.map_inj_right hwrite).1 heq)

/-! ## Headers and trees -/

/-- **What a header is exported as tells the header**, and where its members
end: the offsets are there just if the header is said to be matched. -/
theorem headerMembers_append_inj {h k : Header} {rest rest' : List (String × Json)}
    (heq : headerMembers h ++ rest = headerMembers k ++ rest') : h = k ∧ rest = rest' := by
  obtain ⟨shown, compared, contains, closes, below, hit⟩ := h
  obtain ⟨shown', compared', contains', closes', below', hit'⟩ := k
  unfold headerMembers Header.isMatched at heq
  cases hit with
  | none =>
    cases hit' with
    | none => simp_all
    | some hit' => simp at heq
  | some hit =>
    cases hit' with
    | none => simp at heq
    | some hit' =>
      obtain ⟨start, stop⟩ := hit
      obtain ⟨start', stop'⟩ := hit'
      simp_all

/-- Trees that are left out are none. -/
theorem trees_eq_of_children_eq {ts us : List IncludeTree}
    (heq : (if ts.isEmpty then [] else [("children", Json.array (trees ts))])
      = if us.isEmpty then [] else [("children", Json.array (trees us))]) :
    trees ts = trees us := by
  rw [← List.append_nil (if ts.isEmpty then _ else _),
    ← List.append_nil (if us.isEmpty then _ else _)] at heq
  obtain ⟨habsent, hvalue, -⟩ := optional_member_inj List.not_mem_nil List.not_mem_nil heq
  cases hts : ts.isEmpty with
  | true =>
    rw [hts] at habsent
    rw [List.isEmpty_iff.1 hts, List.isEmpty_iff.1 habsent.symm]
  | false => exact Json.array.inj (hvalue hts)

mutual

/-- What a tree is exported as tells the tree. -/
theorem tree_inj : (t u : IncludeTree) → tree t = tree u → t = u
  | .node h ts, .node k us, heq => by
    rw [tree, tree] at heq
    obtain ⟨rfl, hchildren⟩ := headerMembers_append_inj (Json.object.inj heq)
    rw [trees_inj ts us (trees_eq_of_children_eq hchildren)]

/-- **What trees are exported as tells the trees.** -/
theorem trees_inj : (ts us : List IncludeTree) → trees ts = trees us → ts = us
  | [], [], _ => rfl
  | [], u :: us, heq => by rw [trees, trees] at heq; cases heq
  | t :: ts, [], heq => by rw [trees, trees] at heq; cases heq
  | t :: ts, u :: us, heq => by
    rw [trees, trees] at heq
    obtain ⟨htree, htrees⟩ := List.cons.inj heq
    rw [tree_inj t u htree, trees_inj ts us htrees]

end

/-! ## Modules, projects and forests -/

/-- **What a module is exported as tells the module** and its name. -/
theorem module_inj {name name' : String} {m m' : Module}
    (heq : module name m = module name' m') : name = name' ∧ m = m' := by
  obtain ⟨roots, shared, hasCycle⟩ := m
  obtain ⟨roots', shared', hasCycle'⟩ := m'
  obtain ⟨-, hname, heq⟩ := members_inj (Json.object.inj heq)
  obtain ⟨-, hheaders, heq⟩ := members_inj heq
  obtain ⟨habsent, hshared, heq⟩ :=
    optional_member_inj (by simp) (by simp) heq
  obtain ⟨-, hhasCycle, -⟩ := members_inj heq
  obtain rfl : roots = roots' := trees_inj roots roots' (Json.array.inj hheaders)
  obtain rfl : shared = shared' := by
    -- A prefix that is left out is empty.
    cases hempty : shared.isEmpty with
    | true =>
      have hempty' : shared'.isEmpty = true := habsent ▸ hempty
      rw [String.isEmpty_iff.1 hempty, String.isEmpty_iff.1 hempty']
    | false => exact Json.string.inj (hshared hempty)
  obtain rfl : hasCycle = hasCycle' := Json.bool.inj hhasCycle
  exact ⟨Json.string.inj hname, rfl⟩

/-- **What a project is exported as tells the project** and its number. -/
theorem project_inj {id id' : StreamId} {p p' : Project}
    (heq : project id p = project id' p') : id = id' ∧ p = p' := by
  obtain ⟨name, modules⟩ := p
  obtain ⟨name', modules'⟩ := p'
  obtain ⟨-, hid, heq⟩ := members_inj (Json.object.inj heq)
  obtain ⟨-, hname, heq⟩ := members_inj heq
  obtain ⟨-, hmodules, -⟩ := members_inj heq
  obtain rfl : modules = modules' := by
    refine sortedMap_eq_of_map_eq (fun e e' hentry => ?_) (Json.object.inj hmodules)
    obtain ⟨hname, hmodule⟩ := module_inj (Prod.mk.inj hentry).2
    exact Prod.ext hname hmodule
  obtain rfl : name = name' := Json.string.inj hname
  exact ⟨UInt32.toNat_inj.1 (Json.number.inj hid), rfl⟩

/-- **What a forest is exported as tells the needle and the projects**, and
nothing else. -/
theorem document_eq_document_iff {f g : Forest} :
    document f = document g ↔ f.rules.needle = g.rules.needle ∧ f.projects = g.projects := by
  constructor
  · intro heq
    obtain ⟨-, -, heq⟩ := members_inj (Json.object.inj heq)
    obtain ⟨-, -, heq⟩ := members_inj heq
    obtain ⟨-, hsearch, heq⟩ := members_inj heq
    obtain ⟨-, -, heq⟩ := members_inj heq
    obtain ⟨-, -, heq⟩ := members_inj heq
    obtain ⟨-, hprojects, -⟩ := members_inj heq
    refine ⟨Json.string.inj hsearch, ?_⟩
    refine sortedMap_eq_of_map_eq (fun e e' hentry => ?_) (Json.array.inj hprojects)
    obtain ⟨hid, hproject⟩ := project_inj hentry
    exact Prod.ext hid hproject
  · rintro ⟨hneedle, hprojects⟩
    have hstats : Stats.ofForest f = Stats.ofForest g := by
      unfold Stats.ofForest
      rw [hprojects]
    have hcycles : Cycle.ofForest f = Cycle.ofForest g := by
      unfold Cycle.ofForest
      rw [hprojects]
    unfold document
    rw [hneedle, hstats, hcycles, hprojects]

/-- **An export loses nothing, and is a document.** Written to a sink that does
not fail, the whole text arrives, and with it the number of the projects. The
text is well formed. And two forests are exported as the same text just if they
were searched for the same and have the same projects, down to every header of
every module. -/
theorem text_faithful (f g : Forest) (path : String) :
    toSink f {} path = .ok (text f, f.projects.size) ∧
      Json.IsDocument (text f).toList ∧
      (text f = text g ↔ f.rules.needle = g.rules.needle ∧ f.projects = g.projects) := by
  refine ⟨rfl, Json.isDocument_pretty (document f) 0, ?_⟩
  unfold text
  rw [(Json.pretty_injective 0).eq_iff, document_eq_document_iff]

end Export

end IncludeForest
