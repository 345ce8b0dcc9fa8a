/-!
# Sorted maps

Projects are kept by number and modules by name, and whatever is made of them
– a rendered tree, an export, a report – lists them in that order. A
**sorted map** is the list of its entries, each key once, in increasing order.
The order is part of the type, so two maps that answer every question alike
are equal (`ext_get?`), and a walk through a map needs no sorting.

Keys are compared by `compare`; the operations need that it is an order
(`Std.TransOrd`) in which only equal keys are equivalent (`Std.LawfulEqOrd`).
A key finds exactly the value that stands beside it in the list
(`get?_eq_some_iff`), and `get?_insert`, `get?_map` and `get?_filter` say what
each operation does to what a key finds.
-/

namespace IncludeForest

/-- **A map as the sorted list of its entries.** -/
structure SortedMap (κ α : Type) [Ord κ] where
  /-- The entries, by increasing key. -/
  toList : List (κ × α)
  /-- Every key is less than those behind it. -/
  sorted : toList.Pairwise fun a b => compare a.1 b.1 = .lt

namespace SortedMap

variable {κ α β : Type} [Ord κ]

/-- The map without entries. -/
def empty : SortedMap κ α :=
  ⟨[], .nil⟩

instance : Inhabited (SortedMap κ α) :=
  ⟨empty⟩

/-- The entry list decides equality: the order of the entries is a proof. -/
@[ext] theorem ext {m n : SortedMap κ α} (h : m.toList = n.toList) : m = n := by
  cases m; cases n; simp_all

instance [DecidableEq κ] [DecidableEq α] : DecidableEq (SortedMap κ α) := fun m n =>
  decidable_of_iff (m.toList = n.toList) ⟨ext, congrArg toList⟩

/-- How many entries the map has. -/
def size (m : SortedMap κ α) : Nat :=
  m.toList.length

/-- Whether the map has no entry. -/
def isEmpty (m : SortedMap κ α) : Bool :=
  m.toList.isEmpty

/-- The values, by increasing key. -/
def values (m : SortedMap κ α) : List α :=
  m.toList.map (·.2)

/-! ## Looking up -/

/-- What a sorted list of entries holds for a key. -/
def find? (k : κ) : List (κ × α) → Option α
  | [] => none
  | (k', a) :: rest =>
    match compare k k' with
    | .lt => none
    | .eq => some a
    | .gt => find? k rest

/-- **What the map holds for a key.** -/
def get? (m : SortedMap κ α) (k : κ) : Option α :=
  find? k m.toList

/-- Whether the map has an entry for the key. -/
def contains (m : SortedMap κ α) (k : κ) : Bool :=
  (m.get? k).isSome

/-! ## Inserting -/

/-- A sorted list of entries with one for `k`, in place of any it had. -/
def insertEntry (k : κ) (a : α) : List (κ × α) → List (κ × α)
  | [] => [(k, a)]
  | (k', a') :: rest =>
    match compare k k' with
    | .lt => (k, a) :: (k', a') :: rest
    | .eq => (k, a) :: rest
    | .gt => (k', a') :: insertEntry k a rest

theorem mem_insertEntry {k : κ} {a : α} {entries : List (κ × α)} {e : κ × α}
    (h : e ∈ insertEntry k a entries) : e = (k, a) ∨ e ∈ entries := by
  fun_induction insertEntry k a entries <;> grind

section

variable [Std.TransOrd κ] [Std.LawfulEqOrd κ]

theorem insertEntry_sorted {k : κ} {a : α} {entries : List (κ × α)}
    (h : entries.Pairwise fun a b => compare a.1 b.1 = .lt) :
    (insertEntry k a entries).Pairwise fun a b => compare a.1 b.1 = .lt := by
  fun_induction insertEntry k a entries with
  | case1 => simp
  | case2 k' a' rest hlt =>
    refine List.pairwise_cons.2 ⟨fun e he => ?_, h⟩
    rcases List.mem_cons.1 he with rfl | he
    · exact hlt
    · exact Std.TransCmp.lt_trans hlt ((List.pairwise_cons.1 h).1 e he)
  | case3 k' a' rest heq =>
    obtain rfl := Std.LawfulEqCmp.eq_of_compare heq
    exact List.pairwise_cons.2 ⟨(List.pairwise_cons.1 h).1, (List.pairwise_cons.1 h).2⟩
  | case4 k' a' rest hgt ih =>
    have h' := List.pairwise_cons.1 h
    refine List.pairwise_cons.2 ⟨fun e he => ?_, ih h'.2⟩
    rcases mem_insertEntry he with rfl | he
    · exact Std.OrientedCmp.lt_of_gt hgt
    · exact h'.1 e he

/-- **The map with an entry for `k`**, in place of any it had. -/
def insert (m : SortedMap κ α) (k : κ) (a : α) : SortedMap κ α :=
  ⟨insertEntry k a m.toList, insertEntry_sorted m.sorted⟩

end

/-! ## All values at once -/

/-- The map with every value replaced by what `f` makes of it. -/
def map (m : SortedMap κ α) (f : α → β) : SortedMap κ β :=
  ⟨m.toList.map fun e => (e.1, f e.2), List.pairwise_map.2 m.sorted⟩

/-- The map without the entries whose values `keep` refuses. -/
def filter (m : SortedMap κ α) (keep : α → Bool) : SortedMap κ α :=
  ⟨m.toList.filter fun e => keep e.2, m.sorted.filter _⟩

@[simp] theorem size_map (m : SortedMap κ α) (f : α → β) : (m.map f).size = m.size :=
  List.length_map _

@[simp] theorem isEmpty_map (m : SortedMap κ α) (f : α → β) : (m.map f).isEmpty = m.isEmpty :=
  List.isEmpty_map

theorem values_map (m : SortedMap κ α) (f : α → β) : (m.map f).values = m.values.map f := by
  unfold values map
  rw [List.map_map, List.map_map]
  rfl

theorem map_map (m : SortedMap κ α) (f : α → β) (g : β → α) :
    (m.map f).map g = m.map fun a => g (f a) :=
  ext (List.map_map)

/-- What is kept of replaced values is what is kept, replaced. -/
theorem filter_map (m : SortedMap κ α) (f : α → β) (keep : β → Bool) :
    (m.map f).filter keep = (m.filter fun a => keep (f a)).map f :=
  ext (List.filter_map)

/-! ## What a key finds -/

@[simp] theorem toList_empty : (empty : SortedMap κ α).toList = [] := rfl

@[simp] theorem get?_empty (k : κ) : (empty : SortedMap κ α).get? k = none := rfl

theorem find?_map (f : α → β) (k : κ) (entries : List (κ × α)) :
    find? k (entries.map fun e => (e.1, f e.2)) = (find? k entries).map f := by
  fun_induction find? k entries <;> simp_all [find?]

@[simp] theorem get?_map (m : SortedMap κ α) (f : α → β) (k : κ) :
    (m.map f).get? k = (m.get? k).map f :=
  find?_map f k m.toList

section

variable [Std.TransOrd κ] [Std.LawfulEqOrd κ]

theorem find?_eq_some_iff {entries : List (κ × α)} {k : κ} {a : α}
    (h : entries.Pairwise fun a b => compare a.1 b.1 = .lt) :
    find? k entries = some a ↔ (k, a) ∈ entries := by
  fun_induction find? k entries with
  | case1 => simp
  | case2 k' a' rest hlt =>
    refine ⟨nofun, fun hmem => ?_⟩
    rcases List.mem_cons.1 hmem with he | hmem
    · obtain ⟨rfl, rfl⟩ := Prod.mk.inj he
      simp [Std.ReflCmp.compare_self] at hlt
    · have hlt' := (List.pairwise_cons.1 h).1 _ hmem
      have := Std.TransCmp.lt_trans hlt hlt'
      simp [Std.ReflCmp.compare_self] at this
  | case3 k' a' rest heq =>
    obtain rfl := Std.LawfulEqCmp.eq_of_compare heq
    refine ⟨fun ha => by simp_all, fun hmem => ?_⟩
    rcases List.mem_cons.1 hmem with he | hmem
    · simp_all
    · have := (List.pairwise_cons.1 h).1 _ hmem
      simp [Std.ReflCmp.compare_self] at this
  | case4 k' a' rest hgt ih =>
    rw [ih (List.pairwise_cons.1 h).2, List.mem_cons]
    refine ⟨.inr, fun hmem => hmem.resolve_left fun he => ?_⟩
    obtain ⟨rfl, rfl⟩ := Prod.mk.inj he
    simp [Std.ReflCmp.compare_self] at hgt

/-- **A key finds the value that stands beside it**, and no other. -/
theorem get?_eq_some_iff (m : SortedMap κ α) {k : κ} {a : α} :
    m.get? k = some a ↔ (k, a) ∈ m.toList :=
  find?_eq_some_iff m.sorted

/-- The values are what the keys find. -/
theorem mem_values_iff (m : SortedMap κ α) {a : α} : a ∈ m.values ↔ ∃ k, m.get? k = some a := by
  unfold values
  rw [List.mem_map]
  constructor
  · rintro ⟨⟨k, _⟩, he, rfl⟩
    exact ⟨k, m.get?_eq_some_iff.2 he⟩
  · rintro ⟨k, hk⟩
    exact ⟨(k, a), m.get?_eq_some_iff.1 hk, rfl⟩

omit [Std.TransOrd κ] in
theorem find?_insertEntry_self (k : κ) (a : α) (entries : List (κ × α)) :
    find? k (insertEntry k a entries) = some a := by
  fun_induction insertEntry k a entries <;> simp_all [find?, Std.ReflCmp.compare_self]

theorem find?_insertEntry_ne {k k' : κ} (h : k' ≠ k) (a : α) (entries : List (κ × α)) :
    find? k' (insertEntry k a entries) = find? k' entries := by
  have hne : compare k' k ≠ .eq := fun he => h (Std.LawfulEqCmp.eq_of_compare he)
  fun_induction insertEntry k a entries with
  | case1 => simp only [find?]; split <;> simp_all
  | case2 k₁ a₁ rest hlt =>
    rw [find?]
    split
    · rename_i hlt'
      have := Std.TransCmp.lt_trans hlt' hlt
      simp [find?, this]
    · contradiction
    · rfl
  | case3 k₁ a₁ rest heq =>
    obtain rfl := Std.LawfulEqCmp.eq_of_compare heq
    rw [find?, find?]
    split <;> simp_all
  | case4 k₁ a₁ rest hgt ih =>
    rw [find?, find?]
    split <;> simp_all

@[simp] theorem get?_insert_self (m : SortedMap κ α) (k : κ) (a : α) :
    (m.insert k a).get? k = some a :=
  find?_insertEntry_self k a m.toList

theorem get?_insert_ne (m : SortedMap κ α) {k k' : κ} (h : k' ≠ k) (a : α) :
    (m.insert k a).get? k' = m.get? k' :=
  find?_insertEntry_ne h a m.toList

/-- What a key finds after an insertion, whichever key was inserted. -/
theorem get?_insert [DecidableEq κ] (m : SortedMap κ α) (k k' : κ) (a : α) :
    (m.insert k a).get? k' = if k' = k then some a else m.get? k' := by
  by_cases h : k' = k
  · subst h
    rw [get?_insert_self, if_pos rfl]
  · rw [get?_insert_ne m h, if_neg h]

theorem get?_filter (m : SortedMap κ α) (keep : α → Bool) (k : κ) :
    (m.filter keep).get? k = (m.get? k).filter keep := by
  refine Option.ext fun a => ?_
  rw [get?_eq_some_iff, Option.filter_eq_some_iff, get?_eq_some_iff]
  simp [filter]

/-- Sorted lists with the same members are the same. -/
theorem eq_of_mem_iff {entries others : List (κ × α)}
    (h : entries.Pairwise fun a b => compare a.1 b.1 = .lt)
    (h' : others.Pairwise fun a b => compare a.1 b.1 = .lt)
    (hmem : ∀ e, e ∈ entries ↔ e ∈ others) : entries = others := by
  have antisymm (a b : κ × α) (_ : a ∈ entries) (_ : b ∈ others)
      (hab : compare a.1 b.1 = .lt) (hba : compare b.1 a.1 = .lt) : a = b := by
    have := Std.TransCmp.lt_trans hab hba
    simp [Std.ReflCmp.compare_self] at this
  have nodup {l : List (κ × α)} (h : l.Pairwise fun a b => compare a.1 b.1 = .lt) : l.Nodup :=
    h.imp fun hlt he => by simp [he, Std.ReflCmp.compare_self] at hlt
  exact List.Perm.eq_of_pairwise antisymm h h'
    ((List.perm_ext_iff_of_nodup (nodup h) (nodup h')).2 hmem)

/-- **Maps that answer every question alike are equal.** -/
theorem ext_get? {m n : SortedMap κ α} (h : ∀ k, m.get? k = n.get? k) : m = n :=
  ext (eq_of_mem_iff m.sorted n.sorted fun (k, a) => by
    rw [← get?_eq_some_iff, ← get?_eq_some_iff, h])

/-- A value can be replaced before it is inserted or after. -/
theorem map_insert (m : SortedMap κ α) (k : κ) (a : α) (f : α → β) :
    (m.insert k a).map f = (m.map f).insert k (f a) := by
  classical
  refine ext_get? fun j => ?_
  rw [get?_map, get?_insert, get?_insert, get?_map]
  by_cases hj : j = k
  · rw [if_pos hj, if_pos hj, Option.map_some]
  · rw [if_neg hj, if_neg hj]

/-- Insertions at different keys can change places. -/
theorem insert_comm (m : SortedMap κ α) {k k' : κ} (h : k ≠ k') (a a' : α) :
    (m.insert k a).insert k' a' = (m.insert k' a').insert k a := by
  classical
  refine ext_get? fun j => ?_
  rw [get?_insert, get?_insert, get?_insert, get?_insert]
  by_cases hj : j = k
  · subst hj
    rw [if_neg h, if_pos rfl, if_pos rfl]
  · rw [if_neg hj, if_neg hj]

/-- Of two insertions at one key the later counts. -/
theorem insert_insert (m : SortedMap κ α) (k : κ) (a a' : α) :
    (m.insert k a).insert k a' = m.insert k a' := by
  classical
  refine ext_get? fun j => ?_
  rw [get?_insert, get?_insert, get?_insert]
  by_cases hj : j = k
  · rw [if_pos hj, if_pos hj]
  · rw [if_neg hj, if_neg hj, if_neg hj]

/-- To insert what is there changes nothing. -/
theorem insert_eq_self (m : SortedMap κ α) {k : κ} {a : α} (h : m.get? k = some a) :
    m.insert k a = m := by
  classical
  refine ext_get? fun j => ?_
  rw [get?_insert]
  by_cases hj : j = k
  · rw [if_pos hj, hj, h]
  · rw [if_neg hj]

end

end SortedMap

end IncludeForest
