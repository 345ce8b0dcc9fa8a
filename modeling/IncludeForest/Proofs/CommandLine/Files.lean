import IncludeForest.FileTree

/-!
# What is written is what is found

A path is looked up by going from directory to directory, down and up again, and a file
that is written may make a difference on the way. It makes none on the way to itself: its
place is no directory (`hasDirectory_of_isAt`), so the directories that led to it are still
there and still let through, and none of them is the place itself. So the path that a file
is written to is the path that it is found under (`content?_write`), whatever else the tree
holds, and wherever the path leads from.
-/

namespace IncludeForest.FileTree

variable {tree tree' : FileTree} {place target : List String} {bytes : List UInt8}
  {closed : Bool} {node : Node}

/-! ## One more file -/

/-- The files after one has been put where no directory is. -/
theorem files_put (h : tree.hasDirectory target = false) :
    (tree.put target bytes).files
      = (target, { bytes, access := ((tree.fileAt? target).map (·.access)).getD {} }) ::
          tree.files.filter fun file => !file.1.isPrefixOf target := by
  rw [put, dif_neg (Bool.eq_false_iff.1 h)]

@[simp] theorem directories_put : (tree.put target bytes).directories = tree.directories := by
  unfold put
  split <;> rfl

@[simp] theorem workingDirectory_put :
    (tree.put target bytes).workingDirectory = tree.workingDirectory := by
  unfold put
  split <;> rfl

@[simp] theorem standing_put : (tree.put target bytes).standing = tree.standing := by
  rw [standing, workingDirectory_put, directories_put, standing]

@[simp] theorem accessOf_put : (tree.put target bytes).accessOf place = tree.accessOf place := by
  rw [accessOf, directories_put, accessOf]

/-- What has been put at a place is there. -/
theorem exists_fileAt?_put (bytes : List UInt8) (h : tree.hasDirectory target = false) :
    ∃ file, (tree.put target bytes).fileAt? target = some file ∧ file.bytes = bytes := by
  refine ⟨{ bytes, access := ((tree.fileAt? target).map (·.access)).getD {} }, ?_, rfl⟩
  rw [fileAt?, files_put h, List.find?_cons_of_pos (by exact BEq.rfl)]
  rfl

/-- Where no file was there is none, but at the place itself. -/
theorem fileAt?_put_eq_none (h : tree.hasDirectory target = false)
    (hnone : tree.fileAt? place = none) (hne : place ≠ target) :
    (tree.put target bytes).fileAt? place = none := by
  rw [fileAt?, Option.map_eq_none_iff, List.find?_eq_none] at hnone ⊢
  rw [files_put h]
  intro file hfile
  obtain rfl | hfile := List.mem_cons.1 hfile
  · simpa using hne.symm
  · exact hnone file (List.mem_filter.1 hfile).1

/-- **The directories that were there are there.** -/
theorem hasDirectory_put (h : tree.hasDirectory target = false)
    (hplace : tree.hasDirectory place = true) :
    (tree.put target bytes).hasDirectory place = true := by
  rw [hasDirectory_iff] at hplace ⊢
  rw [standing_put, files_put h]
  refine hplace.imp_right ?_
  rintro ⟨file, hfile, hbelow, hne⟩
  by_cases hway : file.1 <+: target
  · -- a file that has made room was below the directory, and so is the place
    refine ⟨_, List.mem_cons_self, hbelow.trans hway, ?_⟩
    rintro rfl
    exact hne (hbelow.eq_of_length_le hway.length_le).symm
  · have hkept : file ∈ tree.files.filter fun file => !file.1.isPrefixOf target :=
      List.mem_filter.2 ⟨hfile, by simpa [← List.isPrefixOf_iff_prefix] using hway⟩
    exact ⟨file, List.mem_cons_of_mem _ hkept, hbelow, hne⟩

/-! ## The way to a file -/

/-- **A path to the file at a place**, or to where there could be one. -/
def Node.IsAt (target : List String) (closed : Bool) (node : Node) : Prop :=
  (∃ file, node = .file target file closed) ∨ node = .free target closed

theorem not_isAt_directory : ¬ Node.directory.IsAt target closed := by
  rintro (⟨_, h⟩ | h) <;> cases h

theorem isAt_file_iff {file : File} {closed' : Bool} :
    (Node.file place file closed').IsAt target closed ↔ place = target ∧ closed' = closed := by
  constructor
  · rintro (⟨_, h⟩ | h)
    · obtain ⟨rfl, -, rfl⟩ := Node.file.inj h
      exact ⟨rfl, rfl⟩
    · cases h
  · rintro ⟨rfl, rfl⟩
    exact .inl ⟨file, rfl⟩

theorem isAt_free_iff {closed' : Bool} :
    (Node.free place closed').IsAt target closed ↔ place = target ∧ closed' = closed := by
  constructor
  · rintro (⟨_, h⟩ | h)
    · cases h
    · exact Node.free.inj h
  · rintro ⟨rfl, rfl⟩
    exact .inr rfl

/-- **Where a file is or could be, there is no directory.** -/
theorem hasDirectory_of_isAt {parts : List String} (h : tree.walk place parts = .ok node)
    (hat : node.IsAt target closed) : tree.hasDirectory target = false := by
  fun_induction walk tree place parts with
  | case1 =>
    obtain rfl : Node.directory = node := Except.ok.inj h
    exact absurd hat not_isAt_directory
  | case2 place rest ih => exact ih h
  | case3 => cases h
  | case4 place rest _ _ ih => exact ih h
  | case5 place rest _ _ _ ih => exact ih h
  | case6 place part rest _ _ _ _ next isLast file hfile hlast =>
    cases h
    obtain ⟨rfl, -⟩ := isAt_file_iff.1 hat
    refine Bool.eq_false_iff.2 fun hdirectory => ?_
    rw [fileAt?_of_hasDirectory hdirectory] at hfile
    cases hfile
  | case7 => cases h
  | case8 place part rest _ _ _ _ next hnone hdirectory ih => exact ih h
  | case9 place part rest _ _ _ _ next isLast hnone hdirectory hlast =>
    cases h
    obtain ⟨rfl, -⟩ := isAt_free_iff.1 hat
    exact Bool.eq_false_iff.2 hdirectory
  | case10 => cases h
  | case11 => cases h

/-- The last name on the way to a file that has been put there leads to it. -/
theorem walk_put_self {part : String} {rest : List String} (bytes : List UInt8)
    (hpart : ¬ part = "") (hlet : (tree.accessOf place).reading = none) (hstay : ¬ part = ".")
    (hup : ¬ part = "..") (hlast : rest.all (· = "") = true)
    (h : tree.hasDirectory (place ++ [part]) = false) :
    ∃ file, (tree.put (place ++ [part]) bytes).walk place (part :: rest)
        = .ok (.file (place ++ [part]) file (!rest.isEmpty)) ∧
      file.bytes = bytes := by
  obtain ⟨file, hfile, hbytes⟩ := exists_fileAt?_put bytes h
  refine ⟨file, ?_, hbytes⟩
  rw [walk, if_neg hpart, accessOf_put, hlet]
  dsimp only
  rw [if_neg hstay, if_neg hup, hfile]
  exact if_pos hlast

/-- **The way to a file is the same when it has been written**, and there it is. -/
theorem walk_put {parts : List String} (bytes : List UInt8)
    (h : tree.walk place parts = .ok node) (hat : node.IsAt target closed) :
    ∃ file, (tree.put target bytes).walk place parts = .ok (.file target file closed) ∧
      file.bytes = bytes := by
  have htarget := hasDirectory_of_isAt h hat
  fun_induction walk tree place parts with
  | case1 =>
    obtain rfl : Node.directory = node := Except.ok.inj h
    exact absurd hat not_isAt_directory
  | case2 place rest ih =>
    rw [walk, if_pos rfl]
    exact ih h
  | case3 => cases h
  | case4 place rest hlet hpart ih =>
    rw [walk, if_neg hpart, accessOf_put, hlet]
    dsimp only
    rw [if_pos rfl]
    exact ih h
  | case5 place rest hlet hpart hstay ih =>
    rw [walk, if_neg hpart, accessOf_put, hlet]
    dsimp only
    rw [if_neg hstay, if_pos rfl]
    exact ih h
  | case6 place part rest hpart hlet hstay hup next isLast file hfile hlast =>
    cases h
    obtain ⟨rfl, rfl⟩ := isAt_file_iff.1 hat
    exact walk_put_self bytes hpart hlet hstay hup hlast htarget
  | case7 => cases h
  | case8 place part rest hpart hlet hstay hup next hnone hdirectory ih =>
    -- a directory on the way is not the place that is written to
    have hne : next ≠ target := by
      rintro rfl
      exact Bool.eq_false_iff.1 htarget hdirectory
    rw [walk, if_neg hpart, accessOf_put, hlet]
    dsimp only
    rw [if_neg hstay, if_neg hup, fileAt?_put_eq_none htarget hnone hne]
    dsimp only
    rw [if_pos (hasDirectory_put htarget hdirectory)]
    exact ih h
  | case9 place part rest hpart hlet hstay hup next isLast hnone hdirectory hlast =>
    cases h
    obtain ⟨rfl, rfl⟩ := isAt_free_iff.1 hat
    exact walk_put_self bytes hpart hlet hstay hup hlast htarget
  | case10 => cases h
  | case11 => cases h

/-- A path leads to the file that has been written where it leads to. -/
theorem find_put {path : String} (bytes : List UInt8) (h : tree.find path = .ok node)
    (hat : node.IsAt target closed) :
    ∃ file, (tree.put target bytes).find path = .ok (.file target file closed) ∧
      file.bytes = bytes := by
  unfold find origin at h ⊢
  rw [workingDirectory_put]
  split at h
  · cases h
  · next hshort =>
    rw [if_neg hshort]
    split at h
    · cases h
    · next hempty =>
      rw [if_neg hempty]
      exact walk_put bytes h hat

theorem unlessRefused_eq_ok {α : Type} {refusal : Option String} {a b : α}
    (h : unlessRefused refusal a = .ok b) : b = a := by
  cases refusal with
  | some text => cases h
  | none => exact (Except.ok.inj h).symm

/-- What can be written is written where the path leads to, and no slash follows. -/
theorem exists_isAt_of_write {path : String} (h : tree.write path bytes = .ok tree') :
    ∃ node target, tree.find path = .ok node ∧ node.IsAt target false ∧
      tree' = tree.put target bytes := by
  unfold write at h
  split at h
  · next place file closed hfind =>
    cases closed with
    | true => cases h
    | false => exact ⟨_, place, hfind, isAt_file_iff.2 ⟨rfl, rfl⟩, unlessRefused_eq_ok h⟩
  · cases h
  · next place closed hfind =>
    cases closed with
    | true => cases h
    | false =>
      rw [if_neg Bool.false_ne_true] at h
      split at h
      · cases h
      · exact ⟨_, place, hfind, isAt_free_iff.2 ⟨rfl, rfl⟩, unlessRefused_eq_ok h⟩
  · cases h

/-- **What has been written to a path is what the file holds that it leads to.** -/
theorem content?_write {path : String} (h : tree.write path bytes = .ok tree') :
    tree'.content? path = some bytes := by
  obtain ⟨node, target, hfind, hat, rfl⟩ := exists_isAt_of_write h
  obtain ⟨file, hfile, hbytes⟩ := find_put bytes hfind hat
  rw [content?, hfile, ← hbytes]

end IncludeForest.FileTree
