import Mathlib.Tactic.Lemma
import Marktex.File.Tree

/-!
# Writing files

What a tree holds after a file was written: `FileTree.write_cases` says that the bytes are found at the
path again, and that nothing else has changed; `FileTree.write_changes` that the file counts as changed. The
names that a step along a path looks up do not depend on the tree (`FileTree.step_lookUp`), so a path
leads to the same names before and after.
-/

namespace Marktex

namespace FileTree

variable {t after : FileTree} {names : List Text} {entity : Entity} {path : Path} {bytes : List UInt8}

/-- Of entries from which those of a name are taken away, the others are found as before. -/
lemma find?_put (entries : List (List Text × Entity)) (other : List Text) :
    (entries.filter (fun entry => entry.1 ≠ names) ++ [(names, entity)]).find?
        (fun entry => entry.1 = other) =
      if other = names then some (names, entity) else entries.find? fun entry => entry.1 = other := by
  induction entries with
  | nil =>
    by_cases same : other = names
    · simp [same]
    · simp [same, Ne.symm same]
  | cons entry entries ih =>
    by_cases here : entry.1 = names
    -- an entry under the names is taken away, and it is not looked for under other names
    · rw [List.filter_cons_of_neg (by simpa using here), ih]
      by_cases same : other = names
      · rw [if_pos same, if_pos same]
      · rw [if_neg same, if_neg same, List.find?_cons_of_neg (by simpa [here] using Ne.symm same)]
    · rw [List.filter_cons_of_pos (by simpa using here), List.cons_append]
      by_cases found : entry.1 = other
      · have apart : other ≠ names := found ▸ here
        rw [if_neg apart, List.find?_cons_of_pos (by simpa using found),
          List.find?_cons_of_pos (by simpa using found)]
      · rw [List.find?_cons_of_neg (by simpa using found), ih,
          List.find?_cons_of_neg (by simpa using found)]

/-- An entity that is put under names is found there, and nothing else has changed. -/
lemma get?_put (free : isGiven names = false) (other : List Text) :
    (t.put names entity).get? other = if other = names then some entity else t.get? other := by
  unfold get? put
  rw [find?_put]
  by_cases same : other = names
  · simp [same, free]
  · simp [same]

/-- Names lead to what was put under them, and other names lead where they did. -/
lemma lookUp_put (free : isGiven names = false) (other : List Text) :
    (t.put names entity).lookUp other = if other = names then .found names entity else t.lookUp other := by
  unfold lookUp
  rw [get?_put free]
  by_cases same : other = names
  · simp [same]
  · simp [same]

/-- Whether names can be written to: they lead to a file, or to nothing in a directory that exists. -/
inductive Writable (t : FileTree) (names : List Text) : Location → Prop where
  | file {old stamp} :
    t.get? names = some (.file old stamp) →
    Writable t names (.found names (.file old stamp))
  | vacant :
    t.get? names = none →
    Writable t names (.vacant names)

/-- Names that can be written to are not those of a directory that exists anyway. -/
lemma Writable.free {location : Location} (h : t.Writable names location) : isGiven names = false := by
  rw [← Bool.not_eq_true]
  intro given
  cases h with
  | file found => simp [get?, given] at found
  | vacant found => simp [get?, given] at found

/-- What is put under names that can be written to does not change what other names lead to, directories
above all. -/
lemma Writable.get?_put_directory {location : Location} {other : List Text} {stamp : Stamp}
    (h : t.Writable names location) (directory : t.get? other = some (.directory stamp)) :
    (t.put names entity).get? other = t.get? other := by
  rw [get?_put h.free, if_neg]
  rintro rfl
  cases h with
  | file found => cases found.symm.trans directory
  | vacant found => cases found.symm.trans directory

/-- Names that lead to where a file can be written are the names of that file. -/
lemma Writable.eq_of_lookUp {other : List Text} (h : t.Writable names (t.lookUp other)) :
    other = names := by
  generalize looked : t.lookUp other = location at h
  unfold lookUp at looked
  split at looked
  · cases looked
    cases h
    rfl
  · cases looked
    cases h
    rfl

/-- A step is made from a directory, and what it looks up does not depend on the rest of the tree. -/
lemma step_lookUp {here : List Text} {name : Text} {next : Location}
    (h : t.step (t.lookUp here) name = .ok next) :
    ∃ stamp there, t.get? here = some (.directory stamp) ∧ next = t.lookUp there ∧
      ∀ u : FileTree, u.get? here = t.get? here →
        u.step (u.lookUp here) name = .ok (u.lookUp there) := by
  cases found : t.get? here with
  | none =>
    rw [lookUp, found] at h
    cases h
  | some entity =>
    cases entity with
    | file =>
      rw [lookUp, found] at h
      cases h
    | directory stamp =>
      have looked (u : FileTree) (same : u.get? here = some (.directory stamp)) :
          u.lookUp here = .found here (.directory stamp) := by
        rw [lookUp, same]
      rw [looked t found] at h
      unfold step at h
      dsimp only at h
      split at h
      case isTrue up =>
        cases h
        refine ⟨stamp, above here, rfl, rfl, fun u same => ?_⟩
        rw [looked u same]
        exact if_pos up
      case isFalse down =>
        split at h
        case isTrue => cases h
        case isFalse short =>
          cases h
          refine ⟨stamp, here ++ [name], rfl, rfl, fun u same => ?_⟩
          rw [looked u same]
          exact (if_neg down).trans (if_neg short)

/-- Where a path leads is looked up under some names. -/
lemma exists_lookUp {here path : List Text} {location : Location}
    (h : path.foldlM t.step (t.lookUp here) = .ok location) : ∃ there, location = t.lookUp there := by
  induction path generalizing here with
  | nil =>
    cases h
    exact ⟨here, rfl⟩
  | cons name path ih =>
    rw [List.foldlM_cons] at h
    cases one : t.step (t.lookUp here) name with
    | error e =>
      rw [one] at h
      cases h
    | ok next =>
      obtain ⟨-, there, -, rfl, -⟩ := step_lookUp one
      rw [one] at h
      exact ih h

/-- Once something is put where a path leads, the path leads to it. -/
lemma follow_put {here path : List Text} {location : Location} (target : t.Writable names location)
    (h : path.foldlM t.step (t.lookUp here) = .ok location) :
    path.foldlM (t.put names entity).step ((t.put names entity).lookUp here) =
      .ok (.found names entity) := by
  -- on the way there are only directories, which are the same in both trees
  induction path generalizing here with
  | nil =>
    cases h
    obtain rfl := target.eq_of_lookUp
    rw [lookUp_put target.free, if_pos rfl]
    rfl
  | cons name path ih =>
    rw [List.foldlM_cons] at h ⊢
    cases one : t.step (t.lookUp here) name with
    | error e =>
      rw [one] at h
      cases h
    | ok next =>
      obtain ⟨stamp, there, directory, rfl, same⟩ := step_lookUp one
      rw [one] at h
      rw [same _ (target.get?_put_directory directory)]
      exact ih h

/-- Where a path leads to what can be written to, it leads to what is put there. -/
lemma locate_put {location : Location} (target : t.Writable names location)
    (h : t.locate path = .ok location) :
    (t.put names entity).locate path = .ok (.found names entity) := by
  unfold locate at h ⊢
  split at h
  case isTrue => cases h
  case isFalse short =>
    split at h
    case isTrue =>
      cases h
      cases target
    case isFalse other =>
      rw [if_neg short, if_neg other]
      exact follow_put target h

/-- A path leads to the null device, to a directory, or to what can be written to. -/
lemma locate_cases {location : Location} (h : t.locate path = .ok location) :
    path = nullDevice ∧ location = .nullDevice ∨
    (∃ names stamp, location = .found names (.directory stamp)) ∨
    ∃ names, t.Writable names location := by
  unfold locate at h
  split at h
  case isTrue => cases h
  case isFalse =>
    split at h
    case isTrue device =>
      cases h
      exact .inl ⟨device, rfl⟩
    case isFalse =>
      obtain ⟨names, rfl⟩ := exists_lookUp h
      unfold lookUp
      cases found : t.get? names with
      | none => exact .inr (.inr ⟨names, .vacant found⟩)
      | some entity =>
        cases entity with
        | file => exact .inr (.inr ⟨names, .file found⟩)
        | directory stamp => exact .inr (.inl ⟨names, stamp, rfl⟩)

/-- A file is written to where its path leads, if a file can be written there. -/
lemma write_of_locate {location : Location} (target : t.Writable names location)
    (h : t.locate path = .ok location) :
    t.write path bytes = .ok (t.put names (.file bytes t.now)) := by
  unfold write
  rw [h]
  cases target <;> rfl

/-- After a path was written, either it is the null device, which keeps nothing, or a file at the path
holds the bytes and all else is as it was. -/
theorem write_cases (h : t.write path bytes = .ok after) :
    path = nullDevice ∧ after = t ∨
    ∃ names, after.read path = .ok bytes ∧
      ∀ other, after.get? other = if other = names then some (.file bytes t.now) else t.get? other := by
  cases located : t.locate path with
  | error e =>
    rw [write, located] at h
    cases h
  | ok location =>
    obtain ⟨device, rfl⟩ | ⟨names, stamp, rfl⟩ | ⟨names, target⟩ := locate_cases located
    · rw [write, located] at h
      cases h
      exact .inl ⟨device, rfl⟩
    · rw [write, located] at h
      cases h
    · rw [write_of_locate target located] at h
      cases h
      refine .inr ⟨names, ?_, get?_put target.free⟩
      rw [read, locate_put target located]

/-- Nothing in a tree was last changed now. -/
lemma stamp_ne_now (found : t.get? names = some entity) : entity.stamp ≠ t.now := by
  intro same
  have tick : entity.stamp.tick = t.now.tick := congrArg Stamp.tick same
  unfold get? at found
  split at found
  · cases found
    cases tick
  · obtain ⟨entry, held, rfl⟩ := Option.map_eq_some_iff.1 found
    have member : entry.2.stamp.tick ∈ t.entities.map fun entry => entry.2.stamp.tick :=
      List.mem_map_of_mem (List.mem_of_find?_eq_some held)
    have bound := List.le_max?_getD_of_mem (k := 0) member
    simp only [now, Stamp.tick] at tick bound
    omega

/-- A file that was written has changed, whenever it was changed before; the null device never does. -/
theorem write_changes (h : t.write path bytes = .ok after) (kept : path ≠ nullDevice) :
    ∃ stamp, after.stamp? path = some stamp ∧ t.stamp? path ≠ some stamp := by
  cases located : t.locate path with
  | error e =>
    rw [write, located] at h
    cases h
  | ok location =>
    obtain ⟨device, -⟩ | ⟨names, stamp, rfl⟩ | ⟨names, target⟩ := locate_cases located
    · exact absurd device kept
    · rw [write, located] at h
      cases h
    · rw [write_of_locate target located] at h
      cases h
      refine ⟨t.now, by rw [stamp?, locate_put target located]; rfl, ?_⟩
      rw [stamp?, located]
      cases target with
      | file found => exact fun same => stamp_ne_now found (Option.some.inj same)
      | vacant => nofun

end FileTree

end Marktex
