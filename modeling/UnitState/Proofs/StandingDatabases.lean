import UnitState.Proofs.Places

/-!
# Where databases stand

A place of the engine is told by its key: no name on the way to it has a slash in it. Whatever is
done to the tree of files by itself, no database comes to stand where none stood before.
-/

set_option autoImplicit false

namespace UnitState

theorem List.not_mem_of_mem_split_on {Item : Type} [BEq Item] [LawfulBEq Item] {item : Item}
    {items part : List Item} (member : part ∈ items.splitOn item) : item ∉ part := by
  induction length : items.length using Nat.strongRecOn generalizing items with
  | ind count hypothesis =>
      by_cases divided : item ∈ items
      · obtain ⟨first, rest, rfl, without⟩ := List.eq_append_cons_of_mem divided
        rw [List.splitOn_append_cons_self] at member
        rw [List.length_append, List.length_cons] at length
        rcases List.mem_append.1 member with early | late
        · exact hypothesis first.length (by omega) early rfl
        · exact hypothesis rest.length (by omega) late rfl
      · rw [List.splitOn_eq_singleton divided, List.mem_singleton] at member
        rw [member]
        exact divided

namespace Files

/-! ## Proper places -/

def Proper (place : Place) : Prop := ∀ name ∈ place, name ≠ "" ∧ '/' ∉ name.toList

/-- Two proper places with the same key are the same place. -/
theorem Proper.eq_of_key {place other : Place} (proper : Proper place) (properOther : Proper other)
    (same : key place = key other) : place = other := by
  have unslashed : ∀ {place : Place}, Proper place →
      ∀ name ∈ place.map String.toList, '/' ∉ name := by
    rintro place proper _ member
    obtain ⟨name, listed, rfl⟩ := List.mem_map.1 member
    exact (proper name listed).2
  have nonempty : ∀ {place : Place}, Proper place → key place = "" → place = [] := by
    intro place proper blank
    cases place with
    | nil => rfl
    | cons name later =>
        have named := (proper name List.mem_cons_self).1
        cases later <;> simp [key, named] at blank
  have letters : List.intercalate ['/'] (place.map String.toList) =
      List.intercalate ['/'] (other.map String.toList) := by
    have texts := congrArg String.toList same
    rw [key, key, String.toList_intercalate, String.toList_intercalate] at texts
    exact texts
  by_cases root : place = []
  · subst root
    exact (nonempty properOther same.symm).symm
  · have otherNamed : other ≠ [] := by
      rintro rfl
      exact root (nonempty proper same)
    have split := congrArg (List.splitOn '/') letters
    rw [List.splitOn_intercalate '/' (unslashed proper) (by simpa using root),
      List.splitOn_intercalate '/' (unslashed properOther) (by simpa using otherNamed)] at split
    exact (List.map_inj_right fun _ _ => String.toList_inj.1).1 split

theorem names_proper (path : String) : Proper (Path.names path) := by
  intro name member
  obtain ⟨part, kept, rfl⟩ := List.mem_map.1 member
  obtain ⟨divided, nonempty⟩ := List.mem_filter.1 kept
  rw [String.toList_ofList]
  refine ⟨fun blank => ?_, List.not_mem_of_mem_split_on divided⟩
  have none : part = [] := by simpa using congrArg String.toList blank
  simp [none] at nonempty

theorem Proper.engine_place {files : Files} {names : List String} (proper : Proper names) :
    ∀ {start place : Place}, Proper start → files.enginePlace? start names = some place →
      Proper place := by
  induction names with
  | nil =>
      rintro start place starts ⟨⟩
      exact starts
  | cons name later hypothesis =>
      intro start place starts found
      obtain ⟨named, rest⟩ := List.forall_mem_cons.1 proper
      unfold enginePlace? at found
      split at found
      · exact hypothesis rest starts found
      · split at found
        · exact hypothesis rest (fun other member => starts other ((List.dropLast_sublist start).subset member))
            found
        · have deeper : Proper (start ++ [name]) :=
            List.forall_mem_append.2 ⟨starts, List.forall_mem_singleton.2 named⟩
          split at found
          · exact hypothesis rest deeper found
          · exact hypothesis rest deeper found
          · cases found

theorem proper_of_engine_locate {files : Files} {path : String} {place : Place}
    (located : files.engineLocate? path = some place) : Proper place := by
  unfold engineLocate? at located
  obtain ⟨found, led, rest⟩ := Option.bind_eq_some_iff.1 located
  dsimp only at rest
  split at rest
  · cases rest
  · cases rest
    refine (names_proper path).engine_place ?_ led
    unfold start
    split
    · exact List.forall_mem_nil _
    · exact List.forall_mem_singleton.2 ⟨by decide, by decide⟩

/-! ## Databases in the tree -/

/-- Every database that stands in the later tree stands at the same place in the earlier one. -/
def StoodBefore (after before : Files) : Prop :=
  ∀ place mode number, after.node? place = some (.file mode (.database number)) →
    ∃ former, before.node? place = some (.file former (.database number))

namespace StoodBefore

theorem refl (files : Files) : StoodBefore files files := fun _ mode _ stands => ⟨mode, stands⟩

theorem trans {first second third : Files} (late : StoodBefore third second)
    (early : StoodBefore second first) : StoodBefore third first := by
  intro place mode number stands
  obtain ⟨between, stood⟩ := late place mode number stands
  exact early place between number stood

theorem put (files : Files) (spot : Place) {node : Node}
    (old : ∀ mode number, node = .file mode (.database number) →
      ∃ former, files.node? spot = some (.file former (.database number))) :
    StoodBefore (files.put spot node) files := by
  intro place mode number stands
  by_cases same : key place = key spot
  · rw [node_put_of_key files spot node same] at stands
    have found : files.node? place = files.node? spot := congrArg files.nodes.get? same
    rw [found]
    exact old mode number (Option.some.inj stands)
  · rw [node_put_of_ne files spot node same] at stands
    exact ⟨mode, stands⟩

theorem put_bytes (files : Files) (spot : Place) (mode : Nat) (bytes : List UInt8) :
    StoodBefore (files.put spot (.file mode (.bytes bytes))) files := put files spot nofun

theorem put_directory (files : Files) (spot : Place) (mode : Nat) :
    StoodBefore (files.put spot (.directory mode)) files := put files spot nofun

theorem put_mode {files : Files} {spot : Place} {former : Nat} {content : Content}
    (stands : files.node? spot = some (.file former content)) (mode : Nat) :
    StoodBefore (files.put spot (.file mode content)) files := by
  apply put files spot
  rintro _ number ⟨⟩
  exact ⟨former, stands⟩

theorem discard (files : Files) (spot : Place) : StoodBefore (files.discard spot) files := by
  cases found : files.node? spot with
  | none =>
      simp only [Files.discard, found]
      exact refl files
  | some node =>
      cases node with
      | directory mode =>
          simp only [Files.discard, found]
          exact refl files
      | file mode content =>
          intro place other number stands
          by_cases same : key place = key spot
          · have gone : (files.discard spot).node? place = (files.discard spot).node? spot :=
              congrArg (files.discard spot).nodes.get? same
            rw [gone, node_discard_self files spot found] at stands
            cases stands
          · rw [node_discard_of_ne files spot same] at stands
            exact ⟨other, stands⟩

theorem prepare {files later : Files} {path : String} (prepares : files.prepare path = .ok later) :
    StoodBefore later files := by
  unfold Files.prepare at prepares
  cases located : files.locateForWriting path with
  | error fault =>
      rw [located] at prepares
      cases prepares
  | ok place =>
      rw [located] at prepares
      simp only [bind, Except.bind] at prepares
      split at prepares
      · cases prepares
      · rename_i stands
        cases prepares
        exact put_mode stands ownerOnly
      · cases prepares
        exact put_bytes files place ownerOnly []

end StoodBefore

abbrev MovesNothing (change : Change) : Prop := ∀ files, StoodBefore (change files).2 files

theorem write_moves_nothing (path : String) (bytes : List UInt8) :
    MovesNothing (write path bytes) := by
  intro files
  unfold write
  split
  · exact .refl files
  · split
    · exact .refl files
    · exact .put_bytes files _ _ bytes
    · exact .put_bytes files _ _ bytes

theorem create_along_moves_nothing (names : List String) :
    ∀ place, MovesNothing (createAlong place names) := by
  induction names with
  | nil =>
      intro place files
      unfold createAlong
      split
      · exact .put_directory files _ _
      · exact .refl files
      · exact .refl files
  | cons name later hypothesis =>
      intro place files
      have onward : ∀ between, StoodBefore between files → StoodBefore
          (if name = "." then createAlong place later between
            else if name = ".." then createAlong place.dropLast later between
            else if name.utf8ByteSize > longestName then (.error .nameTooLong, between)
            else createAlong (place ++ [name]) later between).2 files := by
        intro between created
        split
        · exact (hypothesis _ between).trans created
        · split
          · exact (hypothesis _ between).trans created
          · split
            · exact created
            · exact (hypothesis _ between).trans created
      unfold createAlong
      split
      · exact .refl files
      · refine onward _ ?_
        split
        · exact .put_directory files _ _
        · exact .refl files

theorem make_directory_moves_nothing (path : String) : MovesNothing (makeDirectory path) := by
  intro files
  unfold makeDirectory
  split
  · exact .refl files
  · exact .refl files
  · exact create_along_moves_nothing _ _ files

theorem remove_moves_nothing (path : String) : MovesNothing (remove path) := by
  intro files
  unfold remove
  split
  · exact .refl files
  · split
    · exact .refl files
    · exact .refl files
    · exact .discard files _

theorem set_mode_moves_nothing (path : String) (mode : Nat) : MovesNothing (setMode path mode) := by
  intro files
  unfold setMode
  split
  · exact .refl files
  · split
    · exact .refl files
    · exact .put_directory files _ mode
    · rename_i stands
      exact .put_mode stands mode

end Files

end UnitState
