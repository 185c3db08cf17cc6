import UnitState.Host.Connection
import UnitState.Table.Lemmas

/-!
# Places in the tree of files

What a change of one file does to the rest of the tree. As long as the directories stay, a walk
that has succeeded once succeeds for good and leads to the same place, whatever files are
created, overwritten or removed meanwhile. The way of the engine has a condition of its own:
it passes over names that do not exist, so it can come to lead elsewhere once they do.
-/

set_option autoImplicit false

namespace UnitState.Files

def key (place : Place) : String := String.intercalate "/" place

theorem key_beside (place : Place) (suffix : String) :
    key (beside place suffix) = key place ++ suffix := by
  rcases List.eq_nil_or_concat place with rfl | ⟨directory, name, rfl⟩
  · simp [key, beside]
  · have besides : beside (directory ++ [name]) suffix = directory ++ [name ++ suffix] := by
      simp [beside]
    rw [List.concat_eq_append, besides]
    cases directory with
    | nil => simp [key]
    | cons first later =>
        have above : first :: later ≠ [] := List.cons_ne_nil first later
        unfold key
        rw [String.intercalate_append_of_ne_nil above (List.cons_ne_nil name []),
          String.intercalate_append_of_ne_nil above (List.cons_ne_nil (name ++ suffix) [])]
        simp [String.append_assoc]

theorem key_beside_ne (place : Place) {suffix : String} (longer : suffix ≠ "") :
    key place ≠ key (beside place suffix) := by
  rw [key_beside]
  intro same
  have extended : key place ++ "" = key place ++ suffix := by rw [String.append_empty]; exact same
  exact longer ((String.append_right_inj _).1 extended).symm

theorem key_beside_ne_beside (place : Place) {suffix other : String} (different : suffix ≠ other) :
    key (beside place suffix) ≠ key (beside place other) := by
  rw [key_beside, key_beside]
  intro same
  exact different ((String.append_right_inj _).1 same)

section Node

variable (files : Files) (spot : Place) (node : Node)

theorem node_put_self : (files.put spot node).node? spot = some node :=
  Table.get?_insert_self files.nodes _ node

theorem node_put_of_key {place : Place} (same : key place = key spot) :
    (files.put spot node).node? place = some node := by
  have self := files.node_put_self spot node
  unfold node? at self ⊢
  unfold key at same
  rw [same]
  exact self

theorem node_put_of_ne {place : Place} (different : key place ≠ key spot) :
    (files.put spot node).node? place = files.node? place :=
  Table.get?_insert_of_ne files.nodes node different

theorem node_discard_self {mode : Nat} {content : Content}
    (stands : files.node? spot = some (.file mode content)) :
    (files.discard spot).node? spot = none := by
  simp only [discard, stands]
  exact Table.get?_erase_self files.nodes _

theorem node_discard_of_ne {place : Place} (different : key place ≠ key spot) :
    (files.discard spot).node? place = files.node? place := by
  unfold discard
  split
  · exact Table.get?_erase_of_ne files.nodes different
  · rfl

end Node

/-! ## Walks -/

/-- Where a name leads from a directory, unless it is too long. -/
def step? (place : Place) (name : String) : Option Place :=
  if name = "." then some place
  else if name = ".." then some place.dropLast
  else if name.utf8ByteSize > longestName then none
  else some (place ++ [name])

theorem step_down {place next : Place} {name : String} (stays : name ≠ ".")
    (goesUp : name ≠ "..") (stepped : step? place name = some next) :
    next = place ++ [name] := by
  rw [step?, if_neg stays, if_neg goesUp] at stepped
  split at stepped
  · cases stepped
  · exact (Option.some.inj stepped).symm

theorem walk_cons_ok_iff {files : Files} {place reached : Place} {name : String}
    {later : List String} :
    files.walk place (name :: later) = .ok reached ↔
      ∃ mode next, files.node? place = some (.directory mode) ∧ step? place name = some next ∧
        files.walk next later = .ok reached := by
  constructor
  · intro walked
    rw [walk] at walked
    split at walked
    · cases walked
    · cases walked
    · rename_i mode found
      unfold step?
      split at walked
      · rename_i stays
        exact ⟨mode, _, found, if_pos stays, walked⟩
      · rename_i moves
        rw [if_neg moves]
        split at walked
        · rename_i goesUp
          exact ⟨mode, _, found, if_pos goesUp, walked⟩
        · rename_i goesDown
          rw [if_neg goesDown]
          split at walked
          · cases walked
          · rename_i fits
            exact ⟨mode, _, found, if_neg fits, walked⟩
  · rintro ⟨mode, next, found, stepped, walked⟩
    rw [walk, found]
    unfold step? at stepped
    dsimp only
    split at stepped
    · rename_i stays
      cases stepped
      rw [if_pos stays, walked]
    · rename_i moves
      rw [if_neg moves]
      split at stepped
      · rename_i goesUp
        cases stepped
        rw [if_pos goesUp, walked]
      · rename_i goesDown
        rw [if_neg goesDown]
        split at stepped
        · cases stepped
        · rename_i fits
          cases stepped
          rw [if_neg fits, walked]

theorem walk_append_ok_iff {files : Files} {names later : List String} {reached : Place} :
    ∀ {place : Place}, files.walk place (names ++ later) = .ok reached ↔
      ∃ between, files.walk place names = .ok between ∧ files.walk between later = .ok reached := by
  induction names with
  | nil =>
      intro place
      constructor
      · exact fun walked => ⟨place, rfl, walked⟩
      · rintro ⟨between, first, second⟩
        cases first
        exact second
  | cons name further hypothesis =>
      intro place
      rw [List.cons_append, walk_cons_ok_iff]
      constructor
      · rintro ⟨mode, next, found, stepped, walked⟩
        obtain ⟨between, first, second⟩ := hypothesis.1 walked
        exact ⟨between, walk_cons_ok_iff.2 ⟨mode, next, found, stepped, first⟩, second⟩
      · rintro ⟨between, first, second⟩
        obtain ⟨mode, next, found, stepped, walked⟩ := walk_cons_ok_iff.1 first
        exact ⟨mode, next, found, stepped, hypothesis.2 ⟨between, walked, second⟩⟩

structure WritingWay (files : Files) (path : String) (directory : Place) (name : String)
    (target : Place) : Prop where
  checked : checkPath path = .ok ()
  above : files.walk (start path) ((Path.names path).dropLast ++ ["."]) = .ok directory
  last : (Path.names path).getLast? = some name
  stays : name ≠ "."
  goesUp : name ≠ ".."
  unslashed : endsInSlash path = false
  into : files.walk directory [name] = .ok target

theorem locate_for_writing_ok_iff {files : Files} {path : String} {target : Place} :
    files.locateForWriting path = .ok target ↔
      ∃ directory name, files.WritingWay path directory name target := by
  constructor
  · intro located
    unfold locateForWriting at located
    cases checked : checkPath path with
    | error fault =>
        rw [checked] at located
        cases located
    | ok _ =>
        rw [checked] at located
        simp only [bind, Except.bind] at located
        split at located
        · cases located
        · rename_i directory above
          split at located
          · cases located
          · cases located
          · cases located
          · rename_i name stays goesUp last
            split at located
            · cases located
            · rename_i unslashed
              exact ⟨directory, name, checked, above, last, stays, goesUp,
                Bool.eq_false_iff.2 unslashed, located⟩
  · rintro ⟨directory, name, way⟩
    unfold locateForWriting
    rw [way.checked]
    simp only [bind, Except.bind, way.above, way.last, way.unslashed, Bool.false_eq_true, if_false]
    split
    · rename_i impossible
      cases impossible
    · rename_i impossible
      exact absurd (Option.some.inj impossible) way.stays
    · rename_i impossible
      exact absurd (Option.some.inj impossible) way.goesUp
    · rename_i last
      rw [← Option.some.inj last]
      exact way.into

/-! ## Trees with the same directories -/

def SameDirectories (before after : Files) : Prop :=
  ∀ place mode, after.node? place = some (.directory mode) ↔
    before.node? place = some (.directory mode)

namespace SameDirectories

variable {before after : Files}

theorem refl (files : Files) : SameDirectories files files := fun _ _ => Iff.rfl

theorem trans {first second third : Files} (early : SameDirectories first second)
    (late : SameDirectories second third) : SameDirectories first third :=
  fun place mode => (late place mode).trans (early place mode)

theorem symm (same : SameDirectories before after) : SameDirectories after before :=
  fun place mode => (same place mode).symm

theorem put (files : Files) {spot : Place}
    (free : ∀ mode, files.node? spot ≠ some (.directory mode)) (mode : Nat) (content : Content) :
    SameDirectories files (files.put spot (.file mode content)) := by
  intro place other
  by_cases same : key place = key spot
  · have stands : files.node? place = files.node? spot := congrArg files.nodes.get? same
    rw [node_put_of_key files spot _ same, stands]
    exact iff_of_false nofun (free other)
  · rw [node_put_of_ne files spot _ same]

theorem discard (files : Files) (spot : Place) : SameDirectories files (files.discard spot) := by
  cases found : files.node? spot with
  | none =>
      simp only [Files.discard, found]
      exact refl files
  | some node =>
      cases node with
      | directory mode =>
          simp only [Files.discard, found]
          exact refl files
      | file mode content =>
          intro place other
          by_cases same : key place = key spot
          · have stands : files.node? place = files.node? spot := congrArg files.nodes.get? same
            have gone : (files.discard spot).node? place = (files.discard spot).node? spot :=
              congrArg (files.discard spot).nodes.get? same
            rw [gone, node_discard_self files spot found, stands, found]
            exact iff_of_false nofun nofun
          · rw [node_discard_of_ne files spot same]

theorem free (same : SameDirectories before after) {place : Place}
    (free : ∀ mode, before.node? place ≠ some (.directory mode)) (mode : Nat) :
    after.node? place ≠ some (.directory mode) :=
  fun stands => free mode ((same place mode).1 stands)

theorem walk_ok (same : SameDirectories before after) {names : List String} :
    ∀ {place reached : Place}, before.walk place names = .ok reached →
      after.walk place names = .ok reached := by
  induction names with
  | nil => exact fun walked => walked
  | cons name later hypothesis =>
      intro place reached walked
      obtain ⟨mode, next, found, stepped, onward⟩ := walk_cons_ok_iff.1 walked
      exact walk_cons_ok_iff.2 ⟨mode, next, (same place mode).2 found, stepped, hypothesis onward⟩

theorem locate_for_writing_ok (same : SameDirectories before after) {path : String}
    {target : Place} (located : before.locateForWriting path = .ok target) :
    after.locateForWriting path = .ok target := by
  obtain ⟨directory, name, way⟩ := locate_for_writing_ok_iff.1 located
  exact locate_for_writing_ok_iff.2 ⟨directory, name, {
    way with
    above := same.walk_ok way.above
    into := same.walk_ok way.into }⟩

end SameDirectories

/-! ## The way of the engine -/

/-- On the way of the engine along these names every step can be walked. -/
def Steady (files : Files) (place : Place) : List String → Prop
  | [] => True
  | name :: later =>
      if name = "." then files.Steady place later
      else if name = ".." then files.Steady place.dropLast later
      else (∃ reached, files.walk [] (place ++ [name]) = .ok reached) ∧
        files.Steady (place ++ [name]) later

namespace SameDirectories

variable {before after : Files}

theorem steady (same : SameDirectories before after) {names : List String} :
    ∀ {place : Place}, before.Steady place names → after.Steady place names := by
  induction names with
  | nil => exact fun _ => trivial
  | cons name later hypothesis =>
      intro place steady
      unfold Steady at steady ⊢
      split at steady
      · rename_i stays
        rw [if_pos stays]
        exact hypothesis steady
      · rename_i moves
        rw [if_neg moves]
        split at steady
        · rename_i goesUp
          rw [if_pos goesUp]
          exact hypothesis steady
        · rename_i goesDown
          rw [if_neg goesDown]
          obtain ⟨⟨reached, walked⟩, onward⟩ := steady
          exact ⟨⟨reached, same.walk_ok walked⟩, hypothesis onward⟩

theorem engine_place (same : SameDirectories before after) {names : List String} :
    ∀ {place : Place}, before.Steady place names →
      after.enginePlace? place names = before.enginePlace? place names := by
  induction names with
  | nil => exact fun _ => rfl
  | cons name later hypothesis =>
      intro place steady
      unfold Steady at steady
      unfold enginePlace?
      split at steady
      · rename_i stays
        rw [if_pos stays, if_pos stays]
        exact hypothesis steady
      · rename_i moves
        rw [if_neg moves, if_neg moves]
        split at steady
        · rename_i goesUp
          rw [if_pos goesUp, if_pos goesUp]
          exact hypothesis steady
        · rename_i goesDown
          rw [if_neg goesDown, if_neg goesDown]
          obtain ⟨⟨reached, walked⟩, onward⟩ := steady
          rw [walked, same.walk_ok walked]
          exact hypothesis onward

theorem engine_locate (same : SameDirectories before after) {path : String}
    (steady : before.Steady (start path) (Path.names path)) :
    after.engineLocate? path = before.engineLocate? path := by
  unfold engineLocate?
  rw [same.engine_place steady]

end SameDirectories

structure Reached (files : Files) (place : Place) : Prop where
  walked : files.walk [] place = .ok place
  named : ∀ name ∈ place, name ≠ "." ∧ name ≠ ".."

namespace Reached

variable {files : Files} {place : Place}

theorem root (files : Files) : files.Reached [] := ⟨rfl, nofun⟩

theorem up (reached : files.Reached place) : files.Reached place.dropLast := by
  rcases List.eq_nil_or_concat place with rfl | ⟨directory, name, rfl⟩
  · exact reached
  · rw [List.concat_eq_append] at reached ⊢
    rw [List.dropLast_concat]
    obtain ⟨stays, goesUp⟩ := reached.named name (List.mem_append_right _ List.mem_cons_self)
    obtain ⟨between, walked, last⟩ := walk_append_ok_iff.1 reached.walked
    obtain ⟨_, next, _, stepped, ends⟩ := walk_cons_ok_iff.1 last
    have whole : between ++ [name] = directory ++ [name] :=
      (step_down stays goesUp stepped).symm.trans (Except.ok.inj ends)
    rw [List.append_inj_left' whole rfl] at walked
    exact ⟨walked, fun other member => reached.named other (List.mem_append_left _ member)⟩

theorem down (reached : files.Reached place) {mode : Nat}
    (found : files.node? place = some (.directory mode)) {name : String} (stays : name ≠ ".")
    (goesUp : name ≠ "..") (stepped : step? place name = some (place ++ [name])) :
    files.Reached (place ++ [name]) where
  walked := walk_append_ok_iff.2
    ⟨place, reached.walked, walk_cons_ok_iff.2 ⟨mode, _, found, stepped, rfl⟩⟩
  named other member := by
    rcases List.mem_append.1 member with above | last
    · exact reached.named other above
    · rw [List.mem_singleton.1 last]
      exact ⟨stays, goesUp⟩

theorem steady {names : List String} : ∀ {place last : Place}, files.Reached place →
    files.walk place names = .ok last → files.Steady place names := by
  induction names with
  | nil => exact fun _ _ => trivial
  | cons name later hypothesis =>
      intro place last reached walked
      obtain ⟨mode, next, found, stepped, onward⟩ := walk_cons_ok_iff.1 walked
      unfold Steady
      by_cases stays : name = "."
      · rw [step?, if_pos stays] at stepped
        rw [if_pos stays]
        cases stepped
        exact hypothesis reached onward
      · by_cases goesUp : name = ".."
        · rw [step?, if_neg stays, if_pos goesUp] at stepped
          rw [if_neg stays, if_pos goesUp]
          cases stepped
          exact hypothesis reached.up onward
        · rw [if_neg stays, if_neg goesUp]
          cases step_down stays goesUp stepped
          have below := reached.down found stays goesUp stepped
          exact ⟨⟨_, below.walked⟩, hypothesis below onward⟩

end Reached

/-- Where a file can be written, the engine finds every step of the way. -/
theorem steady_of_located {files : Files} {path : String} {target : Place} {mode : Nat}
    (root : files.node? [] = some (.directory mode))
    (located : files.locateForWriting path = .ok target) :
    files.Steady (start path) (Path.names path) := by
  obtain ⟨directory, name, way⟩ := locate_for_writing_ok_iff.1 located
  have starts : files.Reached (start path) := by
    unfold start
    split
    · exact .root files
    · exact (Reached.root files).down root (by decide) (by decide) rfl
  obtain ⟨above, names⟩ := List.getLast?_eq_some_iff.1 way.last
  have walked := way.above
  rw [names, List.dropLast_concat] at walked
  obtain ⟨between, first, dot⟩ := walk_append_ok_iff.1 walked
  obtain ⟨_, next, _, stepped, ends⟩ := walk_cons_ok_iff.1 dot
  have stands : between = directory := (Option.some.inj stepped).trans (Except.ok.inj ends)
  have whole : files.walk (start path) (Path.names path) = .ok target := by
    rw [names]
    exact walk_append_ok_iff.2 ⟨between, first, stands ▸ way.into⟩
  exact starts.steady whole

end UnitState.Files
