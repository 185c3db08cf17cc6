import UnitState.Proofs.ByteOrder
import UnitState.Proofs.ReadableRows

/-!
# Stripped keys

A search by a stem compares characters, and of a key only those before its first NUL. The stem is
taken off by bytes: a key is cut behind as many bytes as the stem has. The two agree on every key
that is found, whatever characters it and the stem are made of. So the cut always falls between two
characters, what it leaves of the keys keeps their order, and no two keys leave the same.
-/

set_option autoImplicit false

namespace UnitState

open Json

/-- The rest of a text from a byte on. There is none if the byte stands inside of a character or
behind the end. -/
def restFrom (text : String) (offset : Nat) : Option String :=
  if boundary : String.Pos.Raw.isValid text ⟨offset⟩ = true then
    some (text.sliceFrom
      (text.pos ⟨offset⟩ (String.Pos.Raw.isValid_eq_true_iff.1 boundary))).copy
  else none

theorem rest_from_eq_some_iff {text rest : String} {offset : Nat} :
    restFrom text offset = some rest ↔
      ∃ front, text = front ++ rest ∧ front.utf8ByteSize = offset := by
  unfold restFrom
  constructor
  · intro cut
    split at cut
    · rename_i boundary
      cases cut
      have splits := (text.pos ⟨offset⟩ (String.Pos.Raw.isValid_eq_true_iff.1 boundary)).splits
      have size := splits.offset_eq_rawEndPos
      rw [String.offset_pos] at size
      exact ⟨_, splits.eq_append, (congrArg String.Pos.Raw.byteIdx size).symm⟩
    · cases cut
  · rintro ⟨front, whole, size⟩
    have ends : (⟨offset⟩ : String.Pos.Raw) = front.rawEndPos := by
      rw [← size]
      rfl
    have boundary : String.Pos.Raw.IsValid text ⟨offset⟩ :=
      String.Pos.Raw.isValid_iff_exists_append.2 ⟨front, rest, whole, ends⟩
    rw [dif_pos (String.Pos.Raw.isValid_eq_true_iff.2 boundary)]
    have splits : (text.pos ⟨offset⟩ boundary).Splits front rest :=
      ⟨whole, String.offset_pos.trans ends⟩
    rw [(text.pos ⟨offset⟩ boundary).splits.eq_right splits]

example : restFrom "é" 1 = none := by decide

theorem rest_from_append (stem name : String) :
    restFrom (stem ++ name) stem.utf8ByteSize = some name :=
  rest_from_eq_some_iff.2 ⟨stem, rfl, rfl⟩

/-- The first characters of a text, up to a number of them, but none from the first NUL on. -/
def leading (text : String) (count : Nat) : String :=
  String.ofList ((text.toList.takeWhile (· != '\x00')).take count)

theorem Database.starts_with_iff_leading {stem key : String} :
    startsWith stem key = true ↔ leading key stem.length = stem := by
  rw [startsWith, beq_iff_eq, leading, ← String.toList_inj, String.toList_ofList,
    String.length_toList]

namespace Store

def cutKey (stem : String) (strip : Bool) (key : String) : Option String :=
  if strip then restFrom key stem.utf8ByteSize else some key

/-- Goes through rows and adds one after the other to an object. A text that is no document ends
this with an error, and at a key that cannot be cut there is no answer at all. -/
def gatherRows (stem : String) (strip : Bool) :
    Object → List (String × String) → Option (Except StoreError Object)
  | object, [] => some (.ok object)
  | object, (key, text) :: later =>
      match decode Value.parse text with
      | .error error => some (.error error)
      | .ok value => do
          let name ← cutKey stem strip key
          gatherRows stem strip (object.insert name value) later

def gatherRange (store : Store) (stem : String) (strip : Bool) :
    Option (Except StoreError (Option Object)) :=
  match store.view Schema.liveTable with
  | .error error => some (.error error)
  | .ok contents =>
      match contents.range stem with
      | [] => some (.ok none)
      | rows => (gatherRows stem strip ∅ rows).map (Except.map some)

variable {store : Store} {contents : Database} {stem : String}

theorem cut_key_append (stem name : String) (strip : Bool) :
    cutKey stem strip (stem ++ name) = some (shownName stem (stem ++ name) strip) := by
  cases strip with
  | false => rfl
  | true => rw [cutKey, if_pos rfl, rest_from_append, shown_name_append]

theorem cut_key_of_mem_range {row : String × String} (member : row ∈ contents.range stem)
    (strip : Bool) : cutKey stem strip row.1 = some (shownName stem row.1 strip) := by
  obtain ⟨_, _, name, key⟩ := Database.mem_range_iff.1 member
  rw [key]
  exact cut_key_append stem name strip

theorem gather_rows_eq {rows : List (String × String)} {strip : Bool}
    (cut : ∀ row ∈ rows, cutKey stem strip row.1 = some (shownName stem row.1 strip))
    (object : Object) :
    gatherRows stem strip object rows = some ((decodeRows rows).map fun values =>
      (values.map fun value => (shownName stem value.1 strip, value.2)).foldl
        (fun table binding => table.insert binding.1 binding.2) object) := by
  induction rows generalizing object with
  | nil => rfl
  | cons row later hypothesis =>
      obtain ⟨key, text⟩ := row
      obtain ⟨first, rest⟩ := List.forall_mem_cons.1 cut
      cases read : decode Value.parse text with
      | error error => simp only [gatherRows, decodeRows, read]; rfl
      | ok value =>
          simp only [gatherRows, decodeRows, read, first]
          -- the later rows are gathered onto an object that has this one
          change gatherRows stem strip (object.insert _ value) later = _
          rw [hypothesis rest]
          cases decodeRows later <;> rfl

/-- Taking the stem off key by key never breaks off, and gives what the range is. -/
theorem gather_range_eq (store : Store) (stem : String) (strip : Bool) :
    store.gatherRange stem strip = some (store.getRange stem strip) := by
  unfold gatherRange getRange
  cases store.view Schema.liveTable with
  | error error => rfl
  | ok contents =>
      have cut : ∀ row ∈ contents.range stem,
          cutKey stem strip row.1 = some (shownName stem row.1 strip) :=
        fun row member => cut_key_of_mem_range member strip
      simp only [Bind.bind, Except.bind]
      generalize contents.range stem = rows at cut
      cases rows with
      | nil => rfl
      | cons row later =>
          simp only [gather_rows_eq cut]
          cases decodeRows (row :: later) <;> rfl

/-- Whether a key begins with the bytes of a stem and leaves a name when it is cut behind them. -/
def Leaves (stem key name : String) : Prop :=
  bytes key = bytes stem ++ bytes name ∧ restFrom key stem.utf8ByteSize = some name

/-- What becomes of the keys that a search by a stem finds in the contents that a store sees. -/
structure StripsApart (store : Store) (contents : Database) (stem : String) : Prop where
  /-- A key is found if its first characters, up to a NUL, are the stem. -/
  found : ∀ key text, (key, text) ∈ contents.range stem ↔
    contents.live.get? key = some text ∧ leading key stem.length = stem
  ordered : (contents.range stem).Pairwise fun left right => bytes left.1 < bytes right.1
  /-- The names that the keys leave come in the order of the keys, no two of them alike. -/
  stripped : ∃ names,
    List.Forall₂ (fun row name => Leaves stem row.1 name) (contents.range stem) names ∧
      names.Pairwise fun left right => bytes left < bytes right
  /-- The range is shown exactly if every text that is found is a document. -/
  answered : ∀ strip, (∃ range, store.getRange stem strip = .ok range) ↔
    ∀ row ∈ contents.range stem, ∃ value, Value.parse row.2 = .ok value
  /-- It has then one member for each row, and there is none if there is no row. -/
  members : ∀ strip range, store.getRange stem strip = .ok range →
    (range = none ↔ contents.range stem = []) ∧
      List.Forall₂ (fun row member =>
          cutKey stem strip row.1 = some member.1 ∧ Value.parse row.2 = .ok member.2)
        (contents.range stem) (range.getD ∅).entries

theorem leaves_append (stem name : String) : Leaves stem (stem ++ name) name :=
  ⟨bytes_append stem name, rest_from_append stem name⟩

theorem range_leaves (contents : Database) (stem : String) :
    ∃ names, List.Forall₂ (fun row name => Leaves stem row.1 name) (contents.range stem) names ∧
      names.Pairwise fun left right => bytes left < bytes right := by
  refine ⟨(contents.range stem).map fun row => shownName stem row.1 true, ?_, ?_⟩
  · apply List.forall₂_map_right_iff.2
    apply List.forall₂_same.2
    intro row member
    obtain ⟨_, _, name, key⟩ := Database.mem_range_iff.1 member
    rw [key, shown_name_append]
    exact leaves_append stem name
  · exact (shown_keys_increasing contents stem true).imp before_iff_bytes_lt.1

theorem range_members (visible : store.view Schema.liveTable = .ok contents) {strip : Bool}
    {range : Option Object} (ranged : store.getRange stem strip = .ok range) :
    (range = none ↔ contents.range stem = []) ∧
      List.Forall₂ (fun row member =>
          cutKey stem strip row.1 = some member.1 ∧ Value.parse row.2 = .ok member.2)
        (contents.range stem) (range.getD ∅).entries := by
  obtain ⟨nothing, shown⟩ := get_range_members visible ranged
  have cut : ∀ row ∈ contents.range stem,
      cutKey stem strip row.1 = some (shownName stem row.1 strip) :=
    fun row member => cut_key_of_mem_range member strip
  refine ⟨nothing, ((List.forall₂_and_left _ _).2 ⟨cut, shown⟩).imp ?_⟩
  rintro row member ⟨cut, name, read⟩
  exact ⟨cut.trans (congrArg some name.symm), read⟩

/-- A search by a stem never breaks off at a key that cannot be cut, and the keys that it finds stay
apart when the stem is taken off. -/
theorem range_stripped_apart (store : Store) (stem : String) :
    (∀ strip, store.gatherRange stem strip = some (store.getRange stem strip)) ∧
      ∀ contents, store.view Schema.liveTable = .ok contents →
        store.StripsApart contents stem := by
  refine ⟨store.gather_range_eq stem, fun contents visible => ?_⟩
  constructor
  · intro key text
    rw [Database.mem_range_iff, ← Database.starts_with_iff_sought,
      Database.starts_with_iff_leading]
  · exact (contents.live.increasing.filter _).imp before_iff_bytes_lt.1
  · exact range_leaves contents stem
  · intro strip
    constructor
    · rintro ⟨range, ranged⟩
      exact (of_get_range_ok visible ranged).1
    · intro readable
      exact get_range_ok visible readable strip
  · intro strip range ranged
    exact range_members visible ranged

/-- Three keys begin with a letter of two bytes; one of them has a NUL behind it. The last key has
the NUL in its place. -/
def accentedKeys : Table String String :=
  .ofList [("é", "null"), ("éa", "null"), ("é\x00b", "null"), ("\x00é", "null")]

theorem accented_keys_stripped :
    (Store.holding accentedKeys).StripsApart { Database.empty with live := accentedKeys } "é" ∧
      (Store.holding accentedKeys).getRange "é" true =
        .ok (some (.ofList [("", .null), ("\x00b", .null), ("a", .null)])) :=
  ⟨(range_stripped_apart (Store.holding accentedKeys) "é").2 _ rfl, rfl⟩

end Store

end UnitState
