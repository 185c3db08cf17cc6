/-!
# Tables

A table is a finite map kept as a list of bindings whose keys strictly increase.
The order of the keys is part of the type, so listing a table needs no sorting and
two tables with the same bindings are the same table. Text keys are ordered by
their characters, which is also the byte order of their UTF-8 encodings.
-/

set_option autoImplicit false

namespace UnitState

/-- A decidable order in which of two distinct keys one comes before the other. -/
class KeyOrder (Key : Type) where
  before : Key → Key → Bool
  irreflexive : ∀ key, before key key = false
  transitive : ∀ {first second third}, before first second = true →
    before second third = true → before first third = true
  connected : ∀ {left right}, before left right = false →
    before right left = false → left = right

namespace KeyOrder

variable {Key : Type} [KeyOrder Key]

theorem asymmetric {left right : Key} (forward : before left right = true) :
    before right left = false := by
  cases backward : before right left with
  | false => rfl
  | true =>
      have loop := transitive forward backward
      rw [irreflexive] at loop
      cases loop

end KeyOrder

instance : KeyOrder String where
  before left right := decide (left < right)
  irreflexive key := decide_eq_false (String.lt_irrefl key)
  transitive forward further := by
    simp only [decide_eq_true_eq] at *
    exact String.lt_trans forward further
  connected first second := by
    simp only [decide_eq_false_iff_not, String.not_lt] at *
    exact String.le_antisymm second first

instance : KeyOrder Int where
  before left right := decide (left < right)
  irreflexive key := by simp
  transitive forward further := by
    simp only [decide_eq_true_eq] at *
    omega
  connected first second := by
    simp only [decide_eq_false_iff_not] at *
    omega

/-- Pairs are ordered by their first parts, and by their second parts if those agree. -/
instance {First Second : Type} [KeyOrder First] [KeyOrder Second] :
    KeyOrder (First × Second) where
  before left right :=
    KeyOrder.before left.1 right.1
      || (!KeyOrder.before right.1 left.1 && KeyOrder.before left.2 right.2)
  irreflexive key := by simp [KeyOrder.irreflexive]
  transitive {first second third} forward further := by
    simp only [Bool.or_eq_true, Bool.and_eq_true, Bool.not_eq_true'] at *
    rcases forward with forward | ⟨forwardTie, forward⟩
    · rcases further with further | ⟨furtherTie, _⟩
      · exact .inl (KeyOrder.transitive forward further)
      · cases tie : KeyOrder.before second.1 third.1 with
        | true => exact .inl (KeyOrder.transitive forward tie)
        | false => exact .inl (KeyOrder.connected tie furtherTie ▸ forward)
    · cases tie : KeyOrder.before first.1 second.1 with
      | true =>
          rcases further with further | ⟨furtherTie, _⟩
          · exact .inl (KeyOrder.transitive tie further)
          · cases later : KeyOrder.before second.1 third.1 with
            | true => exact .inl (KeyOrder.transitive tie later)
            | false => exact .inl (KeyOrder.connected later furtherTie ▸ tie)
      | false =>
          have same := KeyOrder.connected tie forwardTie
          rcases further with further | ⟨furtherTie, further⟩
          · exact .inl (same ▸ further)
          · exact .inr ⟨same ▸ furtherTie, KeyOrder.transitive forward further⟩
  connected {left right} forward backward := by
    simp only [Bool.or_eq_false_iff, Bool.and_eq_false_iff, Bool.not_eq_false'] at *
    have firstSame := KeyOrder.connected forward.1 backward.1
    have secondForward : KeyOrder.before left.2 right.2 = false := by
      rcases forward.2 with reversed | later
      · rw [backward.1] at reversed
        cases reversed
      · exact later
    have secondBackward : KeyOrder.before right.2 left.2 = false := by
      rcases backward.2 with reversed | later
      · rw [forward.1] at reversed
        cases reversed
      · exact later
    exact Prod.ext firstSame (KeyOrder.connected secondForward secondBackward)

/-- Bindings in strictly increasing order of their keys. -/
structure Table (Key Value : Type) [KeyOrder Key] where
  entries : List (Key × Value)
  increasing : entries.Pairwise fun left right => KeyOrder.before left.1 right.1 = true
deriving DecidableEq

namespace Table

variable {Key Value : Type} [KeyOrder Key]

def place (key : Key) (value : Value) : List (Key × Value) → List (Key × Value)
  | [] => [(key, value)]
  | head :: tail =>
      if KeyOrder.before head.1 key then head :: place key value tail
      else if KeyOrder.before key head.1 then (key, value) :: head :: tail
      else (key, value) :: tail

theorem mem_place {key : Key} {value : Value} {bindings : List (Key × Value)}
    {binding : Key × Value} (member : binding ∈ place key value bindings) :
    binding = (key, value) ∨ binding ∈ bindings := by
  induction bindings with
  | nil => simpa [place] using member
  | cons head tail hypothesis =>
      simp only [place] at member
      split at member
      · rcases List.mem_cons.1 member with same | later
        · exact .inr (same ▸ List.mem_cons_self)
        · exact (hypothesis later).imp_right (List.mem_cons_of_mem _)
      · split at member
        · rcases List.mem_cons.1 member with same | later
          · exact .inl same
          · exact .inr later
        · rcases List.mem_cons.1 member with same | later
          · exact .inl same
          · exact .inr (List.mem_cons_of_mem _ later)

theorem place_increasing (key : Key) (value : Value) {bindings : List (Key × Value)}
    (increasing : bindings.Pairwise fun left right => KeyOrder.before left.1 right.1 = true) :
    (place key value bindings).Pairwise fun left right =>
      KeyOrder.before left.1 right.1 = true := by
  induction bindings with
  | nil => simp [place]
  | cons head tail hypothesis =>
      rcases List.pairwise_cons.1 increasing with ⟨headFirst, tailIncreasing⟩
      simp only [place]
      split
      · rename_i headBefore
        refine List.pairwise_cons.2 ⟨fun binding member => ?_, hypothesis tailIncreasing⟩
        rcases mem_place member with same | later
        · simpa [same] using headBefore
        · exact headFirst binding later
      · rename_i headNotBefore
        split
        · rename_i keyBefore
          refine List.pairwise_cons.2 ⟨fun binding member => ?_, increasing⟩
          rcases List.mem_cons.1 member with same | later
          · simpa [same] using keyBefore
          · exact KeyOrder.transitive keyBefore (headFirst binding later)
        · rename_i keyNotBefore
          have same : head.1 = key :=
            KeyOrder.connected (by simpa using headNotBefore) (by simpa using keyNotBefore)
          exact List.pairwise_cons.2
            ⟨fun binding member => same ▸ headFirst binding member, tailIncreasing⟩

def find (key : Key) : List (Key × Value) → Option Value
  | [] => none
  | head :: tail =>
      if KeyOrder.before head.1 key then find key tail
      else if KeyOrder.before key head.1 then none
      else some head.2

def empty : Table Key Value := ⟨[], .nil⟩

instance : EmptyCollection (Table Key Value) := ⟨empty⟩

instance : Inhabited (Table Key Value) := ⟨empty⟩

def get? (table : Table Key Value) (key : Key) : Option Value :=
  find key table.entries

def contains (table : Table Key Value) (key : Key) : Bool :=
  (table.get? key).isSome

def insert (table : Table Key Value) (key : Key) (value : Value) : Table Key Value :=
  ⟨place key value table.entries, place_increasing key value table.increasing⟩

def filter (table : Table Key Value) (test : Key → Value → Bool) : Table Key Value :=
  ⟨table.entries.filter fun binding => test binding.1 binding.2,
    table.increasing.filter _⟩

def filterMap {Other : Type} (table : Table Key Value) (change : Key → Value → Option Other) :
    Table Key Other :=
  ⟨table.entries.filterMap fun binding =>
      (change binding.1 binding.2).map fun value => (binding.1, value),
    List.pairwise_filterMap.2 (table.increasing.imp fun {left right} order changedLeft
        leftShape changedRight rightShape => by
      obtain ⟨_, _, rfl⟩ := Option.map_eq_some_iff.1 leftShape
      obtain ⟨_, _, rfl⟩ := Option.map_eq_some_iff.1 rightShape
      exact order)⟩

def erase (table : Table Key Value) (key : Key) : Table Key Value :=
  table.filter fun other _ => KeyOrder.before other key || KeyOrder.before key other

/-- Binds the listed pairs from first to last, so the last pair of a key wins. -/
def ofList (bindings : List (Key × Value)) : Table Key Value :=
  bindings.foldl (fun table binding => table.insert binding.1 binding.2) empty

def override (table later : Table Key Value) : Table Key Value :=
  later.entries.foldl (fun table binding => table.insert binding.1 binding.2) table

def keys (table : Table Key Value) : List Key := table.entries.map (·.1)

def values (table : Table Key Value) : List Value := table.entries.map (·.2)

def size (table : Table Key Value) : Nat := table.entries.length

def isEmpty (table : Table Key Value) : Bool := table.entries.isEmpty

theorem mapped_increasing {Other : Type} (change : Key → Value → Other)
    {bindings : List (Key × Value)}
    (increasing : bindings.Pairwise fun left right => KeyOrder.before left.1 right.1 = true) :
    (bindings.map fun binding => (binding.1, change binding.1 binding.2)).Pairwise
      fun left right => KeyOrder.before left.1 right.1 = true :=
  List.pairwise_map.2 increasing

def map {Other : Type} (table : Table Key Value) (change : Key → Value → Other) :
    Table Key Other :=
  ⟨table.entries.map fun binding => (binding.1, change binding.1 binding.2),
    mapped_increasing change table.increasing⟩

end Table

end UnitState
