import UnitState.Json.Canonical
import UnitState.Json.Parser
import UnitState.Proofs.FloatReading
import UnitState.Table.Lemmas

/-!
# Reading back what was written

Every value that is nested no deeper than the reader allows is read back from its compact text,
as a whole document and in front of a delimiter inside of one. What is read has the members of
its objects in order, and has for each number the one that the number's text denotes: an integer
itself, and a float the number that its shortest decimal is scaled to. So a canonical value whose
numbers are read back as themselves is read back as itself.
-/

set_option autoImplicit false

namespace UnitState.Json

open UnitState.Decimal

def Number.reread (number : Number) : Number :=
  match Reader.number ⟨number.text, .start⟩ with
  | (.ok read, _) => read
  | (.error _, _) => number

namespace Number

theorem reread_eq {number read : Number} (reads : Reads Reader.number number.text read []) :
    number.reread = read := by
  obtain ⟨later, taken⟩ := reads .start
  rw [List.append_nil] at taken
  rw [reread, taken]

theorem reread_reads (number : Number) {rest : List Char} (delimited : Delimited rest) :
    Reads Reader.number number.text number.reread rest := by
  obtain ⟨read, reads⟩ := number.text_reads
  rw [reread_eq (reads [] (.inl rfl))]
  exact reads rest delimited

@[simp] theorem reread_integer {value : Int} (inRange : InIntegerRange value) :
    (integer value inRange).reread = integer value inRange :=
  reread_eq (Reader.integer_reads inRange (.inl rfl))

end Number

namespace Value

/-! ## Parts of a value -/

mutual

def EveryNumber (kind : Number → Prop) : Value → Prop
  | number content => kind content
  | array items => EveryNumberItems kind items
  | object members => EveryNumberMembers kind members
  | _ => True

def EveryNumberItems (kind : Number → Prop) : List Value → Prop
  | [] => True
  | head :: tail => head.EveryNumber kind ∧ EveryNumberItems kind tail

def EveryNumberMembers (kind : Number → Prop) : List (String × Value) → Prop
  | [] => True
  | (_, head) :: tail => head.EveryNumber kind ∧ EveryNumberMembers kind tail

end

section Parts

variable {kind : Number → Prop} {items : List Value} {members : List (String × Value)}
  {room : Nat}

theorem canonical_items_iff : CanonicalItems items ↔ ∀ item ∈ items, item.Canonical := by
  induction items with
  | nil => simp [CanonicalItems]
  | cons head tail hypothesis => simp [CanonicalItems, hypothesis]

theorem canonical_members_iff :
    CanonicalMembers members ↔ ∀ member ∈ members, member.2.Canonical := by
  induction members with
  | nil => simp [CanonicalMembers]
  | cons head tail hypothesis => simp [CanonicalMembers, hypothesis]

theorem every_number_items_iff :
    EveryNumberItems kind items ↔ ∀ item ∈ items, item.EveryNumber kind := by
  induction items with
  | nil => simp [EveryNumberItems]
  | cons head tail hypothesis => simp [EveryNumberItems, hypothesis]

theorem every_number_members_iff :
    EveryNumberMembers kind members ↔ ∀ member ∈ members, member.2.EveryNumber kind := by
  induction members with
  | nil => simp [EveryNumberMembers]
  | cons head tail hypothesis => simp [EveryNumberMembers, hypothesis]

theorem depth_items_le_iff : depthItems items ≤ room ↔ ∀ item ∈ items, item.depth ≤ room := by
  induction items with
  | nil => simp [depthItems]
  | cons head tail hypothesis => rw [depthItems, Nat.max_le, hypothesis, List.forall_mem_cons]

theorem depth_members_le_iff :
    depthMembers members ≤ room ↔ ∀ member ∈ members, member.2.depth ≤ room := by
  induction members with
  | nil => simp [depthMembers]
  | cons head tail hypothesis => rw [depthMembers, Nat.max_le, hypothesis, List.forall_mem_cons]

end Parts

mutual

theorem EveryNumber.imp {kind other : Number → Prop} (weaker : ∀ number, kind number → other number)
    {value : Value} (every : value.EveryNumber kind) : value.EveryNumber other := by
  cases value with
  | null | bool | string => trivial
  | number content => exact weaker content every
  | array items => exact every_number_items_imp weaker every
  | object members => exact every_number_members_imp weaker every

theorem every_number_items_imp {kind other : Number → Prop}
    (weaker : ∀ number, kind number → other number) {items : List Value}
    (every : EveryNumberItems kind items) : EveryNumberItems other items := by
  cases items with
  | nil => trivial
  | cons head tail => exact ⟨every.1.imp weaker, every_number_items_imp weaker every.2⟩

theorem every_number_members_imp {kind other : Number → Prop}
    (weaker : ∀ number, kind number → other number) {members : List (String × Value)}
    (every : EveryNumberMembers kind members) : EveryNumberMembers other members := by
  cases members with
  | nil => trivial
  | cons head tail =>
      obtain ⟨key, value⟩ := head
      exact ⟨every.1.imp weaker, every_number_members_imp weaker every.2⟩

end

mutual

/-- The value as which the compact text of a value is read. -/
def reread : Value → Value
  | array items => array (rereadItems items)
  | object members => ofObject (.ofList (rereadMembers members))
  | number content => number content.reread
  | null => null
  | bool flag => bool flag
  | string text => string text

def rereadItems : List Value → List Value
  | [] => []
  | head :: tail => head.reread :: rereadItems tail

def rereadMembers : List (String × Value) → List (String × Value)
  | [] => []
  | (key, head) :: tail => (key, head.reread) :: rereadMembers tail

end

theorem reread_items_eq (items : List Value) : rereadItems items = items.map reread := by
  induction items with
  | nil => rfl
  | cons head tail hypothesis => rw [rereadItems, hypothesis, List.map_cons]

def rereadMember (member : String × Value) : String × Value := (member.1, member.2.reread)

theorem reread_members_eq (members : List (String × Value)) :
    rereadMembers members = members.map rereadMember := by
  induction members with
  | nil => rfl
  | cons head tail hypothesis =>
      rw [rereadMembers, hypothesis, List.map_cons]
      rfl

/-! ## Shapes of texts -/

def Starts (text : List Char) : Prop :=
  ∃ head tail, text = head :: tail ∧ isSpace head = false ∧ head ≠ ']'

theorem Starts.append {text : List Char} (starts : Starts text) (rest : List Char) :
    Starts (text ++ rest) := by
  obtain ⟨head, tail, rfl, noSpace, noEnd⟩ := starts
  exact ⟨head, tail ++ rest, rfl, noSpace, noEnd⟩

theorem compact_starts (value : Value) : Starts value.compactChars := by
  cases value with
  | null => exact ⟨'n', _, rfl, rfl, by decide⟩
  | bool flag =>
      cases flag with
      | true => exact ⟨'t', _, rfl, rfl, by decide⟩
      | false => exact ⟨'f', _, rfl, rfl, by decide⟩
  | number content =>
      obtain ⟨head, tail, shape, lead⟩ := content.text_starts
      have apart : ∀ other, other ≠ '-' → isDigit other = false → head ≠ other := by
        rintro other sign digit rfl
        rcases lead with minus | digital
        · exact sign minus
        · rw [digit] at digital
          cases digital
      refine ⟨head, tail, shape, ?_, apart ']' (by decide) rfl⟩
      have blanks := And.intro (apart ' ' (by decide) rfl) (And.intro (apart '\n' (by decide) rfl)
        (And.intro (apart '\t' (by decide) rfl) (apart '\r' (by decide) rfl)))
      simpa [isSpace, and_assoc] using blanks
  | string text => exact ⟨'"', _, rfl, rfl, by decide⟩
  | array items => exact ⟨'[', _, rfl, rfl, by decide⟩
  | object members => exact ⟨'\x7b', _, rfl, rfl, by decide⟩

theorem compact_items_eq (items : List Value) :
    compactItems items = separated compactChars items := by
  induction items with
  | nil => rfl
  | cons head tail hypothesis =>
      cases tail with
      | nil => simp [compactItems, separated, following]
      | cons next later =>
          rw [compactItems, hypothesis]
          · simp [separated, following]
          · exact List.cons_ne_nil next later

def memberChars (member : String × Value) : List Char :=
  stringText member.1 ++ ':' :: member.2.compactChars

theorem compact_members_eq (members : List (String × Value)) :
    compactMembers members = separated memberChars members := by
  induction members with
  | nil => rfl
  | cons head tail hypothesis =>
      cases tail with
      | nil => simp [compactMembers, separated, following, memberChars]
      | cons next later =>
          rw [compactMembers, hypothesis]
          · simp [separated, following, memberChars]
          · exact List.cons_ne_nil next later

end Value

namespace Reader

open Value

/-! ## Lists -/

theorem next_item_reads (first : Bool) {gap rest : List Char} (gapped : Gap gap)
    (starts : Starts rest) :
    Reads (nextItem first) ((if first then [] else [',']) ++ gap) true rest := by
  obtain ⟨head, tail, rfl, noSpace, noEnd⟩ := starts
  have blank : ∀ other, (head :: tail).head? = some other → isSpace other = false := by
    intro other same
    cases same
    exact noSpace
  cases first with
  | true =>
      apply Reads.skip_ahead gapped.blank blank
      simp only [List.head?_cons]
      exact Reads.pure true _
  | false =>
      apply Reads.token_at rfl rfl
      apply Reads.discard
      apply Reads.skip_ahead gapped.blank blank
      simp only [List.head?_cons]
      exact Reads.pure true _

theorem items_end {Result : Type} (item : Reader Result) (first : Bool) (count : Nat)
    {gap : List Char} (gapped : Gap gap) (rest : List Char) :
    Reads (items item first (count + 1)) gap [] (']' :: rest) := by
  have ended : Reads (nextItem first) gap false (']' :: rest) := by
    apply Reads.skip_ahead gapped.blank
    · intro other same
      cases same
      rfl
    · exact Reads.pure false _
  exact ended.last (Reads.pure [] _)

theorem spread_list_reads {Source Result : Type} {item : Reader Result}
    {text : Source → List Char} {read : Source → Result} {sources : List Source}
    {inner outer : List Char} (innerGap : Gap inner) (outerGap : Gap outer)
    (starts : ∀ source ∈ sources, Starts (text source))
    (reads : ∀ source ∈ sources, ∀ rest, Delimited rest →
      Reads item (text source) (read source) rest) (rest : List Char) :
    Reads (list item)
      ('[' :: (separated (fun source => inner ++ text source) sources ++ outer ++ [']']))
      (sources.map read) rest := by
  have loops : Loops (items item) (fun source => inner ++ text source) read outer ']' sources := by
    refine ⟨?_, fun first count rest => items_end item first count outerGap rest, ?_⟩
    · intro source member empty
      obtain ⟨head, tail, shape, _⟩ := starts source member
      rw [(List.append_eq_nil_iff.1 empty).2] at shape
      cases shape
    · intro first count head member tail later rest delimited goesOn
      have next := next_item_reads first innerGap ((starts head member).append (later ++ rest))
      rw [← List.append_assoc] at next
      have whole : Reads (items item first (count + 1))
          ((if first then [] else [',']) ++ inner ++ (text head ++ later))
          (read head :: tail) rest :=
        next.bind ((reads head member _ delimited).bind (goesOn.map _))
      simpa only [List.append_assoc] using whole
  apply Reads.discard
  apply Reads.closed_by
  · exact loops.separated_read outerGap (.inr ⟨']', [], rfl, .inr (.inl rfl)⟩) rest
  · exact fun position => ⟨_, rfl⟩

theorem list_reads {Source Result : Type} {item : Reader Result} {text : Source → List Char}
    {read : Source → Result} {sources : List Source}
    (starts : ∀ source ∈ sources, Starts (text source))
    (reads : ∀ source ∈ sources, ∀ rest, Delimited rest →
      Reads item (text source) (read source) rest) (rest : List Char) :
    Reads (list item) ('[' :: separated text sources ++ [']']) (sources.map read) rest := by
  have spread := spread_list_reads Gap.none Gap.none starts reads rest
  rw [List.append_nil] at spread
  exact spread

/-! ## Objects -/

theorem next_key_reads (first : Bool) {gap : List Char} (gapped : Gap gap) (rest : List Char) :
    Reads (nextKey first) ((if first then [] else [',']) ++ gap) true ('"' :: rest) := by
  have blank : ∀ other, ('"' :: rest).head? = some other → isSpace other = false := by
    intro other same
    cases same
    rfl
  cases first with
  | true => exact Reads.skip_ahead gapped.blank blank (Reads.pure true _)
  | false =>
      apply Reads.token_at rfl rfl
      exact Reads.discard (Reads.skip_ahead gapped.blank blank (Reads.pure true _))

theorem colon_reads (rest : List Char) : Reads colon [':'] () rest := fun _ => ⟨_, rfl⟩

theorem object_reads {Source Result : Type} {value : Reader Result} {name : Source → String}
    {content : Source → Value} {read : Source → Result} {sources : List Source}
    (reads : ∀ source ∈ sources, ∀ rest, Delimited rest →
      Reads value (content source).compactChars (read source) rest) (rest : List Char) :
    Reads (Reader.object value)
      (compactChars (.object (sources.map fun source => (name source, content source))))
      (sources.map fun source => (name source, read source)) rest := by
  let chars (source : Source) := memberChars (name source, content source)
  let member (source : Source) := (name source, read source)
  have loops : Loops (members value) chars member [] '\x7d' sources := by
    refine ⟨fun source _ empty => ?_, fun first count rest position => ⟨position, rfl⟩, ?_⟩
    · cases empty
    · intro first count head belongs tail later rest delimited goesOn
      have contents : Reads (do
          let content ← value
          return (name head, content) :: (← members value false count))
          ((content head).compactChars ++ later) (member head :: tail) rest :=
        (reads head belongs _ delimited).bind (goesOn.map _)
      have named : Reads (do
          let key ← string
          colon
          let content ← value
          return (key, content) :: (← members value false count))
          (stringText (name head) ++ ([':'] ++ ((content head).compactChars ++ later)))
          (member head :: tail) rest :=
        (string_reads (name head) _).bind ((colon_reads _).bind contents)
      have shape : chars head ++ later =
          stringText (name head) ++ ([':'] ++ ((content head).compactChars ++ later)) := by
        simp [chars, memberChars]
      rw [shape, ← List.append_nil (if first then [] else [','])]
      apply Reads.bind (next_key_reads first Gap.none _)
      exact named
  rw [compactChars, compact_members_eq, separated_map]
  apply Reads.discard
  apply Reads.closed_by
  · have read := loops.separated_read Gap.none (.inr ⟨'\x7d', [], rfl, .inr (.inr (.inl rfl))⟩) rest
    rwa [List.append_nil] at read
  · exact fun position => ⟨_, rfl⟩

/-! ## Values -/

theorem dispatch_reads {onList onObject : Reader Value} {content : Value} {rest : List Char}
    (delimited : Delimited rest)
    (lists : ∀ items, content = .array items →
      Reads onList content.compactChars content.reread rest)
    (objects : ∀ members, content = .object members →
      Reads onObject content.compactChars content.reread rest) :
    Reads (dispatch onList onObject) content.compactChars content.reread rest := by
  obtain ⟨head, tail, shape, noSpace, _⟩ := compact_starts content
  have blank : ∀ other, (content.compactChars ++ rest).head? = some other →
      isSpace other = false := by
    intro other same
    rw [shape] at same
    cases same
    exact noSpace
  apply Reads.token blank
  cases content with
  | null => exact Reads.discard ((name_reads "ull".toList rest).map fun _ => Value.null)
  | bool flag =>
      cases flag with
      | true => exact Reads.discard ((name_reads "rue".toList rest).map fun _ => Value.bool true)
      | false =>
          exact Reads.discard ((name_reads "alse".toList rest).map fun _ => Value.bool false)
  | number content =>
      have reads := (content.reread_reads delimited).map Value.number
      obtain ⟨head, tail, text, lead⟩ := content.text_starts
      rw [text] at reads
      rw [compactChars, reread, text]
      simp only [List.cons_append, List.head?_cons]
      split
      case h_8 found =>
        cases found
        rw [if_pos lead]
        exact reads
      -- a number starts like none of the other values
      all_goals
        rename_i found
        first
        | cases found
          exact absurd lead (by decide)
        | cases found
  | string text => exact (string_reads text rest).map Value.string
  | array items => exact lists items rfl
  | object members => exact objects members rfl

/-- A value that is not too deep is read in front of a delimiter. -/
theorem value_reads (room : Nat) {content : Value} (shallow : content.depth ≤ room)
    {rest : List Char} (delimited : Delimited rest) :
    Reads (value room) content.compactChars content.reread rest := by
  induction room generalizing content rest with
  | zero =>
      apply dispatch_reads delimited
      · rintro items rfl
        exact absurd shallow (Nat.not_succ_le_zero _)
      · rintro members rfl
        exact absurd shallow (Nat.not_succ_le_zero _)
  | succ room hypothesis =>
      apply dispatch_reads delimited
      · rintro items rfl
        have parts := depth_items_le_iff.1 (Nat.le_of_succ_le_succ shallow)
        rw [reread, reread_items_eq, compactChars, compact_items_eq]
        apply Reads.map
        apply list_reads
        · exact fun item _ => compact_starts item
        · intro item member later follows
          exact hypothesis (parts item member) follows
      · rintro members rfl
        have parts := depth_members_le_iff.1 (Nat.le_of_succ_le_succ shallow)
        have reads : Reads (Reader.object (value room))
            (compactChars (.object (members.map fun member => (member.1, member.2))))
            (members.map rereadMember) rest :=
          object_reads (fun member belongs later follows =>
            hypothesis (parts member belongs) follows) rest
        rw [List.map_id'] at reads
        rw [reread, reread_members_eq]
        exact reads.map fun members => Value.ofObject (.ofList members)

theorem read_all_reads_before {Result : Type} {reader : Reader Result} {text blanks : List Char}
    {result : Result} (reads : Reads reader text result blanks) (blank : Blank blanks) :
    readAll reader (String.ofList (text ++ blanks)) = .ok result := by
  have ended : Reads atEnd blanks () [] := Reads.skip_ahead blank nofun (Reads.pure () [])
  have read : Reads reader text result (blanks ++ []) := by
    rw [List.append_nil]
    exact reads
  have whole : Reads (do
      let result ← reader
      atEnd
      return result) (text ++ blanks) result [] :=
    read.bind (ended.last (Reads.pure result []))
  obtain ⟨later, taken⟩ := whole .start
  rw [List.append_nil] at taken
  rw [readAll, Cursor.ofString, String.toList_ofList, taken]

theorem read_all_reads {Result : Type} {reader : Reader Result} {text : List Char}
    {result : Result} (reads : Reads reader text result []) :
    readAll reader (String.ofList text) = .ok result := by
  have whole := read_all_reads_before reads nofun
  rwa [List.append_nil] at whole

end Reader

namespace Value

/-- A value that is not too deep is read from its text. -/
theorem parse_compact {value : Value} (shallow : value.depth ≤ nestingLimit) :
    parse value.compact = .ok value.reread :=
  Reader.read_all_reads (Reader.value_reads nestingLimit shallow (.inl rfl))

mutual

theorem canonical_eq (value : Value) (sorted : value.Canonical) : value.canonical = value := by
  cases value with
  | null | bool | number | string => rfl
  | array items => rw [canonical, canonical_items_eq items sorted]
  | object members =>
      obtain ⟨increasing, parts⟩ := sorted
      rw [canonical, canonical_members_eq members parts, Table.of_list_entries increasing, ofObject]

theorem canonical_items_eq (items : List Value) (sorted : CanonicalItems items) :
    canonicalItems items = items := by
  cases items with
  | nil => rfl
  | cons head tail =>
      rw [canonicalItems, canonical_eq head sorted.1, canonical_items_eq tail sorted.2]

theorem canonical_members_eq (members : List (String × Value))
    (sorted : CanonicalMembers members) : canonicalMembers members = members := by
  cases members with
  | nil => rfl
  | cons head tail =>
      obtain ⟨key, value⟩ := head
      rw [canonicalMembers, canonical_eq value sorted.1, canonical_members_eq tail sorted.2]

end

mutual

theorem canonical_canonical (value : Value) : value.canonical.Canonical := by
  cases value with
  | null | bool | number | string => trivial
  | array items => exact canonical_canonical_items items
  | object members =>
      refine ⟨(Table.ofList (canonicalMembers members)).increasing, canonical_members_iff.2 ?_⟩
      intro member belongs
      exact canonical_canonical_members members member (Table.mem_of_list belongs)

theorem canonical_canonical_items (items : List Value) :
    CanonicalItems (canonicalItems items) := by
  cases items with
  | nil => trivial
  | cons head tail => exact ⟨canonical_canonical head, canonical_canonical_items tail⟩

theorem canonical_canonical_members (members : List (String × Value)) :
    ∀ member ∈ canonicalMembers members, member.2.Canonical := by
  cases members with
  | nil =>
      intro member none
      cases none
  | cons head tail =>
      obtain ⟨key, value⟩ := head
      intro member belongs
      rcases List.mem_cons.1 belongs with rfl | later
      · exact canonical_canonical value
      · exact canonical_canonical_members tail member later

end

mutual

/-- Where every number is read as itself, reading makes a value canonical and nothing else. -/
theorem reread_eq_canonical (value : Value)
    (numbers : value.EveryNumber fun number => number.reread = number) :
    value.reread = value.canonical := by
  cases value with
  | null | bool | string => rfl
  | number content => exact congrArg Value.number numbers
  | array items => rw [reread, canonical, reread_items_eq_canonical items numbers]
  | object members => rw [reread, canonical, reread_members_eq_canonical members numbers]

theorem reread_items_eq_canonical (items : List Value)
    (numbers : EveryNumberItems (fun number => number.reread = number) items) :
    rereadItems items = canonicalItems items := by
  cases items with
  | nil => rfl
  | cons head tail =>
      rw [rereadItems, canonicalItems, reread_eq_canonical head numbers.1,
        reread_items_eq_canonical tail numbers.2]

theorem reread_members_eq_canonical (members : List (String × Value))
    (numbers : EveryNumberMembers (fun number => number.reread = number) members) :
    rereadMembers members = canonicalMembers members := by
  cases members with
  | nil => rfl
  | cons head tail =>
      obtain ⟨key, value⟩ := head
      rw [rereadMembers, canonicalMembers, reread_eq_canonical value numbers.1,
        reread_members_eq_canonical tail numbers.2]

end

mutual

theorem EveryNumber.canonical {kind : Number → Prop} (value : Value)
    (every : value.EveryNumber kind) : value.canonical.EveryNumber kind := by
  cases value with
  | null | bool | string => trivial
  | number content => exact every
  | array items => exact every_number_canonical_items items every
  | object members =>
      apply every_number_members_iff.2
      intro member belongs
      exact every_number_canonical_members members every member (Table.mem_of_list belongs)

theorem every_number_canonical_items {kind : Number → Prop} (items : List Value)
    (every : EveryNumberItems kind items) : EveryNumberItems kind (canonicalItems items) := by
  cases items with
  | nil => trivial
  | cons head tail =>
      exact ⟨EveryNumber.canonical head every.1, every_number_canonical_items tail every.2⟩

theorem every_number_canonical_members {kind : Number → Prop} (members : List (String × Value))
    (every : EveryNumberMembers kind members) :
    ∀ member ∈ canonicalMembers members, member.2.EveryNumber kind := by
  cases members with
  | nil =>
      intro member none
      cases none
  | cons head tail =>
      obtain ⟨key, value⟩ := head
      intro member belongs
      rcases List.mem_cons.1 belongs with rfl | later
      · exact EveryNumber.canonical value every.1
      · exact every_number_canonical_members tail every.2 member later

end

theorem reread_eq_self {value : Value} (sorted : value.Canonical)
    (numbers : value.EveryNumber fun number => number.reread = number) :
    value.reread = value := by
  rw [reread_eq_canonical value numbers, canonical_eq value sorted]

theorem reread_of_parse {number : Number}
    (read : parse (String.ofList number.text) = .ok (.number number)) :
    number.reread = number := by
  have flat : (Value.number number).depth ≤ nestingLimit := Nat.zero_le _
  have reread := parse_compact flat
  rw [compact, compactChars, Value.reread] at reread
  rw [reread] at read
  injection read with same
  injection same

theorem EveryNumber.reread {value : Value}
    (floats : value.EveryNumber fun number => number.isFloat = true →
      parse (String.ofList number.text) = .ok (.number number)) :
    value.EveryNumber fun number => number.reread = number := by
  apply floats.imp
  intro number readBack
  cases number with
  | integer whole inRange => exact Number.reread_integer inRange
  | float content => exact reread_of_parse (readBack rfl)

/-- What is stored for a canonical value is read as the value. -/
theorem parse_stored_text {value : Value} (sorted : value.Canonical)
    (shallow : value.depth ≤ nestingLimit)
    (numbers : value.EveryNumber fun number => number.reread = number) :
    parse value.storedText = .ok value := by
  rw [storedText, canonical_eq value sorted, parse_compact shallow, reread_eq_self sorted numbers]

mutual

theorem depth_reread (value : Value) (sorted : value.Canonical) :
    value.reread.depth = value.depth := by
  cases value with
  | null | bool | number | string => rfl
  | array items => rw [reread, depth, depth, depth_reread_items items sorted]
  | object members =>
      have order : Increasing (rereadMembers members) := by
        rw [reread_members_eq]
        exact List.pairwise_map.2 sorted.1
      rw [reread, Table.of_list_entries order, ofObject, depth, depth,
        depth_reread_members members sorted.2]

theorem depth_reread_items (items : List Value) (sorted : CanonicalItems items) :
    depthItems (rereadItems items) = depthItems items := by
  cases items with
  | nil => rfl
  | cons head tail =>
      rw [rereadItems, depthItems, depthItems, depth_reread head sorted.1,
        depth_reread_items tail sorted.2]

theorem depth_reread_members (members : List (String × Value))
    (sorted : CanonicalMembers members) :
    depthMembers (rereadMembers members) = depthMembers members := by
  cases members with
  | nil => rfl
  | cons head tail =>
      obtain ⟨key, value⟩ := head
      rw [rereadMembers, depthMembers, depthMembers, depth_reread value sorted.1,
        depth_reread_members tail sorted.2]

end

end Value

end UnitState.Json
