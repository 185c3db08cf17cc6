import UnitState.Proofs.RecordReading

/-!
# Reading indented values

A value that is written with one item or member a line is read by the typed decoders as from one
line: what stands between its tokens are line breaks and blanks. Each way to put a decoder together
keeps that the decoder restores what a value was made of.
-/

set_option autoImplicit false

namespace UnitState.Json

namespace Value

/-! ## Shapes of indented texts -/

theorem line_break_gap (level : Nat) : Gap (lineBreak level) := by
  refine .inr ⟨_, rfl, fun character member => ?_⟩
  rw [List.eq_of_mem_replicate member]
  rfl

theorem indented_starts (value : Value) (level : Nat) : Starts (value.indentedChars level) := by
  cases value with
  | null => exact compact_starts .null
  | bool flag =>
      cases flag with
      | true => exact compact_starts (.bool true)
      | false => exact compact_starts (.bool false)
  | number content => exact compact_starts (.number content)
  | string text => exact compact_starts (.string text)
  | array items => cases items <;> exact ⟨'[', _, rfl, rfl, by decide⟩
  | object members => cases members <;> exact ⟨'\x7b', _, rfl, rfl, by decide⟩

def indentedItem (level : Nat) (item : Value) : List Char :=
  lineBreak level ++ item.indentedChars level

def indentedMember (level : Nat) (member : String × Value) : String × List Char :=
  (member.1, ' ' :: member.2.indentedChars level)

theorem indented_items_eq (level : Nat) (items : List Value) :
    indentedItems level items = separated (indentedItem level) items := by
  induction items with
  | nil => rfl
  | cons head tail hypothesis =>
      cases tail with
      | nil => simp [indentedItems, separated, following, indentedItem]
      | cons next later =>
          rw [indentedItems, hypothesis]
          · simp [separated, following, indentedItem]
          · exact List.cons_ne_nil next later

theorem indented_members_eq (level : Nat) (members : List (String × Value)) :
    indentedMembers level members =
      separated (Decoder.fieldText (lineBreak level)) (members.map (indentedMember level)) := by
  induction members with
  | nil => rfl
  | cons head tail hypothesis =>
      cases tail with
      | nil =>
          simp [indentedMembers, separated, following, Decoder.fieldText, indentedMember]
      | cons next later =>
          rw [indentedMembers, hypothesis]
          · simp [separated, following, Decoder.fieldText, indentedMember]
          · exact List.cons_ne_nil next later

theorem indented_array_eq (level : Nat) (items : List Value) :
    ∃ outer, Gap outer ∧ (array items).indentedChars level =
      '[' :: (separated (indentedItem (level + 1)) items ++ outer ++ [']']) := by
  cases items with
  | nil => exact ⟨[], .none, rfl⟩
  | cons head tail =>
      refine ⟨lineBreak level, line_break_gap level, ?_⟩
      rw [indentedChars, indented_items_eq]
      rfl

theorem indented_object_eq (level : Nat) (members : List (String × Value)) :
    ∃ outer, Gap outer ∧ (object members).indentedChars level =
      '\x7b' :: (separated (Decoder.fieldText (lineBreak (level + 1)))
        (members.map (indentedMember (level + 1))) ++ outer ++ ['\x7d']) := by
  cases members with
  | nil => exact ⟨[], .none, rfl⟩
  | cons head tail =>
      refine ⟨lineBreak level, line_break_gap level, ?_⟩
      rw [indentedChars, indented_members_eq]
      rfl

end Value

namespace Decoder

open Reader Value

/-- Whether a decoder takes the indented text of a value, whatever its level, for a result. -/
structure Restores {Result : Type} (decoder : Decoder Result) (room : Nat) (value : Value)
    (result : Result) : Prop where
  skips : SkipsBlanks (decoder room)
  reads : ∀ level rest, Delimited rest →
    Reads (decoder room) (value.indentedChars level) result rest

variable {State Result : Type} {room : Nat}

/-! ## Scalars -/

theorem text_restores (content : String) (room : Nat) :
    text.Restores room (.string content) content where
  skips := (SkipsBlanks.token _).located
  reads _ rest _ := text_reads content room rest

theorem optional_text_restores (content : Option String) (room : Nat) :
    (optional text).Restores room (content.elim .null .string) content where
  skips := .token _
  reads level rest delimited := by
    cases content with
    | none =>
        apply Reads.token_at rfl rfl
        exact Reads.discard ((name_reads "ull".toList rest).map fun _ => none)
    | some content =>
        apply Reads.token_at rfl rfl
        exact (text_reads content room rest).map some

def IntegerType.Holds (type : IntegerType) (value : Int) : Prop :=
  type.least ≤ value ∧ value ≤ type.greatest

theorem IntegerType.Holds.in_range {type : IntegerType} {value : Int} (holds : type.Holds value) :
    InIntegerRange value := by
  obtain ⟨least, greatest⟩ := holds
  unfold InIntegerRange
  cases type <;> simp only [IntegerType.least, IntegerType.greatest] at least greatest <;> omega

theorem integer_restores {type : IntegerType} {value : Int} (holds : type.Holds value)
    (room : Nat) : (integer type).Restores room (.ofInt value) value where
  skips := (SkipsBlanks.token _).located
  reads level rest delimited := by
    have inRange := holds.in_range
    have shape : (Value.ofInt value).indentedChars level =
        (Value.number (.integer value inRange)).compactChars := by
      simp only [ofInt, Number.ofInt?, dif_pos inRange, indentedChars, compactChars]
    obtain ⟨head, tail, starts, noSpace, _⟩ :=
      compact_starts (.number (.integer value inRange))
    obtain ⟨first, others, text, lead⟩ := (Number.integer value inRange).text_starts
    obtain ⟨rfl, rfl⟩ : head = first ∧ tail = others := List.cons.inj (starts.symm.trans text)
    have reads := integer_reads inRange delimited
    rw [shape]
    apply Reads.located
    apply Reads.token_at starts noSpace
    simp only [if_pos lead]
    apply reads.last
    have bounds : type.least ≤ value ∧ value ≤ type.greatest := holds
    simp only [if_pos bounds]
    exact Reads.pure value rest

/-! ## Lists and records -/

theorem list_restores {decoder : Decoder Result} {toValue : Result → Value} {results : List Result}
    (restores : ∀ result ∈ results, decoder.Restores room (toValue result) result) :
    (list decoder).Restores (room + 1) (.array (results.map toValue)) results where
  skips := (SkipsBlanks.token _).located
  reads level rest _ := by
    obtain ⟨outer, gapped, shape⟩ := indented_array_eq level (results.map toValue)
    have items := spread_list_reads (line_break_gap (level + 1)) gapped
      (fun result _ => (toValue result).indented_starts (level + 1))
      (fun result member => (restores result member).reads (level + 1)) rest
    rw [List.map_id'] at items
    rw [shape, separated_map]
    exact (Reads.token_at rfl rfl items).located

theorem FieldsRead.slot {Content : Type} {fields : List (Field State)} {name : String}
    {get : State → Option Content} {set : State → Content → State} {decoder : Decoder Content}
    {value : Value} {content : Content} {state final : State} {level : Nat}
    {later : List (String × Value)} (restores : decoder.Restores room value content)
    (found : (fields.find? fun other => other.name == name) =
      some (Decoder.slot name get set decoder))
    (unset : get state = none)
    (further :
      FieldsRead fields room (set state content) (later.map (indentedMember level)) final) :
    FieldsRead fields room state (((name, value) :: later).map (indentedMember level)) final := by
  refine .field (Decoder.slot name get set decoder) found ?_ ?_ further
  · exact congrArg Option.isSome unset
  · intro rest delimited
    have blank : Blank [' '] := by
      intro character member
      rw [List.mem_singleton.1 member]
      rfl
    have reads := Reads.behind_blanks restores.skips blank (restores.reads level rest delimited)
    exact reads.map (set state)

theorem record_restores (expected : String) {fields : List (Field State)} {initial final : State}
    (finish : State → Except Cause Result) {members : List (String × Value)} {result : Result}
    (read : ∀ level, FieldsRead fields room initial (members.map (indentedMember level)) final)
    (finished : finish final = .ok result) :
    (record expected fields initial finish).Restores (room + 1) (.object members) result where
  skips := (SkipsBlanks.token _).located
  reads level rest _ := by
    obtain ⟨outer, gapped, shape⟩ := indented_object_eq level members
    rw [shape]
    exact record_reads expected finish (line_break_gap (level + 1)) gapped (read (level + 1))
      finished rest

/-- The indented text of a document is read, whatever blanks stand behind it. -/
theorem Restores.run {decoder : Decoder Result} {value : Value} {result : Result}
    (restores : decoder.Restores nestingLimit value result) {blanks : List Char}
    (gapped : Gap blanks) :
    decoder.run (value.indented ++ String.ofList blanks) = .ok result := by
  have reads := restores.reads 0 blanks (List.append_nil blanks ▸ gapped.delimited (.inl rfl))
  have whole := read_all_reads_before reads gapped.blank
  rwa [String.ofList_append] at whole

end Decoder

end UnitState.Json
