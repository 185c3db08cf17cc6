import Mathlib.Data.List.Lex
import UnitState.Table

/-!
# The byte order of text keys

Text keys are ordered by their characters. This is the order of their UTF-8 encodings, byte by
byte: of two characters the greater one has the greater encoding at the first byte in which the
encodings differ, and there is such a byte, because no encoding starts another one.
-/

set_option autoImplicit false

namespace UnitState

def bytes (text : String) : List UInt8 := text.toUTF8.data.toList

theorem bytes_eq_flat_map (text : String) :
    bytes text = text.toList.flatMap String.utf8EncodeChar := by
  have encoded : text.toUTF8 = (text.toList.flatMap String.utf8EncodeChar).toByteArray := by
    conv_lhs => rw [← String.ofList_toList (s := text)]
    rfl
  rw [bytes, encoded, List.toList_data_toByteArray]

theorem bytes_append (left right : String) : bytes (left ++ right) = bytes left ++ bytes right := by
  rw [bytes_eq_flat_map, bytes_eq_flat_map, bytes_eq_flat_map, String.toList_append,
    List.flatMap_append]

theorem byte_eq_iff {left right : Nat} (leftSmall : left < 256) (rightSmall : right < 256) :
    UInt8.ofNat left = UInt8.ofNat right ↔ left = right := by
  rw [← UInt8.toNat_inj, UInt8.toNat_ofNat_of_lt' leftSmall, UInt8.toNat_ofNat_of_lt' rightSmall]

theorem byte_lt_iff {left right : Nat} (leftSmall : left < 256) (rightSmall : right < 256) :
    UInt8.ofNat left < UInt8.ofNat right ↔ left < right :=
  UInt8.ofNat_lt_iff_lt leftSmall rightSmall

theorem digits_lt {low high : Nat} (less : low < high) (bound : high < 1114112) :
    low / 262144 % 8 < high / 262144 % 8 ∨ low / 262144 % 8 = high / 262144 % 8 ∧
      (low / 4096 % 64 < high / 4096 % 64 ∨ low / 4096 % 64 = high / 4096 % 64 ∧
        (low / 64 % 64 < high / 64 % 64 ∨ low / 64 % 64 = high / 64 % 64 ∧
          low % 64 < high % 64)) := by
  have step : ∀ {left right : Nat}, left < right →
      left / 64 < right / 64 ∨ left / 64 = right / 64 ∧ left % 64 < right % 64 := by
    omega
  have digits : ∀ {number : Nat}, number < 1114112 →
      number / 262144 % 8 = number / 64 / 64 / 64 ∧ number / 4096 % 64 = number / 64 / 64 % 64 := by
    omega
  rw [(digits (less.trans bound)).1, (digits (less.trans bound)).2, (digits bound).1,
    (digits bound).2]
  rcases step less with higher | ⟨same, last⟩
  · rcases step higher with higher | ⟨same, third⟩
    · rcases step higher with first | ⟨same, second⟩
      · exact .inl first
      · exact .inr ⟨same, .inl second⟩
    · rw [same]
      exact .inr ⟨rfl, .inr ⟨rfl, .inl third⟩⟩
  · rw [same]
    exact .inr ⟨rfl, .inr ⟨rfl, .inr ⟨rfl, last⟩⟩⟩

/-- The encodings of two characters differ in a byte, whatever follows them. -/
theorem encoded_lt {left right : Char} (less : left < right) (leftRest rightRest : List UInt8) :
    String.utf8EncodeChar left ++ leftRest < String.utf8EncodeChar right ++ rightRest := by
  have numbers : left.val.toNat < right.val.toNat := less
  have bound : right.val.toNat < 1114112 := by
    have valid := right.valid
    unfold UInt32.isValidChar Nat.isValidChar at valid
    omega
  unfold String.utf8EncodeChar
  generalize left.val.toNat = low at *
  generalize right.val.toNat = high at *
  have digits := digits_lt numbers bound
  dsimp only
  -- shorter encodings start with lesser bytes, and of two as long the digits decide
  split_ifs <;> simp only [List.cons_append, List.cons_lt_cons_iff] <;>
    simp (disch := omega) only [byte_eq_iff, byte_lt_iff] <;> omega

theorem bytes_lt_of_lt {left right : List Char} (less : left < right) :
    left.flatMap String.utf8EncodeChar < right.flatMap String.utf8EncodeChar := by
  induction left generalizing right with
  | nil =>
      cases right with
      | nil => exact absurd less (List.lt_irrefl [])
      | cons other later =>
          obtain ⟨first, rest, encoded⟩ :=
            List.exists_cons_of_ne_nil (String.utf8EncodeChar_ne_nil (c := other))
          rw [List.flatMap_nil, List.flatMap_cons, encoded]
          exact List.nil_lt_cons first _
  | cons head tail hypothesis =>
      cases right with
      | nil => cases less
      | cons other later =>
          rw [List.flatMap_cons, List.flatMap_cons]
          rcases List.cons_lt_cons_iff.1 less with first | ⟨same, rest⟩
          · exact encoded_lt first _ _
          · rw [same]
            exact List.append_left_lt (hypothesis rest)

theorem before_iff_bytes_lt {left right : String} :
    KeyOrder.before left right = true ↔ bytes left < bytes right := by
  have order : ∀ {left right : String}, KeyOrder.before left right = true →
      bytes left < bytes right := by
    intro left right before
    rw [bytes_eq_flat_map, bytes_eq_flat_map]
    exact bytes_lt_of_lt (String.lt_iff.1 (of_decide_eq_true before))
  constructor
  · exact order
  · intro less
    by_contra notBefore
    have late : KeyOrder.before left right = false := eq_false_of_ne_true notBefore
    cases early : KeyOrder.before right left with
    | true => exact List.lt_asymm less (order early)
    | false =>
        rw [KeyOrder.connected late early] at less
        exact List.lt_irrefl _ less

end UnitState
