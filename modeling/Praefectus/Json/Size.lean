import Praefectus.Json.Value
import Praefectus.Text.Trim

/-!
# How long JSON text is

A bound on the text of a value that is read off its parts without printing them.
-/

namespace Json

mutual

/-- A bound on the number of characters of the text. -/
def span : Json → Nat
  | .null => 4
  | .bool _ => 5
  | .int n => (printInt n.value).length
  | .float value => value.text.length
  | .str value => 6 * value.length + 2
  | .arr items => spanItems items + 2
  | .obj members => spanMembers members + 2

def spanItems : List Json → Nat
  | [] => 0
  | item :: items => item.span + spanItems items + 1

def spanMembers : List (String × Json) → Nat
  | [] => 0
  | (key, value) :: members => 6 * key.length + value.span + spanMembers members + 4

end

theorem spanItems_le {items : List Json} {bound : Nat} (each : ∀ item ∈ items, item.span ≤ bound) :
    spanItems items ≤ items.length * (bound + 1) := by
  induction items with
  | nil => simp [spanItems]
  | cons item items ih =>
    obtain ⟨first, rest⟩ := List.forall_mem_cons.mp each
    have later := ih rest
    rw [spanItems, List.length_cons, Nat.succ_mul]
    omega

theorem escapeChar_length (c : Char) : (escapeChar c).length ≤ 6 := by
  unfold escapeChar
  split_ifs <;> simp

theorem printString_length (s : String) : (printString s).length ≤ 6 * s.length + 2 := by
  have escaped : ∀ text : List Char, (text.flatMap escapeChar).length ≤ 6 * text.length := by
    intro text
    induction text with
    | nil => simp
    | cons c text ih =>
      have one := escapeChar_length c
      simp only [List.flatMap_cons, List.length_append, List.length_cons]
      omega
  have bound := escaped s.toList
  rw [String.length_toList] at bound
  simp only [printString_eq, List.length_cons, List.length_append, List.length_nil]
  omega

theorem printRest_length {items : List Json} (each : ∀ item ∈ items, item.print.length ≤ item.span) :
    (printRest items).length ≤ spanItems items + 1 := by
  induction items with
  | nil => simp [printRest]
  | cons item items ih =>
    obtain ⟨first, rest⟩ := List.forall_mem_cons.mp each
    have later := ih rest
    simp only [printRest, spanItems, List.length_cons, List.length_append]
    omega

theorem printMore_length {members : List (String × Json)}
    (each : ∀ member ∈ members, member.2.print.length ≤ member.2.span) :
    (printMore members).length ≤ spanMembers members + 1 := by
  induction members with
  | nil => simp [printMore]
  | cons member members ih =>
    obtain ⟨key, value⟩ := member
    obtain ⟨first, rest⟩ := List.forall_mem_cons.mp each
    have later := ih rest
    have named := printString_length key
    simp only [printMore, spanMembers, List.length_cons, List.length_append] at first ⊢
    omega

theorem print_length (j : Json) : j.print.length ≤ j.span := by
  induction j using Json.induction with
  | null => simp [print, span]
  | bool value => cases value <;> simp [print, span]
  | int value => simp [print, span]
  | float value => simp [print, span]
  | str value =>
    rw [print, span]
    exact printString_length value
  | arr items each =>
    cases items with
    | nil => simp [print, printItems, span, spanItems]
    | cons item items =>
      obtain ⟨first, rest⟩ := List.forall_mem_cons.mp each
      have later := printRest_length rest
      simp only [print, printItems, span, spanItems, List.length_cons, List.length_append]
      omega
  | obj members each =>
    cases members with
    | nil => simp [print, printMembers, span, spanMembers]
    | cons member members =>
      obtain ⟨key, value⟩ := member
      obtain ⟨first, rest⟩ := List.forall_mem_cons.mp each
      have later := printMore_length rest
      have named := printString_length key
      simp only [print, printMembers, span, spanMembers, List.length_cons, List.length_append]
        at first ⊢
      omega

/-- A character takes at most four bytes. -/
theorem utf8_length_le (text : List Char) : (utf8 text).length ≤ 4 * text.length := by
  induction text with
  | nil => simp [utf8]
  | cons c text ih =>
    have size := Char.utf8Size_le_four c
    simp only [utf8_cons, List.length_append, List.length_cons, String.length_utf8EncodeChar]
    omega

theorem print_bytes (j : Json) : (utf8 j.print).length ≤ 4 * j.span := by
  have chars := print_length j
  have bytes := utf8_length_le j.print
  omega

end Json
