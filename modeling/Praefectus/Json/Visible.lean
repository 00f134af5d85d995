import Praefectus.Json.RoundTrip

/-!
# Printed text has no line break

Compact text escapes control characters, so one printed value is one line.
-/

namespace Json

/-- The characters of printed text: no control characters. -/
def Visible (text : List Char) : Prop := ∀ c ∈ text, 32 ≤ c.toNat

theorem visible_append {a b : List Char} : Visible (a ++ b) ↔ Visible a ∧ Visible b :=
  List.forall_mem_append

theorem visible_cons {c : Char} {text : List Char} :
    Visible (c :: text) ↔ 32 ≤ c.toNat ∧ Visible text :=
  List.forall_mem_cons

theorem visible_nil : Visible [] := List.forall_mem_nil _

theorem visible_digit {c : Char} (digit : c.isDigit = true) : 32 ≤ c.toNat := by
  simp only [Char.isDigit, Bool.and_eq_true, decide_eq_true_eq] at digit
  have low : '0'.val ≤ c.val := digit.1
  have := UInt32.le_iff_toNat_le.mp low
  exact Nat.le_trans (by decide) this

theorem visible_digits {digits : List Char} (all : digits.all Char.isDigit) : Visible digits :=
  fun c member => visible_digit (List.all_eq_true.mp all c member)

theorem digitChar_visible : ∀ n < 16, 32 ≤ (Nat.digitChar n).toNat := by decide

theorem escapeChar_visible (c : Char) : Visible (escapeChar c) := by
  have short : ∀ d ∈ ['"', '\\', 'n', 'r', 't', 'b', 'f'], Visible ['\\', d] := by
    simp [Visible]
  unfold escapeChar
  split
  next => exact short _ (by decide)
  split
  next => exact short _ (by decide)
  split
  next high => exact visible_cons.mpr ⟨high, visible_nil⟩
  split
  next => exact short _ (by decide)
  split
  next => exact short _ (by decide)
  split
  next => exact short _ (by decide)
  split
  next => exact short _ (by decide)
  split
  next => exact short _ (by decide)
  next low _ _ _ _ _ =>
    have first := digitChar_visible (c.toNat / 16) (by omega)
    have second := digitChar_visible (c.toNat % 16) (by omega)
    simp only [visible_cons, first, second, visible_nil, and_true]
    decide

theorem printString_visible (s : String) : Visible (printString s) := by
  rw [printString_eq]
  refine visible_append.mpr ⟨visible_cons.mpr ⟨by decide, ?_⟩, visible_cons.mpr ⟨by decide, visible_nil⟩⟩
  intro c member
  obtain ⟨d, _, within⟩ := List.mem_flatMap.mp member
  exact escapeChar_visible d c within

theorem printInt_visible (n : Int) : Visible (printInt n) := by
  cases n with
  | ofNat n => exact visible_digits (isWhole_toDigits n).2.1
  | negSucc n => exact visible_cons.mpr ⟨by decide, visible_digits (isWhole_toDigits (n + 1)).2.1⟩

theorem readFraction_visible {fraction : List Char}
    (isFraction : readFraction fraction = some (fraction, [])) : Visible fraction := by
  unfold readFraction at isFraction
  split at isFraction
  next digits =>
    rcases spanned : digits.span Char.isDigit with ⟨ds, left⟩
    simp only [spanned] at isFraction
    split at isFraction
    next => contradiction
    next =>
      simp only [Option.some.injEq, Prod.mk.injEq, List.cons.injEq, true_and] at isFraction
      obtain ⟨rfl, rfl⟩ := isFraction
      exact visible_cons.mpr ⟨by decide, visible_digits (span_all spanned).2⟩
  next =>
    simp only [Option.some.injEq, Prod.mk.injEq] at isFraction
    obtain ⟨rfl, _⟩ := isFraction
    exact visible_nil

theorem splitSign_visible {text sign digits : List Char}
    (split : splitSign text = (sign, digits)) : Visible sign := by
  unfold splitSign at split
  split at split
  next =>
    obtain ⟨rfl, _⟩ := Prod.mk.inj split
    exact visible_cons.mpr ⟨by decide, visible_nil⟩
  next =>
    obtain ⟨rfl, _⟩ := Prod.mk.inj split
    exact visible_cons.mpr ⟨by decide, visible_nil⟩
  next =>
    obtain ⟨rfl, _⟩ := Prod.mk.inj split
    exact visible_nil

theorem readExponent_visible {exponent : List Char}
    (isExponent : readExponent exponent = some (exponent, [])) : Visible exponent := by
  cases exponent with
  | nil => exact visible_nil
  | cons c text =>
    unfold readExponent at isExponent
    simp only at isExponent
    split at isExponent
    next isE =>
      rcases signed : splitSign text with ⟨sign, after⟩
      rcases spanned : after.span Char.isDigit with ⟨digits, left⟩
      simp only [signed, spanned] at isExponent
      split at isExponent
      next => contradiction
      next =>
        simp only [Option.some.injEq, Prod.mk.injEq, List.cons_append, List.cons.injEq,
          true_and] at isExponent
        rw [← isExponent.1]
        refine visible_cons.mpr ⟨?_, visible_append.mpr
          ⟨splitSign_visible signed, visible_digits (span_all spanned).2⟩⟩
        rcases isE with rfl | rfl <;> decide
    next => simp at isExponent

theorem float_visible (f : FloatLiteral) : Visible f.text := by
  refine visible_append.mpr ⟨visible_append.mpr ⟨visible_append.mpr ⟨?_, ?_⟩, ?_⟩, ?_⟩
  · split
    · exact visible_cons.mpr ⟨by decide, visible_nil⟩
    · exact visible_nil
  · exact visible_digits f.isWhole.2.1
  · exact readFraction_visible f.isFraction
  · exact readExponent_visible f.isExponent

theorem printRest_visible {items : List Json} (each : ∀ item ∈ items, Visible item.print) :
    Visible (printRest items) := by
  induction items with
  | nil => exact visible_cons.mpr ⟨by decide, visible_nil⟩
  | cons item items ih =>
    obtain ⟨first, others⟩ := List.forall_mem_cons.mp each
    exact visible_append.mpr ⟨visible_cons.mpr ⟨by decide, first⟩, ih others⟩

theorem printMore_visible {members : List (String × Json)}
    (each : ∀ member ∈ members, Visible member.2.print) : Visible (printMore members) := by
  induction members with
  | nil => exact visible_cons.mpr ⟨by decide, visible_nil⟩
  | cons member members ih =>
    obtain ⟨key, value⟩ := member
    obtain ⟨first, others⟩ := List.forall_mem_cons.mp each
    have member : Visible (printString key ++ ':' :: value.print) :=
      visible_append.mpr ⟨printString_visible key, visible_cons.mpr ⟨by decide, first⟩⟩
    exact visible_append.mpr ⟨visible_cons.mpr ⟨by decide, member⟩, ih others⟩

/-- Printed text has no control characters, and so no line break. -/
theorem print_visible (j : Json) : Visible j.print := by
  induction j using Json.induction with
  | null => simp [Visible, print]
  | bool value => cases value <;> simp [Visible, print]
  | int n => exact printInt_visible n.value
  | float f => exact float_visible f
  | str s => exact printString_visible s
  | arr items each =>
    refine visible_cons.mpr ⟨by decide, ?_⟩
    cases items with
    | nil => exact visible_cons.mpr ⟨by decide, visible_nil⟩
    | cons item items =>
      obtain ⟨first, others⟩ := List.forall_mem_cons.mp each
      exact visible_append.mpr ⟨first, printRest_visible others⟩
  | obj members each =>
    refine visible_cons.mpr ⟨by decide, ?_⟩
    cases members with
    | nil => exact visible_cons.mpr ⟨by decide, visible_nil⟩
    | cons member members =>
      obtain ⟨key, value⟩ := member
      obtain ⟨first, others⟩ := List.forall_mem_cons.mp each
      have member : Visible (printString key ++ ':' :: value.print) :=
        visible_append.mpr ⟨printString_visible key, visible_cons.mpr ⟨by decide, first⟩⟩
      exact visible_append.mpr ⟨member, printMore_visible others⟩

end Json
