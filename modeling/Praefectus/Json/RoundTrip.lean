import Praefectus.Json.Parse
import Mathlib.Data.List.TakeDrop

/-!
# What was printed is read back

The reader returns every printed value, whatever follows it. Printing is
therefore injective.
-/

/-! ### Strings -/

theorem hexUnit_low : ∀ n < 32,
    hexUnit '0' '0' (Nat.digitChar (n / 16)) (Nat.digitChar (n % 16)) = some n := by decide

theorem char_ofNat_toNat (c : Char) : Char.ofNat c.toNat = c := Char.ofNat_toNat c

theorem readEscape_control {c : Char} (low : c.toNat < 32) (rest : List Char) :
    readEscape (['u', '0', '0', Nat.digitChar (c.toNat / 16), Nat.digitChar (c.toNat % 16)] ++ rest)
      = some (c, rest) := by
  have unit := hexUnit_low c.toNat low
  simp only [readEscape, if_true, List.cons_append, List.nil_append, readUnicode, unit,
    Option.bind_eq_bind, Option.bind_some]
  rw [if_neg (by omega), if_neg (by omega), char_ofNat_toNat]
  rfl

/-- A character is written as itself or as an escape that reads back to it. -/
theorem escapeChar_cases (c : Char) :
    (escapeChar c = [c] ∧ c ≠ '"' ∧ c ≠ '\\' ∧ ¬ c.toNat < 32) ∨
    ∃ code, escapeChar c = '\\' :: code ∧ ∀ rest, readEscape (code ++ rest) = some (c, rest) := by
  unfold escapeChar
  split_ifs with quote slash high line carriage tab backspace feed
  · obtain rfl := Char.toNat_inj.mp quote
    exact .inr ⟨['"'], rfl, fun _ => rfl⟩
  · obtain rfl := Char.toNat_inj.mp slash
    exact .inr ⟨['\\'], rfl, fun _ => rfl⟩
  · have unquoted : c ≠ '"' := fun same => quote (congrArg Char.toNat same)
    have unslashed : c ≠ '\\' := fun same => slash (congrArg Char.toNat same)
    exact .inl ⟨rfl, unquoted, unslashed, Nat.not_lt.mpr high⟩
  · subst line
    exact .inr ⟨['n'], rfl, fun _ => rfl⟩
  · subst carriage
    exact .inr ⟨['r'], rfl, fun _ => rfl⟩
  · subst tab
    exact .inr ⟨['t'], rfl, fun _ => rfl⟩
  · subst backspace
    exact .inr ⟨['b'], rfl, fun _ => rfl⟩
  · subst feed
    exact .inr ⟨['f'], rfl, fun _ => rfl⟩
  · exact .inr ⟨_, rfl, readEscape_control (Nat.lt_of_not_le high)⟩

theorem readChars_escaped (cs : List Char) (rest : List Char) (fuel : Nat)
    (enough : cs.length < fuel) :
    readChars fuel (cs.flatMap escapeChar ++ '"' :: rest) = some (cs, rest) := by
  induction cs generalizing fuel with
  | nil =>
    cases fuel with
    | zero => omega
    | succ fuel => rfl
  | cons c cs ih =>
    cases fuel with
    | zero => omega
    | succ fuel =>
      have tail := ih fuel (by simpa only [List.length_cons, Nat.add_lt_add_iff_right] using enough)
      rw [List.flatMap_cons, List.append_assoc]
      rcases escapeChar_cases c with ⟨plain, quote, slash, high⟩ | ⟨code, escaped, back⟩
      · rw [plain]
        simp only [List.cons_append, List.nil_append, readChars, if_neg quote, if_neg slash,
          if_neg high, tail, Option.bind_eq_bind, Option.bind_some]
        rfl
      · rw [escaped]
        have escape : '\\' ≠ '"' := by decide
        simp only [List.cons_append, readChars, if_neg escape, if_true, back, tail,
          Option.bind_eq_bind, Option.bind_some]
        rfl

theorem escapeChar_length (c : Char) : 0 < (escapeChar c).length := by
  rcases escapeChar_cases c with ⟨plain, _⟩ | ⟨code, escaped, _⟩
  · rw [plain]; exact Nat.one_pos
  · rw [escaped]; exact Nat.succ_pos _

theorem escaped_length (cs : List Char) : cs.length ≤ (cs.flatMap escapeChar).length := by
  induction cs with
  | nil => exact Nat.le_refl _
  | cons c cs ih =>
    have := escapeChar_length c
    simp only [List.flatMap_cons, List.length_append, List.length_cons]
    omega

theorem readString_print (s : String) (rest : List Char) :
    readString (s.toList.flatMap escapeChar ++ '"' :: rest) = some (s, rest) := by
  have enough : s.toList.length < (s.toList.flatMap escapeChar ++ '"' :: rest).length + 1 := by
    have := escaped_length s.toList
    simp only [List.length_append, List.length_cons]
    omega
  rw [readString, readChars_escaped _ _ _ enough]
  simp only [Option.map_some, String.ofList_toList]

/-! ### Numbers -/

/-- The text that may follow a value: its first character does not prolong a number. -/
def Delimited (rest : List Char) : Prop :=
  ∀ c, rest.head? = some c → c.isDigit = false ∧ c ≠ '.' ∧ c ≠ 'e' ∧ c ≠ 'E'

theorem delimited_nil : Delimited [] := fun _ h => nomatch h

theorem delimited_cons {c : Char} (rest : List Char)
    (stops : c.isDigit = false ∧ c ≠ '.' ∧ c ≠ 'e' ∧ c ≠ 'E') : Delimited (c :: rest) := by
  rintro _ ⟨rfl⟩
  exact stops

theorem span_digits {digits rest : List Char} (all : digits.all Char.isDigit)
    (stop : ∀ c, rest.head? = some c → c.isDigit = false) :
    (digits ++ rest).span Char.isDigit = (digits, rest) := by
  induction digits with
  | nil =>
    cases rest with
    | nil => rfl
    | cons c rest =>
      rw [List.span_eq_takeWhile_dropWhile]
      simp only [List.nil_append, List.takeWhile_cons, List.dropWhile_cons, stop c rfl, Bool.false_eq_true, if_false]
  | cons d digits ih =>
    simp only [List.all_cons, Bool.and_eq_true] at all
    have tail := ih all.2
    rw [List.span_eq_takeWhile_dropWhile] at tail ⊢
    rw [Prod.mk.injEq] at tail
    simp only [List.cons_append, List.takeWhile_cons, List.dropWhile_cons, all.1, if_true, tail.1,
      tail.2]

theorem span_all {text digits rest : List Char} (spanned : text.span Char.isDigit = (digits, rest)) :
    text = digits ++ rest ∧ digits.all Char.isDigit := by
  rw [List.span_eq_takeWhile_dropWhile, Prod.mk.injEq] at spanned
  obtain ⟨rfl, rfl⟩ := spanned
  exact ⟨(List.takeWhile_append_dropWhile).symm, List.all_takeWhile⟩

theorem readFraction_append {fraction rest : List Char}
    (isFraction : readFraction fraction = some (fraction, []))
    (stop : ∀ c, rest.head? = some c → c.isDigit = false ∧ c ≠ '.') :
    readFraction (fraction ++ rest) = some (fraction, rest) := by
  unfold readFraction at isFraction
  split at isFraction
  next digits =>
    rcases spanned : digits.span Char.isDigit with ⟨ds, left⟩
    simp only [spanned] at isFraction
    split at isFraction
    next => contradiction
    next some =>
      simp only [Option.some.injEq, Prod.mk.injEq, List.cons.injEq, true_and] at isFraction
      obtain ⟨rfl, rfl⟩ := isFraction
      have all := (span_all spanned).2
      simp only [List.cons_append, readFraction, span_digits all fun c h => (stop c h).1]
      exact if_neg some
  next =>
    simp only [Option.some.injEq, Prod.mk.injEq] at isFraction
    obtain ⟨rfl, _⟩ := isFraction
    cases rest with
    | nil => rfl
    | cons c rest =>
      have dot := (stop c rfl).2
      unfold readFraction
      split
      next same => exact absurd (List.cons.inj same).1 dot
      next => rfl

theorem splitSign_append {text sign digits : List Char} (rest : List Char)
    (split : splitSign text = (sign, digits)) (some : digits ≠ []) :
    splitSign (text ++ rest) = (sign, digits ++ rest) := by
  unfold splitSign at split
  split at split
  next => simp only [Prod.mk.injEq] at split; obtain ⟨rfl, rfl⟩ := split; rfl
  next => simp only [Prod.mk.injEq] at split; obtain ⟨rfl, rfl⟩ := split; rfl
  next plus minus =>
    simp only [Prod.mk.injEq] at split
    obtain ⟨rfl, rfl⟩ := split
    cases text with
    | nil => exact absurd rfl some
    | cons c text =>
      unfold splitSign
      split
      next same => exact absurd (congrArg (· :: text) (List.cons.inj same).1) (plus text)
      next same => exact absurd (congrArg (· :: text) (List.cons.inj same).1) (minus text)
      next => rfl

theorem readExponent_append {exponent rest : List Char}
    (isExponent : readExponent exponent = some (exponent, [])) (stop : Delimited rest) :
    readExponent (exponent ++ rest) = some (exponent, rest) := by
  cases exponent with
  | nil =>
    cases rest with
    | nil => rfl
    | cons c rest =>
      obtain ⟨_, _, lower, upper⟩ := stop c rfl
      exact if_neg (not_or.mpr ⟨lower, upper⟩)
  | cons c text =>
    unfold readExponent at isExponent
    simp only at isExponent
    split at isExponent
    next isE =>
      rcases signed : splitSign text with ⟨sign, after⟩
      rcases spanned : after.span Char.isDigit with ⟨digits, left⟩
      simp only [signed, spanned] at isExponent
      split at isExponent
      next => contradiction
      next some =>
        simp only [Option.some.injEq, Prod.mk.injEq] at isExponent
        obtain ⟨same, rfl⟩ := isExponent
        obtain ⟨rfl, all⟩ := span_all spanned
        rw [List.append_nil] at signed spanned
        have more : splitSign (text ++ rest) = (sign, digits ++ rest) :=
          splitSign_append rest signed some
        simp only [List.cons_append, readExponent, if_pos isE, more,
          span_digits all fun c h => (stop c h).1, if_neg some, Option.some.injEq, Prod.mk.injEq,
          and_true]
        exact same
    next => simp at isExponent

theorem toDigits_head {n : Nat} (positive : 0 < n) : (Nat.toDigits 10 n).head? ≠ some '0' := by
  induction n using Nat.strongRecOn with
  | ind n ih =>
    by_cases small : n < 10
    · rw [Nat.toDigits_of_lt_base small]
      have digit : ∀ m < 10, 0 < m → [Nat.digitChar m].head? ≠ some '0' := by decide
      exact digit n small positive
    · rw [Nat.toDigits_of_base_le (by omega) (by omega)]
      have shorter := ih (n / 10) (by omega) (by omega)
      rcases digits : Nat.toDigits 10 (n / 10) with _ | ⟨c, rest⟩
      · exact absurd digits Nat.toDigits_ne_nil
      · rw [digits] at shorter
        exact shorter

theorem isWhole_toDigits (n : Nat) : IsWhole (Nat.toDigits 10 n) := by
  refine ⟨Nat.toDigits_ne_nil, ?_, ?_⟩
  · exact List.all_eq_true.mpr fun c member => Nat.isDigit_of_mem_toDigits (by omega) (by omega) member
  · intro zero
    rcases Nat.eq_zero_or_pos n with rfl | positive
    · rfl
    · exact absurd zero (toDigits_head positive)

theorem digit_not_minus {c : Char} (digit : c.isDigit = true) : c ≠ '-' := by
  rintro rfl
  exact absurd digit (by decide)

theorem splitMinus_whole {whole : List Char} (isWhole : IsWhole whole) (rest : List Char) :
    splitMinus (whole ++ rest) = (false, whole ++ rest) := by
  obtain ⟨some, all, _⟩ := isWhole
  cases whole with
  | nil => exact absurd rfl some
  | cons c digits =>
    have digit : c.isDigit = true := (List.all_eq_true.mp all) c List.mem_cons_self
    unfold splitMinus
    split
    next same => exact absurd (List.cons.inj same).1 (digit_not_minus digit)
    next => rfl

/-- The parts of a number literal are found again, whatever delimited text follows. -/
theorem readNumber_parts {negative : Bool} {whole fraction exponent rest : List Char} {j : Json}
    (isWhole : IsWhole whole) (isFraction : readFraction fraction = some (fraction, []))
    (isExponent : readExponent exponent = some (exponent, [])) (stop : Delimited rest)
    (fractionStop : ∀ c, (exponent ++ rest).head? = some c → c.isDigit = false ∧ c ≠ '.')
    (wholeStop : ∀ c, (fraction ++ (exponent ++ rest)).head? = some c → c.isDigit = false)
    (number : numberOf negative whole fraction exponent = some j) :
    readNumber ((if negative then ['-'] else []) ++ whole ++ fraction ++ exponent ++ rest) =
      some (j, rest) := by
  have signed : splitMinus ((if negative then ['-'] else []) ++ (whole ++ (fraction ++
      (exponent ++ rest)))) = (negative, whole ++ (fraction ++ (exponent ++ rest))) := by
    cases negative with
    | false => exact splitMinus_whole isWhole _
    | true => rfl
  simp only [List.append_assoc, readNumber, signed, span_digits isWhole.2.1 wholeStop,
    readFraction_append isFraction fractionStop, readExponent_append isExponent stop,
    Option.bind_eq_bind, Option.bind_some, number]
  rfl

theorem exponent_head {exponent : List Char}
    (isExponent : readExponent exponent = some (exponent, [])) :
    ∀ c, exponent.head? = some c → c.isDigit = false ∧ c ≠ '.' := by
  intro c head
  cases exponent with
  | nil => contradiction
  | cons d text =>
    obtain rfl : d = c := by simpa using head
    unfold readExponent at isExponent
    simp only at isExponent
    split at isExponent
    next isE =>
      rcases isE with rfl | rfl
      · exact ⟨by decide, by decide⟩
      · exact ⟨by decide, by decide⟩
    next => simp at isExponent

theorem fraction_head {fraction : List Char}
    (isFraction : readFraction fraction = some (fraction, [])) :
    ∀ c, fraction.head? = some c → c.isDigit = false := by
  intro c head
  unfold readFraction at isFraction
  split at isFraction
  next digits =>
    obtain rfl : '.' = c := by simpa using head
    decide
  next =>
    simp only [Option.some.injEq, Prod.mk.injEq] at isFraction
    obtain ⟨rfl, _⟩ := isFraction
    contradiction

theorem head_append_cases {a b : List Char} {P : Char → Prop} (first : ∀ c, a.head? = some c → P c)
    (second : ∀ c, b.head? = some c → P c) : ∀ c, (a ++ b).head? = some c → P c := by
  cases a with
  | nil => exact second
  | cons d a => exact first

theorem readNumber_float (f : FloatLiteral) (rest : List Char) (stop : Delimited rest) :
    readNumber (f.text ++ rest) = some (.float f, rest) := by
  have fractionStop : ∀ c, (f.exponent ++ rest).head? = some c → c.isDigit = false ∧ c ≠ '.' :=
    head_append_cases (exponent_head f.isExponent) fun c h => ⟨(stop c h).1, (stop c h).2.1⟩
  refine readNumber_parts f.isWhole f.isFraction f.isExponent stop fractionStop
    (head_append_cases (fraction_head f.isFraction) fun c h => (fractionStop c h).1) ?_
  rw [numberOf, dif_pos f.isWhole, dif_pos f.isFraction, dif_pos f.isExponent,
    dif_pos f.notInteger]

theorem numberOf_integer {negative : Bool} {whole : List Char} (isWhole : IsWhole whole)
    {n : JsonInt} (integer : integerOf negative whole = some n) :
    numberOf negative whole [] [] = some (.int n) := by
  rw [numberOf, dif_pos isWhole, dif_pos readFraction_nil, dif_pos readExponent_nil,
    dif_neg (by simp), integer]

theorem readNumber_int (n : JsonInt) (rest : List Char) (stop : Delimited rest) :
    readNumber (printInt n.value ++ rest) = some (.int n, rest) := by
  have plain : ∀ c, rest.head? = some c → c.isDigit = false ∧ c ≠ '.' :=
    fun c h => ⟨(stop c h).1, (stop c h).2.1⟩
  have read (negative : Bool) (m : Nat)
      (integer : integerOf negative (Nat.toDigits 10 m) = some n) :
      readNumber ((if negative then ['-'] else []) ++ Nat.toDigits 10 m ++ [] ++ [] ++ rest) =
        some (.int n, rest) :=
    readNumber_parts (isWhole_toDigits m) rfl rfl stop plain (fun c h => (plain c h).1)
      (numberOf_integer (isWhole_toDigits m) integer)
  obtain ⟨value, lower, upper⟩ := n
  cases value with
  | ofNat m =>
    have fits : m < 2 ^ 64 := by
      have := upper
      simp only [Int.ofNat_eq_natCast] at this
      omega
    have integer := read false m (by
      simp only [integerOf, Nat.ofDigitChars_ten_toDigits, Bool.false_eq_true, if_false, dif_pos fits]
      rfl)
    simpa only [printInt, List.append_nil, Bool.false_eq_true, if_false, List.nil_append] using integer
  | negSucc m =>
    have fits : m + 1 ≠ 0 ∧ m + 1 ≤ 2 ^ 63 := by
      have := lower
      rw [Int.negSucc_eq] at this
      omega
    have integer := read true (m + 1) (by
      simp only [integerOf, Nat.ofDigitChars_ten_toDigits, if_true, dif_pos fits]
      rfl)
    simpa only [printInt, List.append_nil, if_true, List.cons_append, List.nil_append] using integer

/-! ### Values -/

namespace Json

/-- The first character of a printed value. -/
def Opens (c : Char) : Prop := isJsonSpace c = false ∧ c ≠ ']' ∧ c ≠ '}'

theorem opens_digit {c : Char} (digit : c.isDigit = true) : Opens c := by
  refine ⟨?_, ?_, ?_⟩
  · by_contra space
    simp only [isJsonSpace, Bool.not_eq_false, Bool.or_eq_true, decide_eq_true_eq] at space
    rcases space with ((rfl | rfl) | rfl) | rfl <;> exact absurd digit (by decide)
  · rintro rfl; exact absurd digit (by decide)
  · rintro rfl; exact absurd digit (by decide)

theorem whole_head {whole : List Char} (isWhole : IsWhole whole) :
    ∃ c text, whole = c :: text ∧ c.isDigit = true := by
  obtain ⟨some, all, _⟩ := isWhole
  cases whole with
  | nil => exact absurd rfl some
  | cons c text => exact ⟨c, text, rfl, List.all_eq_true.mp all c List.mem_cons_self⟩

/-- Numbers are told from the other values by their first character. -/
theorem number_head {negative : Bool} {whole more : List Char} (isWhole : IsWhole whole) :
    ∃ c text, (if negative then ['-'] else []) ++ whole ++ more = c :: text ∧
      (c = '-' ∨ c.isDigit = true) := by
  obtain ⟨c, text, rfl, digit⟩ := whole_head isWhole
  cases negative with
  | false => exact ⟨c, text ++ more, rfl, .inr digit⟩
  | true => exact ⟨'-', c :: text ++ more, rfl, .inl rfl⟩

theorem int_head (n : Int) : ∃ c text, printInt n = c :: text ∧ (c = '-' ∨ c.isDigit = true) := by
  cases n with
  | ofNat n =>
    obtain ⟨c, text, same, digit⟩ := whole_head (isWhole_toDigits n)
    exact ⟨c, text, same, .inr digit⟩
  | negSucc n => exact ⟨'-', _, rfl, .inl rfl⟩

theorem float_head (f : FloatLiteral) :
    ∃ c text, f.text = c :: text ∧ (c = '-' ∨ c.isDigit = true) := by
  obtain ⟨c, text, same, head⟩ :=
    @number_head f.negative f.whole (f.fraction ++ f.exponent) f.isWhole
  rw [← List.append_assoc] at same
  exact ⟨c, text, same, head⟩

theorem opens_number {c : Char} (head : c = '-' ∨ c.isDigit = true) : Opens c := by
  rcases head with rfl | digit
  · exact ⟨by decide, by decide, by decide⟩
  · exact opens_digit digit

theorem print_head (j : Json) : ∃ c text, j.print = c :: text ∧ Opens c := by
  cases j with
  | null => exact ⟨_, _, rfl, by decide, by decide, by decide⟩
  | bool value => cases value <;> exact ⟨_, _, rfl, by decide, by decide, by decide⟩
  | int n =>
    obtain ⟨c, text, same, head⟩ := int_head n.value
    exact ⟨c, text, same, opens_number head⟩
  | float f =>
    obtain ⟨c, text, same, head⟩ := float_head f
    exact ⟨c, text, same, opens_number head⟩
  | str => exact ⟨_, _, rfl, by decide, by decide, by decide⟩
  | arr => exact ⟨_, _, rfl, by decide, by decide, by decide⟩
  | obj => exact ⟨_, _, rfl, by decide, by decide, by decide⟩

theorem skipSpace_opens {c : Char} (opens : Opens c) (text : List Char) :
    skipSpace (c :: text) = c :: text := by
  rw [skipSpace, opens.1]
  rfl

theorem read_number {c : Char} (head : c = '-' ∨ c.isDigit = true) (fuel depth : Nat)
    (text : List Char) : read (fuel + 1) depth (c :: text) = readNumber (c :: text) := by
  have other (d : Char) (letter : d ≠ '-' ∧ d.isDigit = false) : c ≠ d := by
    rintro rfl
    rcases head with same | digit
    · exact letter.1 same
    · rw [letter.2] at digit; contradiction
  rw [read, skipSpace_opens (opens_number head)]
  split
  next empty => contradiction
  next same => exact absurd (List.cons.inj same).1 (other _ (by decide))
  next same => exact absurd (List.cons.inj same).1 (other _ (by decide))
  next same => exact absurd (List.cons.inj same).1 (other _ (by decide))
  next same => exact absurd (List.cons.inj same).1 (other _ (by decide))
  next same => exact absurd (List.cons.inj same).1 (other _ (by decide))
  next same => exact absurd (List.cons.inj same).1 (other _ (by decide))
  next => rfl

theorem read_array {c : Char} (opens : Opens c) (fuel depth : Nat) (text : List Char) :
    read (fuel + 1) (depth + 1) ('[' :: c :: text) = (do
      let (item, rest) ← read fuel depth (c :: text)
      let (items, rest) ← readRest fuel depth rest
      pure (.arr (item :: items), rest)) := by
  have bracket : skipSpace ('[' :: c :: text) = '[' :: c :: text := rfl
  simp only [read, bracket, skipSpace_opens opens]
  split
  next same => exact absurd (List.cons.inj same).1 opens.2.1
  next => rfl

theorem read_object (fuel depth : Nat) (text : List Char) :
    read (fuel + 1) (depth + 1) ('{' :: '"' :: text) = (do
      let (member, rest) ← readMember fuel depth ('"' :: text)
      let (members, rest) ← readMore fuel depth rest
      pure (.obj (member :: members), rest)) := by
  have brace : skipSpace ('{' :: '"' :: text) = '{' :: '"' :: text := rfl
  have quote : skipSpace ('"' :: text) = '"' :: text := rfl
  simp only [read, brace, quote]
  split
  next same => exact absurd (List.cons.inj same).1 (by decide)
  next => rfl

/-- The value is read back when the depth allows it and the fuel covers the text. -/
def ReadBack (j : Json) : Prop :=
  ∀ fuel depth rest, j.print.length ≤ fuel → j.depth ≤ depth → Delimited rest →
    read fuel depth (j.print ++ rest) = some (j, rest)

theorem delimited_rest (items : List Json) (rest : List Char) :
    Delimited (printRest items ++ rest) := by
  cases items with
  | nil => exact delimited_cons _ (by decide)
  | cons => exact delimited_cons _ (by decide)

theorem delimited_more (members : List (String × Json)) (rest : List Char) :
    Delimited (printMore members ++ rest) := by
  cases members with
  | nil => exact delimited_cons _ (by decide)
  | cons => exact delimited_cons _ (by decide)

theorem readRest_print {items : List Json} (each : ∀ item ∈ items, ReadBack item)
    (fuel depth : Nat) (rest : List Char) (enough : (printRest items).length ≤ fuel)
    (shallow : depthItems items ≤ depth) :
    readRest fuel depth (printRest items ++ rest) = some (items, rest) := by
  induction items generalizing fuel with
  | nil =>
    cases fuel with
    | zero => simp [printRest] at enough
    | succ fuel => rfl
  | cons item items ih =>
    cases fuel with
    | zero => simp [printRest] at enough
    | succ fuel =>
      simp only [printRest, List.length_cons, List.length_append] at enough
      simp only [depthItems] at shallow
      have first := each item List.mem_cons_self fuel depth (printRest items ++ rest) (by omega)
        (by omega) (delimited_rest items rest)
      have others := ih (fun item member => each item (List.mem_cons_of_mem _ member)) fuel
        (by omega) (by omega)
      have comma (text : List Char) : skipSpace (',' :: text) = ',' :: text := rfl
      simp only [printRest, List.cons_append, List.append_assoc, readRest, comma, first, others,
        Option.bind_eq_bind, Option.bind_some]
      rfl

theorem readMember_print (key : String) {value : Json} (back : ReadBack value) (fuel depth : Nat)
    {rest : List Char} (enough : (printString key ++ ':' :: value.print).length ≤ fuel)
    (shallow : value.depth ≤ depth) (stop : Delimited rest) :
    readMember fuel depth (printString key ++ ':' :: (value.print ++ rest)) =
      some ((key, value), rest) := by
  cases fuel with
  | zero => simp at enough
  | succ fuel =>
    simp only [List.length_append, List.length_cons] at enough
    have read := back fuel depth rest (by omega) shallow stop
    have quote (text : List Char) : skipSpace ('"' :: text) = '"' :: text := rfl
    have colon (text : List Char) : skipSpace (':' :: text) = ':' :: text := rfl
    simp only [printString_eq, List.cons_append, List.append_assoc, List.nil_append, readMember, quote,
      readString_print, colon, read, Option.bind_eq_bind, Option.bind_some]
    rfl

theorem readMore_print {members : List (String × Json)}
    (each : ∀ member ∈ members, ReadBack member.2) (fuel depth : Nat) (rest : List Char)
    (enough : (printMore members).length ≤ fuel) (shallow : depthMembers members ≤ depth) :
    readMore fuel depth (printMore members ++ rest) = some (members, rest) := by
  induction members generalizing fuel with
  | nil =>
    cases fuel with
    | zero => simp [printMore] at enough
    | succ fuel => rfl
  | cons member members ih =>
    obtain ⟨key, value⟩ := member
    cases fuel with
    | zero => simp [printMore] at enough
    | succ fuel =>
      simp only [printMore, List.length_cons, List.length_append] at enough
      simp only [depthMembers] at shallow
      have back : ReadBack value := each (key, value) List.mem_cons_self
      have first := readMember_print key back fuel depth
        (by simp only [List.length_append, List.length_cons]; omega) (by omega)
        (delimited_more members rest)
      have others := ih (fun member within => each member (List.mem_cons_of_mem _ within)) fuel
        (by omega) (by omega)
      have comma (text : List Char) : skipSpace (',' :: text) = ',' :: text := rfl
      simp only [printMore, List.cons_append, List.append_assoc, readMore, comma, first, others,
        Option.bind_eq_bind, Option.bind_some]
      rfl

theorem readBack_arr {items : List Json} (each : ∀ item ∈ items, ReadBack item) :
    ReadBack (.arr items) := by
  intro fuel depth rest enough shallow stop
  cases fuel with
  | zero => simp [print] at enough
  | succ fuel =>
  cases depth with
  | zero => simp [Json.depth] at shallow
  | succ depth =>
  cases items with
  | nil => rfl
  | cons item items =>
    simp only [print, printItems, List.length_cons, List.length_append] at enough
    simp only [Json.depth, depthItems] at shallow
    have first := each item List.mem_cons_self fuel depth (printRest items ++ rest) (by omega)
      (by omega) (delimited_rest items rest)
    have others := readRest_print
      (fun item member => each item (List.mem_cons_of_mem _ member)) fuel depth rest (by omega) (by omega)
    obtain ⟨c, text, same, opens⟩ := print_head item
    rw [same] at first
    simp only [print, printItems, List.cons_append, List.append_assoc, same, read_array opens]
    simp only [List.cons_append] at first
    simp only [first, others, Option.bind_eq_bind, Option.bind_some]
    rfl

theorem readBack_obj {members : List (String × Json)}
    (each : ∀ member ∈ members, ReadBack member.2) : ReadBack (.obj members) := by
  intro fuel depth rest enough shallow stop
  cases fuel with
  | zero => simp [print] at enough
  | succ fuel =>
  cases depth with
  | zero => simp [Json.depth] at shallow
  | succ depth =>
  cases members with
  | nil => rfl
  | cons member members =>
    obtain ⟨key, value⟩ := member
    simp only [print, printMembers, List.length_cons, List.length_append] at enough
    simp only [Json.depth, depthMembers] at shallow
    have back : ReadBack value := each (key, value) List.mem_cons_self
    have first := readMember_print key back fuel depth
      (by simp only [List.length_append, List.length_cons]; omega) (by omega)
      (delimited_more members rest)
    have others := readMore_print
      (fun member within => each member (List.mem_cons_of_mem _ within)) fuel depth rest (by omega) (by omega)
    simp only [printString_eq, List.cons_append, List.append_assoc, List.nil_append] at first
    simp only [print, printMembers, printString_eq, List.cons_append, List.append_assoc,
      List.nil_append, read_object, first, others, Option.bind_eq_bind, Option.bind_some]
    rfl

theorem readBack_number {j : Json} {c : Char} {text : List Char} (printed : j.print = c :: text)
    (head : c = '-' ∨ c.isDigit = true)
    (back : ∀ rest, Delimited rest → readNumber (j.print ++ rest) = some (j, rest)) :
    ReadBack j := by
  intro fuel depth rest enough _ stop
  rw [printed] at enough
  cases fuel with
  | zero => simp at enough
  | succ fuel =>
    have read := back rest stop
    rw [printed, List.cons_append] at read ⊢
    rw [read_number head, read]

theorem readBack (j : Json) : ReadBack j := by
  induction j using Json.induction with
  | null =>
    intro fuel depth rest enough _ _
    cases fuel with
    | zero => simp [print] at enough
    | succ fuel => rfl
  | bool value =>
    intro fuel depth rest enough _ _
    cases fuel with
    | zero => cases value <;> simp [print] at enough
    | succ fuel => cases value <;> rfl
  | int n =>
    obtain ⟨c, text, printed, head⟩ := int_head n.value
    exact readBack_number (j := .int n) printed head (readNumber_int n)
  | float f =>
    obtain ⟨c, text, printed, head⟩ := float_head f
    exact readBack_number (j := .float f) printed head (readNumber_float f)
  | str s =>
    intro fuel depth rest enough _ _
    cases fuel with
    | zero => simp [print, printString_eq] at enough
    | succ fuel =>
      have quote (text : List Char) : skipSpace ('"' :: text) = '"' :: text := rfl
      simp only [print, printString_eq, List.cons_append, List.append_assoc, List.nil_append, read,
        quote, readString_print, Option.map_some]
  | arr items each => exact readBack_arr each
  | obj members each => exact readBack_obj each

/-- A value printed within the depth limit is parsed back. -/
theorem parse_print (j : Json) (limit : Nat) (shallow : j.depth ≤ limit) :
    parse limit j.print = some j := by
  have read := readBack j (j.print.length + 1) limit [] (by omega) shallow delimited_nil
  rw [List.append_nil] at read
  simp only [parse, read, Option.bind_eq_bind, Option.bind_some]
  rfl

/-- Different values have different texts. -/
theorem print_injective {i j : Json} (same : i.print = j.print) : i = j := by
  have first := parse_print i (max i.depth j.depth) (Nat.le_max_left _ _)
  have second := parse_print j (max i.depth j.depth) (Nat.le_max_right _ _)
  rw [same, second] at first
  exact (Option.some.inj first).symm

end Json
