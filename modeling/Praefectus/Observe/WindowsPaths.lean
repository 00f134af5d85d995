import Praefectus.Native.Dispatch
import Praefectus.Semantic.Forest
import Praefectus.Text.Joined

/-!
# The budget of runtime paths on Windows

The paths that are stored with a snapshot are charged to a budget of integers and of bytes
before they are kept. The bytes are counted without writing the paths; the count is exact.
-/

namespace Praefectus.Uia

open Json

abbrev RuntimeId := List Int32

def maxRuntimePathDepth : Nat := 64

def maxRuntimePathIntegers : Nat := 131072

def maxRuntimePathBytes : Nat := 1024 * 1024

/-! ### Sizes -/

/-- Sizes that a `usize` holds. -/
def capped (size : Nat) : Option Nat := if size < 2 ^ 64 then some size else none

def checkedAdd (a b : Nat) : Option Nat := capped (a + b)

theorem capped_add (a b : Nat) : ((capped a).bind fun total => checkedAdd total b) = capped (a + b) := by
  unfold capped
  split
  next => rfl
  next large =>
    rw [if_neg (by omega)]
    rfl

/-! ### Counting bytes -/

/-- The digits of a number, one for each division. -/
def decimalLoop (value length : Nat) : Nat :=
  if value / 10 = 0 then length + 1 else decimalLoop (value / 10) (length + 1)
termination_by value
decreasing_by omega

def decimalI32Bytes (value : Int32) : Nat :=
  if value < 0 then decimalLoop (-value.toInt).toNat 1 else decimalLoop value.toInt.toNat 0

/-- A total of a list: a separator before each item but the first, and the item's own bytes. -/
def serializedBytes {α : Type} (bytes : α → Option Nat) (items : List α) : Option Nat :=
  items.zipIdx.foldlM (fun total (item, index) => do
    let itemBytes ← bytes item
    let total ← checkedAdd total (if index > 0 then 1 else 0)
    checkedAdd total itemBytes) 2

def runtimeIdSerializedBytes (runtimeId : RuntimeId) : Option Nat :=
  serializedBytes (fun value => some (decimalI32Bytes value)) runtimeId

def runtimePathSerializedBytes (path : List RuntimeId) : Option Nat :=
  serializedBytes runtimeIdSerializedBytes path

/-! ### What is written -/

def ofInt32 (n : Int32) : Json := ofInt64 n.toInt64

def idJson (runtimeId : RuntimeId) : Json := .arr (runtimeId.map ofInt32)

def pathJson (path : List RuntimeId) : Json := .arr (path.map idJson)

/-- The bytes of the compact encoding. -/
def encodedBytes (j : Json) : Nat := (utf8 j.print).length

theorem decimalLoop_eq (value length : Nat) :
    decimalLoop value length = length + (Nat.toDigits 10 value).length := by
  induction value, length using decimalLoop.induct with
  | case1 value length last =>
    rw [decimalLoop, if_pos last, Nat.toDigits_of_lt_base (by omega)]
    rfl
  | case2 value length more ih =>
    rw [decimalLoop, if_neg more, ih, Nat.toDigits_of_base_le (by omega) (show 10 ≤ value by omega),
      List.length_append, List.length_singleton]
    omega

theorem utf8_printInt (n : Int) : (utf8 (printInt n)).length = (printInt n).length := by
  refine utf8_length_single fun c member => ?_
  rcases mem_printInt member with digit | rfl
  · exact digit_byte digit
  · rfl

theorem decimalI32Bytes_eq (value : Int32) :
    decimalI32Bytes value = (printInt value.toInt).length := by
  have natural (n : Nat) : (printInt (Int.ofNat n)).length = (Nat.toDigits 10 n).length := rfl
  have negative (n : Nat) :
      (printInt (Int.negSucc n)).length = (Nat.toDigits 10 (n + 1)).length + 1 := rfl
  unfold decimalI32Bytes
  split
  next below =>
    have below : value.toInt < 0 := Int32.lt_iff_toInt_lt.mp below
    obtain ⟨n, number⟩ := Int.eq_negSucc_of_lt_zero below
    rw [decimalLoop_eq, number, negative, Nat.add_comm]
    rfl
  next above =>
    have above : 0 ≤ value.toInt := Int.not_lt.mp fun below => above (Int32.lt_iff_toInt_lt.mpr below)
    obtain ⟨n, number⟩ := Int.eq_ofNat_of_zero_le above
    rw [decimalLoop_eq, number, Nat.zero_add]
    exact (natural n).symm

theorem encodedBytes_ofInt32 (value : Int32) :
    encodedBytes (ofInt32 value) = decimalI32Bytes value := by
  rw [decimalI32Bytes_eq, ← utf8_printInt, ← Int32.toInt_toInt64]
  rfl

/-- The sign and ten digits at most. -/
theorem decimalI32Bytes_le (value : Int32) : decimalI32Bytes value ≤ 11 := by
  have digits {n : Nat} (small : n ≤ 2 ^ 31) : (Nat.toDigits 10 n).length ≤ 10 :=
    (Nat.length_toDigits_le_iff (by omega) (by omega)).mpr (by omega)
  have above := value.le_toInt
  have below := value.toInt_lt
  unfold decimalI32Bytes
  split
  · have := digits (n := (-value.toInt).toNat) (by omega)
    rw [decimalLoop_eq]
    omega
  · have := digits (n := value.toInt.toNat) (by omega)
    rw [decimalLoop_eq]
    omega

/-- The brackets, the items, and the commas between them. -/
theorem encodedBytes_arr (items : List Json) :
    encodedBytes (.arr items) = 2 + (items.map encodedBytes).sum + (items.length - 1) := by
  have rest (items : List Json) : (utf8 (printRest items)).length =
      1 + (items.map encodedBytes).sum + items.length := by
    induction items with
    | nil => rfl
    | cons item items ih =>
      have cons : utf8 (printRest (item :: items)) =
          utf8 [','] ++ (utf8 item.print ++ utf8 (printRest items)) := by
        rw [← utf8_append, ← utf8_append]
        rfl
      rw [cons, List.length_append, List.length_append, ih, List.map_cons, List.sum_cons,
        List.length_cons]
      change 1 + (encodedBytes item + _) = _
      omega
  cases items with
  | nil => rfl
  | cons item items =>
    have whole : utf8 (Json.arr (item :: items)).print =
        utf8 ['['] ++ (utf8 item.print ++ utf8 (printRest items)) := by
      rw [← utf8_append, ← utf8_append]
      rfl
    rw [encodedBytes, whole, List.length_append, List.length_append, rest, List.map_cons,
      List.sum_cons, List.length_cons]
    change 1 + (encodedBytes item + _) = _
    omega

/-! ### The count is exact -/

section

variable {α : Type} {bytes : α → Option Nat} {size : α → Nat}

/-- One more item on a total. -/
theorem item_counted {item : α} (exact : bytes item = capped (size item)) (total index : Nat) :
    (do
      let itemBytes ← bytes item
      let total ← checkedAdd total (if index > 0 then 1 else 0)
      checkedAdd total itemBytes) = capped (total + (if index > 0 then 1 else 0) + size item) := by
  by_cases small : size item < 2 ^ 64
  · rw [exact, capped, if_pos small]
    exact capped_add _ _
  · rw [exact, capped, if_neg small]
    exact (if_neg (by omega)).symm

theorem items_counted {items : List α} (exact : ∀ item ∈ items, bytes item = capped (size item))
    {total index : Nat} (later : 0 < index) (small : total < 2 ^ 64) :
    (items.zipIdx index).foldlM (fun total (item, index) => do
      let itemBytes ← bytes item
      let total ← checkedAdd total (if index > 0 then 1 else 0)
      checkedAdd total itemBytes) total =
        capped (total + (items.map size).sum + items.length) := by
  induction items generalizing total index with
  | nil =>
    rw [capped, if_pos (by exact small)]
    rfl
  | cons item items ih =>
    obtain ⟨first, exact⟩ := List.forall_mem_cons.mp exact
    rw [List.zipIdx_cons, List.foldlM_cons]
    dsimp only
    rw [item_counted first, if_pos later, List.map_cons, List.sum_cons, List.length_cons]
    by_cases fits : total + 1 + size item < 2 ^ 64
    · rw [capped, if_pos fits]
      refine (ih exact (Nat.succ_pos index) fits).trans (congrArg capped ?_)
      omega
    · rw [capped, capped, if_neg fits, if_neg (by omega)]
      rfl

theorem serializedBytes_eq {items : List α}
    (exact : ∀ item ∈ items, bytes item = capped (size item)) :
    serializedBytes bytes items = capped (2 + (items.map size).sum + (items.length - 1)) := by
  unfold serializedBytes
  cases items with
  | nil => rfl
  | cons item items =>
    obtain ⟨first, exact⟩ := List.forall_mem_cons.mp exact
    rw [List.zipIdx_cons, List.foldlM_cons]
    dsimp only
    rw [item_counted first, if_neg (Nat.lt_irrefl 0), List.map_cons, List.sum_cons,
      List.length_cons]
    by_cases fits : 2 + 0 + size item < 2 ^ 64
    · rw [capped, if_pos fits]
      refine (items_counted exact (Nat.succ_pos 0) fits).trans (congrArg capped ?_)
      omega
    · rw [capped, capped, if_neg fits, if_neg (by omega)]
      rfl

end

theorem runtimeIdSerializedBytes_eq (runtimeId : RuntimeId) :
    runtimeIdSerializedBytes runtimeId = capped (encodedBytes (idJson runtimeId)) := by
  have each : ∀ value ∈ runtimeId, some (decimalI32Bytes value) =
      capped (encodedBytes (ofInt32 value)) := by
    intro value _
    have small := decimalI32Bytes_le value
    rw [encodedBytes_ofInt32, capped, if_pos (by omega)]
  rw [runtimeIdSerializedBytes, serializedBytes_eq each, idJson, encodedBytes_arr, List.map_map,
    List.length_map]
  rfl

/-- The length of the encoding, as far as there are numbers for it. -/
theorem runtimePathSerializedBytes_eq (path : List RuntimeId) :
    runtimePathSerializedBytes path = capped (encodedBytes (pathJson path)) := by
  rw [runtimePathSerializedBytes, serializedBytes_eq fun id _ => runtimeIdSerializedBytes_eq id,
    pathJson, encodedBytes_arr, List.map_map, List.length_map]
  rfl

/-- A path with one more identifier is longer by it, and by a comma if it has something to
separate it from. -/
theorem encodedBytes_appended (path : List RuntimeId) (runtimeId : RuntimeId) :
    encodedBytes (pathJson (path ++ [runtimeId])) =
      encodedBytes (pathJson path) + (if path.isEmpty then 0 else 1) +
        encodedBytes (idJson runtimeId) := by
  rw [pathJson, pathJson, encodedBytes_arr, encodedBytes_arr]
  simp only [List.map_append, List.map_cons, List.map_nil, List.sum_append, List.sum_singleton,
    List.length_append, List.length_map, List.length_singleton]
  cases path with
  | nil =>
    rw [List.isEmpty_nil, if_pos rfl]
    change 2 + (0 + _) + 0 = 2 + 0 + 0 + 0 + _
    omega
  | cons first rest =>
    rw [List.isEmpty_cons, if_neg Bool.false_ne_true, List.length_cons]
    omega

/-! ### The budget -/

def snapshotBudgetError : ProtocolError :=
  .executor "semantic snapshot exceeded its private budget"

structure RuntimePathBudget where
  integers : Nat
  bytes : Nat
  deriving DecidableEq

namespace RuntimePathBudget

def default : RuntimePathBudget := ⟨0, 0⟩

/-- What a budget has in use after a charge, unless that is more than the limit. -/
def spend (used limit : Nat) (amount : Option Nat) : Option Nat :=
  (amount.bind (checkedAdd used)).filter (· ≤ limit)

/-- The result, and the budget afterwards: integers stay charged when the bytes are refused. -/
def chargeCounts (budget : RuntimePathBudget) (integers bytes : Option Nat) :
    Except ProtocolError Unit × RuntimePathBudget :=
  match spend budget.integers maxRuntimePathIntegers integers with
  | none => (throw snapshotBudgetError, budget)
  | some integers =>
    match spend budget.bytes maxRuntimePathBytes bytes with
    | none => (throw snapshotBudgetError, { budget with integers })
    | some bytes => (pure (), ⟨integers, bytes⟩)

/-- The lengths of a path's identifiers, on top of a number. -/
def addLengths (start : Nat) (path : List RuntimeId) : Option Nat :=
  path.foldlM (fun total runtimeId => checkedAdd total runtimeId.length) start

def charge (budget : RuntimePathBudget) (path : List RuntimeId) :
    Except ProtocolError Unit × RuntimePathBudget :=
  budget.chargeCounts (addLengths 0 path) (runtimePathSerializedBytes path)

def chargeAppended (budget : RuntimePathBudget) (path : List RuntimeId) (runtimeId : RuntimeId) :
    Except ProtocolError Unit × RuntimePathBudget :=
  budget.chargeCounts (addLengths runtimeId.length path) do
    let bytes ← runtimePathSerializedBytes path
    let bytes ← checkedAdd bytes (if path.isEmpty then 0 else 1)
    checkedAdd bytes (← runtimeIdSerializedBytes runtimeId)

/-- How many integers a path has. -/
def integersOf (path : List RuntimeId) : Nat := (path.map List.length).sum

/-! ### What a charge comes to -/

/-- The amount is the number, or as good as it where no budget allows it. -/
def Counts (amount : Option Nat) (number : Nat) : Prop :=
  ∀ used, amount.bind (checkedAdd used) = checkedAdd used number

theorem counts_some (number : Nat) : Counts (some number) number := fun _ => rfl

theorem counts_capped (number : Nat) : Counts (capped number) number := by
  intro used
  by_cases small : number < 2 ^ 64
  · rw [capped, if_pos small]
    rfl
  · rw [capped, if_neg small, checkedAdd, capped, if_neg (by omega)]
    rfl

theorem addLengths_counts (start : Nat) (path : List RuntimeId) :
    Counts (addLengths start path) (start + integersOf path) := by
  induction path generalizing start with
  | nil => exact counts_some start
  | cons runtimeId path ih =>
    have total : start + integersOf (runtimeId :: path) =
        start + runtimeId.length + integersOf path := by
      rw [integersOf, List.map_cons, List.sum_cons, ← Nat.add_assoc]
      rfl
    rw [total, addLengths, List.foldlM_cons]
    by_cases small : start + runtimeId.length < 2 ^ 64
    · rw [checkedAdd, capped, if_pos small]
      exact ih _
    · -- the sum is given up, and no budget would hold it
      have large := counts_capped (start + runtimeId.length + integersOf path)
      rw [capped, if_neg (by omega)] at large
      rw [checkedAdd, capped, if_neg small]
      exact large

theorem bytes_counts (path : List RuntimeId) :
    Counts (runtimePathSerializedBytes path) (encodedBytes (pathJson path)) := by
  rw [runtimePathSerializedBytes_eq]
  exact counts_capped _

theorem appended_counts (path : List RuntimeId) (runtimeId : RuntimeId) :
    Counts (do
      let bytes ← runtimePathSerializedBytes path
      let bytes ← checkedAdd bytes (if path.isEmpty then 0 else 1)
      checkedAdd bytes (← runtimeIdSerializedBytes runtimeId))
      (encodedBytes (pathJson (path ++ [runtimeId]))) := by
  rw [runtimePathSerializedBytes_eq, runtimeIdSerializedBytes_eq, encodedBytes_appended]
  generalize encodedBytes (pathJson path) = before
  generalize encodedBytes (idJson runtimeId) = added
  generalize (if path.isEmpty then 0 else 1) = comma
  have first : ((capped before).bind fun bytes => checkedAdd bytes comma) = capped (before + comma) :=
    capped_add before comma
  have second : ((capped (before + comma)).bind fun bytes =>
      (capped added).bind (checkedAdd bytes)) = capped (before + comma + added) := by
    by_cases small : added < 2 ^ 64
    · rw [capped.eq_def added, if_pos small]
      exact capped_add _ _
    · rw [capped.eq_def added, if_neg small, capped.eq_def (before + comma + added),
        if_neg (by omega)]
      cases capped (before + comma) <;> rfl
  have order : (do
      let bytes ← capped before
      let bytes ← checkedAdd bytes comma
      checkedAdd bytes (← capped added)) = capped (before + comma + added) := by
    rw [← second, ← first]
    cases capped before <;> rfl
  rw [order]
  exact counts_capped _

variable {integers integers' bytes bytes' : Option Nat} {m n : Nat}

/-- A charge depends on the numbers alone. -/
theorem chargeCounts_eq (budget : RuntimePathBudget) (count : Counts integers m)
    (count' : Counts integers' m) (size : Counts bytes n) (size' : Counts bytes' n) :
    budget.chargeCounts integers bytes = budget.chargeCounts integers' bytes' := by
  unfold chargeCounts spend
  rw [count, count', size, size']

theorem chargeAppended_eq (budget : RuntimePathBudget) (path : List RuntimeId)
    (runtimeId : RuntimeId) :
    budget.chargeAppended path runtimeId = budget.charge (path ++ [runtimeId]) := by
  have all := addLengths_counts 0 (path ++ [runtimeId])
  have appended := addLengths_counts runtimeId.length path
  have same : 0 + integersOf (path ++ [runtimeId]) = runtimeId.length + integersOf path := by
    rw [integersOf, List.map_append, List.sum_append, Nat.zero_add, Nat.add_comm]
    rfl
  rw [same] at all
  exact chargeCounts_eq budget appended all (appended_counts path runtimeId) (bytes_counts _)

theorem spend_some {used limit total : Nat} {amount : Option Nat} {number : Nat}
    (count : Counts amount number) (spent : spend used limit amount = some total) :
    total = used + number ∧ total ≤ limit := by
  unfold spend at spent
  rw [count, checkedAdd, capped] at spent
  obtain ⟨sum, small⟩ := Option.filter_eq_some_iff.mp spent
  split at sum
  next => exact ⟨(Option.some.inj sum).symm, by simpa using small⟩
  next => cases sum

/-- A charge that succeeds adds what the path has, and stays within both limits. -/
theorem charge_ok {budget after : RuntimePathBudget} {path : List RuntimeId}
    (charged : budget.charge path = (.ok (), after)) :
    after.integers = budget.integers + integersOf path ∧
      after.bytes = budget.bytes + encodedBytes (pathJson path) ∧
      after.integers ≤ maxRuntimePathIntegers ∧ after.bytes ≤ maxRuntimePathBytes := by
  unfold charge chargeCounts at charged
  split at charged
  next => cases charged
  next total spent =>
    split at charged
    next => cases charged
    next size spent' =>
      cases charged
      obtain ⟨count, few⟩ := spend_some (addLengths_counts 0 path) spent
      obtain ⟨length, short⟩ := spend_some (bytes_counts path) spent'
      rw [Nat.zero_add] at count
      exact ⟨count, length, few, short⟩

end RuntimePathBudget

end Praefectus.Uia
