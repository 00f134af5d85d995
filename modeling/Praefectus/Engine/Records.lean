import Praefectus.Engine.Program

/-!
# Records of the ledger

What a scan finds among records, and the form that the records of a ledger have: one
claim at most for each operation, and before each terminal a claim of its key.
-/

namespace Praefectus

namespace LedgerRecord

def isClaimOf (operationId : String) : LedgerRecord → Bool
  | .claim claimed .. => claimed = operationId
  | .terminal _ => false

def isTerminalOf (operationId : String) : LedgerRecord → Bool
  | .claim .. => false
  | .terminal acknowledgement => acknowledgement.operationId = operationId

/-- The record is a claim of the key. -/
def Claims (key : OutcomeKey) : LedgerRecord → Prop
  | .claim operationId actionHash .. => operationId = key.operationId ∧ actionHash = key.actionHash
  | .terminal _ => False

theorem claims_isClaimOf {record : LedgerRecord} {key : OutcomeKey} (claims : record.Claims key) :
    record.isClaimOf key.operationId = true := by
  cases record with
  | claim => exact decide_eq_true claims.1
  | terminal => exact claims.elim

theorem claims_not_terminal {record : LedgerRecord} {key : OutcomeKey} (claims : record.Claims key)
    (operationId : String) : record.isTerminalOf operationId = false := by
  cases record with
  | claim => rfl
  | terminal => exact claims.elim

theorem claims_key {record : LedgerRecord} {key key' : OutcomeKey} (claims : record.Claims key)
    (claims' : record.Claims key') : key = key' := by
  cases record with
  | claim =>
    obtain ⟨operationId, actionHash⟩ := key
    obtain ⟨rfl, rfl⟩ := claims
    obtain ⟨operationId', actionHash'⟩ := key'
    obtain ⟨rfl, rfl⟩ := claims'
    rfl
  | terminal => exact claims.elim

end LedgerRecord

/-! ### Scans -/

theorem scan_concat_claim {operationId : String} {records : List LedgerRecord}
    {record : LedgerRecord} (other : record.isTerminalOf operationId = false) :
    (scan operationId (records ++ [record])).2 = (scan operationId records).2 := by
  simp only [scan, List.foldl_append, List.foldl_cons, List.foldl_nil]
  cases record with
  | claim =>
    dsimp only
    split <;> rfl
  | terminal acknowledgement =>
    have differs : acknowledgement.operationId ≠ operationId := of_decide_eq_false other
    simp only [if_neg differs]

theorem scan_concat_terminal {acknowledgement : ActionAck} (records : List LedgerRecord) :
    (scan acknowledgement.operationId (records ++ [.terminal acknowledgement])).2 =
      some acknowledgement := by
  simp only [scan, List.foldl_append, List.foldl_cons, List.foldl_nil, if_true]

/-- No claim is found exactly where there is none. -/
theorem scan_claim_none {operationId : String} {records : List LedgerRecord} :
    (scan operationId records).1 = none ↔
      ∀ record ∈ records, record.isClaimOf operationId = false := by
  induction records using List.reverseRecOn with
  | nil => exact ⟨fun _ _ member => (nomatch member), fun _ => rfl⟩
  | append_singleton records record ih =>
    rw [List.forall_mem_append, List.forall_mem_singleton, ← ih]
    simp only [scan, List.foldl_append, List.foldl_cons, List.foldl_nil]
    cases record with
    | claim claimed =>
      dsimp only [LedgerRecord.isClaimOf]
      by_cases same : claimed = operationId <;> simp [same]
    | terminal acknowledgement =>
      dsimp only [LedgerRecord.isClaimOf]
      by_cases same : acknowledgement.operationId = operationId <;> simp [same]

theorem scan_claim_some {operationId : String} {records : List LedgerRecord} {claim : ClaimFacts}
    (found : (scan operationId records).1 = some claim) :
    ∃ record ∈ records, record.Claims ⟨operationId, claim.actionHash⟩ := by
  induction records using List.reverseRecOn with
  | nil => contradiction
  | append_singleton records record ih =>
    simp only [scan, List.foldl_append, List.foldl_cons, List.foldl_nil] at found ih
    have earlier (found : (scan operationId records).1 = some claim) :
        ∃ r ∈ records ++ [record], r.Claims ⟨operationId, claim.actionHash⟩ := by
      obtain ⟨r, member, claims⟩ := ih found
      exact ⟨r, List.mem_append_left _ member, claims⟩
    cases record with
    | claim claimed actionHash =>
      dsimp only at found
      split at found
      next same =>
        obtain rfl := Option.some.inj found
        exact ⟨_, List.mem_append_right _ List.mem_cons_self, same, rfl⟩
      next => exact earlier found
    | terminal acknowledgement =>
      dsimp only at found
      split at found <;> exact earlier found

/-- No terminal is found exactly where there is none. -/
theorem scan_terminal_none {operationId : String} {records : List LedgerRecord} :
    (scan operationId records).2 = none ↔
      ∀ record ∈ records, record.isTerminalOf operationId = false := by
  induction records using List.reverseRecOn with
  | nil => exact ⟨fun _ _ member => (nomatch member), fun _ => rfl⟩
  | append_singleton records record ih =>
    rw [List.forall_mem_append, List.forall_mem_singleton, ← ih]
    cases other : record.isTerminalOf operationId with
    | false => simp only [scan_concat_claim other, and_true]
    | true =>
      cases record with
      | claim => contradiction
      | terminal acknowledgement =>
        obtain rfl : acknowledgement.operationId = operationId := of_decide_eq_true other
        rw [scan_concat_terminal]
        simp

/-- The terminal a scan finds is the last one of the operation. -/
theorem scan_terminal_some {operationId : String} {records : List LedgerRecord}
    {acknowledgement : ActionAck} :
    (scan operationId records).2 = some acknowledgement ↔
      acknowledgement.operationId = operationId ∧
      ∃ before after, records = before ++ .terminal acknowledgement :: after ∧
        ∀ record ∈ after, record.isTerminalOf operationId = false := by
  induction records using List.reverseRecOn with
  | nil => simp [scan]
  | append_singleton records record ih =>
    cases other : record.isTerminalOf operationId with
    | false =>
      rw [scan_concat_claim other, ih]
      refine and_congr_right fun same => ⟨?_, ?_⟩
      · rintro ⟨before, after, rfl, none⟩
        refine ⟨before, after ++ [record], by simp, ?_⟩
        exact List.forall_mem_append.mpr ⟨none, List.forall_mem_singleton.mpr other⟩
      · rintro ⟨before, after, whole, none⟩
        rcases List.eq_nil_or_concat after with rfl | ⟨after, last, rfl⟩
        · obtain ⟨rfl, last⟩ := List.append_inj' whole rfl
          obtain rfl : record = .terminal acknowledgement := List.singleton_inj.mp last
          rw [LedgerRecord.isTerminalOf, decide_eq_false_iff_not] at other
          exact absurd same other
        · rw [List.concat_eq_append] at whole none
          rw [← List.cons_append, ← List.append_assoc] at whole
          obtain ⟨rfl, _⟩ := List.append_inj' whole rfl
          exact ⟨before, after, rfl, fun r member => none r (List.mem_append_left _ member)⟩
    | true =>
      cases record with
      | claim => contradiction
      | terminal last =>
        obtain rfl : last.operationId = operationId := of_decide_eq_true other
        rw [scan_concat_terminal]
        constructor
        · rintro ⟨rfl⟩
          exact ⟨rfl, records, [], rfl, fun _ none => absurd none List.not_mem_nil⟩
        · rintro ⟨_, before, after, whole, none⟩
          rcases List.eq_nil_or_concat after with rfl | ⟨after, final, rfl⟩
          · obtain ⟨_, same⟩ := List.append_inj' whole rfl
            rw [LedgerRecord.terminal.inj (List.singleton_inj.mp same)]
          · rw [List.concat_eq_append] at whole none
            rw [← List.cons_append, ← List.append_assoc] at whole
            obtain ⟨_, same⟩ := List.append_inj' whole rfl
            obtain rfl := List.singleton_inj.mp same
            have ended := none _ (List.mem_append_right _ List.mem_cons_self)
            rw [ended] at other
            contradiction

/-- The last terminal of two stretches is the last of the second, if it has one. -/
theorem scan_terminal_append {operationId : String} (first second : List LedgerRecord) :
    (scan operationId (first ++ second)).2 =
      (scan operationId second).2.or (scan operationId first).2 := by
  induction second using List.reverseRecOn with
  | nil => rw [List.append_nil]; rfl
  | append_singleton second record ih =>
    rw [← List.append_assoc]
    cases other : record.isTerminalOf operationId with
    | false => rw [scan_concat_claim other, scan_concat_claim other, ih]
    | true =>
      cases record with
      | claim => contradiction
      | terminal acknowledgement =>
        obtain rfl : acknowledgement.operationId = operationId := of_decide_eq_true other
        rw [scan_concat_terminal, scan_concat_terminal]
        rfl

theorem scan_terminal_mem {operationId : String} {records : List LedgerRecord}
    {acknowledgement : ActionAck} (found : (scan operationId records).2 = some acknowledgement) :
    .terminal acknowledgement ∈ records := by
  obtain ⟨_, before, after, rfl, _⟩ := scan_terminal_some.mp found
  exact List.mem_append_right _ List.mem_cons_self

/-! ### The form of the records -/

/-- One claim at most for each operation, and a claim of its key before each terminal. -/
structure Consistent (records : List LedgerRecord) : Prop where
  claims : ∀ operationId, records.countP (·.isClaimOf operationId) ≤ 1
  preceded : ∀ before acknowledgement after, records = before ++ .terminal acknowledgement :: after →
    ∃ record ∈ before, record.Claims acknowledgement.key

theorem consistent_nil : Consistent [] where
  claims _ := Nat.zero_le _
  preceded before _ _ same := by simp at same

theorem consistent_prefix {records more : List LedgerRecord}
    (consistent : Consistent (records ++ more)) : Consistent records where
  claims operationId := by
    have whole := consistent.claims operationId
    rw [List.countP_append] at whole
    omega
  preceded before acknowledgement after same := by
    refine consistent.preceded before acknowledgement (after ++ more) ?_
    rw [same, List.append_assoc, List.cons_append]

theorem consistent_take {records : List LedgerRecord} (consistent : Consistent records)
    (length : Nat) : Consistent (records.take length) := by
  rw [← List.take_append_drop length records] at consistent
  exact consistent_prefix consistent

/-- What a concatenation with one record says about a record inside it. -/
theorem append_cons_concat {α : Type} {before after records : List α} {a b : α}
    (same : records ++ [b] = before ++ a :: after) :
    (before = records ∧ a = b ∧ after = []) ∨
      ∃ after', after = after' ++ [b] ∧ records = before ++ a :: after' := by
  rcases List.eq_nil_or_concat after with rfl | ⟨after', last, rfl⟩
  · obtain ⟨rfl, last⟩ := List.append_inj' same rfl
    exact .inl ⟨rfl, (List.singleton_inj.mp last).symm, rfl⟩
  · rw [List.concat_eq_append, ← List.cons_append, ← List.append_assoc] at same
    obtain ⟨rfl, last⟩ := List.append_inj' same rfl
    obtain rfl := List.singleton_inj.mp last
    exact .inr ⟨after', List.concat_eq_append .., rfl⟩

theorem consistent_claim {records : List LedgerRecord} (consistent : Consistent records)
    {record : LedgerRecord} {key : OutcomeKey} (claims : record.Claims key)
    (fresh : (scan key.operationId records).1 = none) : Consistent (records ++ [record]) where
  claims operationId := by
    rw [List.countP_append, List.countP_singleton]
    have before := consistent.claims operationId
    split
    next claimed =>
      have same : key.operationId = operationId := by
        cases record with
        | claim => exact claims.1.symm.trans (of_decide_eq_true claimed)
        | terminal => contradiction
      subst same
      have none : records.countP (·.isClaimOf key.operationId) = 0 :=
        List.countP_eq_zero.mpr fun r member =>
          Bool.eq_false_iff.mp (scan_claim_none.mp fresh r member)
      rw [none]
    next => omega
  preceded before acknowledgement after same := by
    rcases append_cons_concat same with ⟨_, rfl, _⟩ | ⟨after', _, inside⟩
    · exact claims.elim
    · exact consistent.preceded before acknowledgement after' inside

theorem consistent_terminal {records : List LedgerRecord} (consistent : Consistent records)
    {acknowledgement : ActionAck}
    (claimed : ∃ record ∈ records, record.Claims acknowledgement.key) :
    Consistent (records ++ [.terminal acknowledgement]) where
  claims operationId := by
    rw [List.countP_append, List.countP_singleton]
    exact consistent.claims operationId
  preceded before stored after same := by
    rcases append_cons_concat same with ⟨rfl, same, _⟩ | ⟨after', _, inside⟩
    · obtain rfl := LedgerRecord.terminal.inj same
      exact claimed
    · exact consistent.preceded before stored after' inside

/-- The claims of an operation are one record. -/
theorem claims_unique {records : List LedgerRecord} (consistent : Consistent records)
    {record record' : LedgerRecord} {key key' : OutcomeKey} (member : record ∈ records)
    (member' : record' ∈ records) (claims : record.Claims key) (claims' : record'.Claims key')
    (same : key.operationId = key'.operationId) : key = key' := by
  have one := consistent.claims key.operationId
  rw [List.countP_eq_length_filter] at one
  have first : record ∈ records.filter (·.isClaimOf key.operationId) :=
    List.mem_filter.mpr ⟨member, LedgerRecord.claims_isClaimOf claims⟩
  have second : record' ∈ records.filter (·.isClaimOf key.operationId) :=
    List.mem_filter.mpr ⟨member', same ▸ LedgerRecord.claims_isClaimOf claims'⟩
  rcases found : records.filter (·.isClaimOf key.operationId) with _ | ⟨only, _ | ⟨_, _⟩⟩
  · rw [found] at first
    contradiction
  · rw [found] at first second
    obtain rfl := List.mem_singleton.mp first
    obtain rfl := List.mem_singleton.mp second
    exact LedgerRecord.claims_key claims claims'
  · rw [found] at one
    simp at one

/-- Without a claim there is no terminal. -/
theorem unclaimed_unsettled {records : List LedgerRecord} (consistent : Consistent records)
    {operationId : String} (unclaimed : (scan operationId records).1 = none) :
    ∀ record ∈ records, record.isTerminalOf operationId = false := by
  intro record member
  cases record with
  | claim => rfl
  | terminal acknowledgement =>
    refine decide_eq_false fun same => ?_
    obtain ⟨before, after, whole⟩ := List.append_of_mem member
    obtain ⟨claim, earlier, claims⟩ := consistent.preceded before acknowledgement after whole
    have claimed := scan_claim_none.mp unclaimed claim (whole ▸ List.mem_append_left _ earlier)
    have claims' := LedgerRecord.claims_isClaimOf claims
    rw [← same] at claimed
    exact Bool.false_ne_true (claimed.symm.trans claims')

/-- A terminal has a claim of its key. -/
theorem terminal_claimed {records : List LedgerRecord} (consistent : Consistent records)
    {acknowledgement : ActionAck} (member : .terminal acknowledgement ∈ records) :
    ∃ record ∈ records, record.Claims acknowledgement.key := by
  obtain ⟨before, after, whole⟩ := List.append_of_mem member
  obtain ⟨claim, earlier, claims⟩ := consistent.preceded before acknowledgement after whole
  exact ⟨claim, whole ▸ List.mem_append_left _ earlier, claims⟩

end Praefectus
