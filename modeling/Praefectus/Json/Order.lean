import Praefectus.Json.Canonical
import Praefectus.Text.Utf8

/-!
# The order of members

Objects are maps that keep their members either in the order of insertion or sorted by key.
Canonicalization rebuilds every map in the order of the keys. Both kinds of map come out the
same, and the text of a value then says what the value is up to the order of members.
-/

/-- The maps of a build: sorted by key, or kept in the order of insertion. -/
inductive MapKind where
  | sorted | insertion
  deriving DecidableEq

namespace MapKind

/-- A key that is there keeps its place and takes the new value. -/
def insert (kind : MapKind) (key : String) (value : Json) :
    List (String × Json) → List (String × Json)
  | [] => [(key, value)]
  | (other, held) :: members =>
    if key = other then (key, value) :: members
    else if kind = .sorted ∧ key < other then (key, value) :: (other, held) :: members
    else (other, held) :: kind.insert key value members

def collect (kind : MapKind) (entries : List (String × Json)) : List (String × Json) :=
  entries.foldl (fun members entry => kind.insert entry.1 entry.2 members) []

/-- Keys that grow from entry to entry. -/
def Ascending (entries : List (String × Json)) : Prop := entries.Pairwise fun a b => a.1 < b.1

theorem insert_last (kind : MapKind) (key : String) (value : Json) {members : List (String × Json)}
    (above : ∀ member ∈ members, member.1 < key) :
    kind.insert key value members = members ++ [(key, value)] := by
  induction members with
  | nil => rfl
  | cons member members ih =>
    obtain ⟨first, rest⟩ := List.forall_mem_cons.mp above
    have apart : key ≠ member.1 := (ne_of_lt first).symm
    have later : ¬ (kind = .sorted ∧ key < member.1) := fun before => lt_asymm first before.2
    rw [insert, if_neg apart, if_neg later, ih rest, List.cons_append]

/-- Entries in the order of their keys are kept as they are, by either kind of map. -/
theorem collect_ascending (kind : MapKind) {entries : List (String × Json)}
    (ascending : Ascending entries) : kind.collect entries = entries := by
  suffices grows : ∀ members, Ascending (members ++ entries) →
      entries.foldl (fun members entry => kind.insert entry.1 entry.2 members) members =
        members ++ entries from grows [] ascending
  clear ascending
  induction entries with
  | nil => exact fun members _ => (List.append_nil members).symm
  | cons entry entries ih =>
    intro members ascending
    have above : ∀ member ∈ members, member.1 < entry.1 := fun member held =>
      (List.pairwise_append.mp ascending).2.2 member held entry List.mem_cons_self
    have rest := ih (members ++ [entry])
    rw [List.append_assoc, List.singleton_append] at rest
    rw [List.foldl_cons, insert_last kind _ _ above]
    exact rest ascending

end MapKind

namespace Json

/-! ### Sorted members -/

instance : Std.Total fun left right : String × Json => left.1 ≤ right.1 :=
  ⟨fun left right => le_total left.1 right.1⟩

instance : IsTrans (String × Json) fun left right => left.1 ≤ right.1 :=
  ⟨fun _ _ _ => le_trans⟩

theorem sortMembers_ascending {members : List (String × Json)}
    (unique : (members.map Prod.fst).Nodup) : MapKind.Ascending (sortMembers members) := by
  have sorted : (sortMembers members).Pairwise fun left right => left.1 ≤ right.1 :=
    List.pairwise_insertionSort _ members
  have apart : (sortMembers members).Pairwise fun left right => left.1 ≠ right.1 := by
    have unique' := ((sortMembers_perm members).map Prod.fst).nodup_iff.mpr unique
    exact List.pairwise_map.mp unique'
  exact (sorted.and apart).imp fun both => lt_of_le_of_ne both.1 both.2

/-- Maps with the same members are the same once sorted. -/
theorem sortMembers_eq {before after : List (String × Json)} (perm : before.Perm after)
    (unique : (before.map Prod.fst).Nodup) : sortMembers before = sortMembers after := by
  have unique' : (after.map Prod.fst).Nodup := (perm.map Prod.fst).nodup_iff.mp unique
  refine List.Perm.eq_of_pairwise ?_ (sortMembers_ascending unique) (sortMembers_ascending unique')
    (((sortMembers_perm before).trans perm).trans (sortMembers_perm after).symm)
  intro left right _ _ below above
  exact absurd below (lt_asymm above)

/-! ### Unique keys -/

theorem uniqueItems_iff (items : List Json) :
    uniqueItems items = true ↔ ∀ item ∈ items, item.uniqueKeys = true := by
  induction items with
  | nil => simp [uniqueItems]
  | cons item items ih => simp [uniqueItems, ih]

theorem uniqueMembers_iff (members : List (String × Json)) :
    uniqueMembers members = true ↔ ∀ member ∈ members, member.2.uniqueKeys = true := by
  induction members with
  | nil => simp [uniqueMembers]
  | cons member members ih => simp [uniqueMembers, ih]

theorem uniqueKeys_arr (items : List Json) :
    (Json.arr items).uniqueKeys = true ↔ ∀ item ∈ items, item.uniqueKeys = true :=
  uniqueItems_iff items

theorem uniqueKeys_obj (members : List (String × Json)) :
    (Json.obj members).uniqueKeys = true ↔
      (members.map Prod.fst).Nodup ∧ ∀ member ∈ members, member.2.uniqueKeys = true := by
  rw [uniqueKeys, Bool.and_eq_true, decide_eq_true_eq, uniqueMembers_iff]

/-- Another order of members leaves the keys unique, and the canonical form the same. -/
theorem reordered_canonical {i j : Json} (reordered : Reordered i j) :
    (i.uniqueKeys = true ↔ j.uniqueKeys = true) ∧
      (i.uniqueKeys = true → i.canonicalize = j.canonicalize) := by
  induction reordered with
  | refl j => exact ⟨Iff.rfl, fun _ => rfl⟩
  | symm _ ih => exact ⟨ih.1.symm, fun unique => (ih.2 (ih.1.mpr unique)).symm⟩
  | trans _ _ first second =>
    refine ⟨first.1.trans second.1, fun unique => ?_⟩
    exact (first.2 unique).trans (second.2 (first.1.mp unique))
  | @members before after perm =>
    constructor
    · simp only [uniqueKeys_obj, (perm.map Prod.fst).nodup_iff, perm.mem_iff]
    · intro unique
      have keys := ((uniqueKeys_obj before).mp unique).1
      rw [← canonicalMembers_keys] at keys
      rw [canonicalize, canonicalize]
      refine congrArg Json.obj (sortMembers_eq ?_ keys)
      rw [canonicalMembers_eq, canonicalMembers_eq]
      exact perm.map _
  | @item left right i j _ ih =>
    constructor
    · simp only [uniqueKeys_arr, List.forall_mem_append, List.forall_mem_cons, ih.1]
    · intro unique
      have inner := (uniqueKeys_arr _).mp unique i (by simp)
      simp only [canonicalize, canonicalItems_eq, List.map_append, List.map_cons, ih.2 inner]
  | @member left right key i j _ ih =>
    constructor
    · simp only [uniqueKeys_obj, List.map_append, List.map_cons, List.forall_mem_append,
        List.forall_mem_cons, ih.1]
    · intro unique
      have inner := ((uniqueKeys_obj _).mp unique).2 (key, i) (by simp)
      simp only [canonicalize, canonicalMembers_eq, List.map_append, List.map_cons, ih.2 inner]

/-! ### Canonicalization -/

mutual

/-- Rebuilds every map from its sorted entries. Sorting looks at the keys only, so the values
of the entries may be rebuilt before. -/
def canonicalizeJson (kind : MapKind) : Json → Json
  | .arr values => .arr (canonicalizeValues kind values)
  | .obj values => .obj (kind.collect (sortMembers (canonicalizeEntries kind values)))
  | value => value

def canonicalizeValues (kind : MapKind) : List Json → List Json
  | [] => []
  | value :: values => canonicalizeJson kind value :: canonicalizeValues kind values

def canonicalizeEntries (kind : MapKind) : List (String × Json) → List (String × Json)
  | [] => []
  | (key, value) :: entries => (key, canonicalizeJson kind value) :: canonicalizeEntries kind entries

end

theorem canonicalizeValues_eq (kind : MapKind) {values : List Json}
    (each : ∀ value ∈ values, canonicalizeJson kind value = value.canonicalize) :
    canonicalizeValues kind values = canonicalItems values := by
  induction values with
  | nil => rfl
  | cons value values ih =>
    obtain ⟨first, rest⟩ := List.forall_mem_cons.mp each
    rw [canonicalizeValues, canonicalItems, first, ih rest]

theorem canonicalizeEntries_eq (kind : MapKind) {entries : List (String × Json)}
    (each : ∀ entry ∈ entries, canonicalizeJson kind entry.2 = entry.2.canonicalize) :
    canonicalizeEntries kind entries = canonicalMembers entries := by
  induction entries with
  | nil => rfl
  | cons entry entries ih =>
    obtain ⟨first, rest⟩ := List.forall_mem_cons.mp each
    rw [canonicalizeEntries, canonicalMembers, first, ih rest]

/-- Either kind of map comes out as the canonical form. -/
theorem canonicalizeJson_eq (kind : MapKind) {j : Json} (unique : j.uniqueKeys = true) :
    canonicalizeJson kind j = j.canonicalize := by
  induction j using Json.induction with
  | null => rfl
  | bool => rfl
  | int => rfl
  | float => rfl
  | str => rfl
  | arr values each =>
    have inner := (uniqueKeys_arr values).mp unique
    rw [canonicalizeJson, canonicalize,
      canonicalizeValues_eq kind fun value member => each value member (inner value member)]
  | obj entries each =>
    obtain ⟨keys, inner⟩ := (uniqueKeys_obj entries).mp unique
    rw [← canonicalMembers_keys] at keys
    rw [canonicalizeJson, canonicalize,
      canonicalizeEntries_eq kind fun entry member => each entry member (inner entry member),
      kind.collect_ascending (sortMembers_ascending keys)]

theorem unique_canonicalize {j : Json} (unique : j.uniqueKeys = true) :
    j.canonicalize.uniqueKeys = true :=
  (reordered_canonical (reordered_canonicalize j)).1.mp unique

theorem canonicalize_canonicalize {j : Json} (unique : j.uniqueKeys = true) :
    j.canonicalize.canonicalize = j.canonicalize :=
  ((reordered_canonical (reordered_canonicalize j)).2 unique).symm

end Json

open Json

/-- The bytes that are hashed and signed. -/
def MapKind.canonicalJsonBytes (kind : MapKind) (value : Value) : List UInt8 :=
  utf8 (canonicalizeJson kind value.json).print

/-- Canonicalization changes nothing the second time, and the canonical bytes of two values are
equal if and only if the values differ in the order of members at most. -/
theorem canonicalBytes_iff (kind : MapKind) (u v : Value) :
    canonicalizeJson kind (canonicalizeJson kind u.json) = canonicalizeJson kind u.json ∧
      (kind.canonicalJsonBytes u = kind.canonicalJsonBytes v ↔ Reordered u.json v.json) := by
  have first := canonicalizeJson_eq kind u.unique
  have second := canonicalizeJson_eq kind v.unique
  constructor
  · rw [first, canonicalizeJson_eq kind (unique_canonicalize u.unique),
      canonicalize_canonicalize u.unique]
  · rw [MapKind.canonicalJsonBytes, MapKind.canonicalJsonBytes, first, second]
    constructor
    · intro same
      exact reordered_of_canonicalize (print_injective (utf8_injective same))
    · intro reordered
      rw [(reordered_canonical reordered).2 u.unique]
