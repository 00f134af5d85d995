import Praefectus.Json.RoundTrip
import Mathlib.Data.List.Sort
import Mathlib.Data.String.Basic

/-!
# Canonical JSON

Canonical form sorts the members of every object by key. Two values with the same
canonical form differ only in the order of members, and agree on every lookup.
-/

/-- A list of pairs without repeated keys, read as a map. -/
theorem lookup_iff {α β : Type} [DecidableEq α] {pairs : List (α × β)}
    (distinct : (pairs.map Prod.fst).Nodup) {a : α} {b : β} :
    pairs.lookup a = some b ↔ (a, b) ∈ pairs := by
  induction pairs with
  | nil => simp
  | cons pair pairs ih =>
    obtain ⟨a', b'⟩ := pair
    rw [List.map_cons, List.nodup_cons] at distinct
    rw [List.lookup_cons, List.mem_cons, Prod.mk.injEq]
    by_cases same : a = a'
    · subst same
      have other : (a, b) ∉ pairs := fun member =>
        distinct.1 (List.mem_map.mpr ⟨(a, b), member, rfl⟩)
      simp [other, eq_comm]
    · have differs : (a == a') = false := by simpa using same
      rw [differs, ih distinct.2]
      simp [same]

namespace Json

mutual

/-- No object has two members with one key. -/
def uniqueKeys : Json → Bool
  | .arr items => uniqueItems items
  | .obj members => decide (members.map Prod.fst).Nodup && uniqueMembers members
  | _ => true

def uniqueItems : List Json → Bool
  | [] => true
  | item :: items => item.uniqueKeys && uniqueItems items

def uniqueMembers : List (String × Json) → Bool
  | [] => true
  | (_, value) :: members => value.uniqueKeys && uniqueMembers members

end

def sortMembers (members : List (String × Json)) : List (String × Json) :=
  members.insertionSort fun left right => left.1 ≤ right.1

mutual

def canonicalize : Json → Json
  | .arr items => .arr (canonicalItems items)
  | .obj members => .obj (sortMembers (canonicalMembers members))
  | j => j

def canonicalItems : List Json → List Json
  | [] => []
  | item :: items => item.canonicalize :: canonicalItems items

def canonicalMembers : List (String × Json) → List (String × Json)
  | [] => []
  | (key, value) :: members => (key, value.canonicalize) :: canonicalMembers members

end

theorem canonicalItems_eq (items : List Json) : canonicalItems items = items.map canonicalize := by
  induction items with
  | nil => rfl
  | cons item items ih => rw [canonicalItems, ih, List.map_cons]

theorem canonicalMembers_eq (members : List (String × Json)) :
    canonicalMembers members = members.map fun member => (member.1, member.2.canonicalize) := by
  induction members with
  | nil => rfl
  | cons member members ih => rw [canonicalMembers, ih, List.map_cons]

theorem sortMembers_perm (members : List (String × Json)) : (sortMembers members).Perm members :=
  List.perm_insertionSort _ members

/-! ### Values up to the order of members -/

/-- The least equivalence that allows the members of an object, at any depth, to be
written in another order. -/
inductive Reordered : Json → Json → Prop where
  | refl (j : Json) : Reordered j j
  | symm {i j : Json} : Reordered i j → Reordered j i
  | trans {i j k : Json} : Reordered i j → Reordered j k → Reordered i k
  | members {before after : List (String × Json)} :
      before.Perm after → Reordered (.obj before) (.obj after)
  | item {left right : List Json} {i j : Json} :
      Reordered i j → Reordered (.arr (left ++ i :: right)) (.arr (left ++ j :: right))
  | member {left right : List (String × Json)} {key : String} {i j : Json} :
      Reordered i j →
      Reordered (.obj (left ++ (key, i) :: right)) (.obj (left ++ (key, j) :: right))

theorem reordered_items (done : List Json) {items : List Json}
    (each : ∀ item ∈ items, Reordered item item.canonicalize) :
    Reordered (.arr (done ++ items)) (.arr (done ++ canonicalItems items)) := by
  induction items generalizing done with
  | nil => exact .refl _
  | cons item items ih =>
    obtain ⟨first, others⟩ := List.forall_mem_cons.mp each
    have rest := ih (done ++ [item.canonicalize]) others
    simp only [List.append_assoc, List.singleton_append] at rest
    exact .trans (.item first) rest

theorem reordered_members (done : List (String × Json)) {members : List (String × Json)}
    (each : ∀ member ∈ members, Reordered member.2 member.2.canonicalize) :
    Reordered (.obj (done ++ members)) (.obj (done ++ canonicalMembers members)) := by
  induction members generalizing done with
  | nil => exact .refl _
  | cons member members ih =>
    obtain ⟨key, value⟩ := member
    obtain ⟨first, others⟩ := List.forall_mem_cons.mp each
    have rest := ih (done ++ [(key, value.canonicalize)]) others
    simp only [List.append_assoc, List.singleton_append] at rest
    exact .trans (.member first) rest

theorem reordered_canonicalize (j : Json) : Reordered j j.canonicalize := by
  induction j using Json.induction with
  | null => exact .refl _
  | bool => exact .refl _
  | int => exact .refl _
  | float => exact .refl _
  | str => exact .refl _
  | arr items each => exact reordered_items [] each
  | obj members each =>
    exact .trans (reordered_members [] each) (.members (sortMembers_perm _).symm)

/-- Values with one canonical form differ at most in the order of members. -/
theorem reordered_of_canonicalize {i j : Json} (same : i.canonicalize = j.canonicalize) :
    Reordered i j := by
  have first := reordered_canonicalize i
  rw [same] at first
  exact first.trans (reordered_canonicalize j).symm

/-! ### Lookups -/

/-- The value of a key. -/
def get? (key : String) : Json → Option Json
  | .obj members => members.lookup key
  | _ => none

def asStr : Json → Option String
  | .str s => some s
  | _ => none

theorem lookup_perm {α β : Type} [DecidableEq α] {before after : List (α × β)}
    (perm : before.Perm after) (unique : (before.map Prod.fst).Nodup) (key : α) :
    before.lookup key = after.lookup key := by
  have unique' : (after.map Prod.fst).Nodup := (perm.map Prod.fst).nodup_iff.mp unique
  refine Option.ext fun value => ?_
  rw [lookup_iff unique, lookup_iff unique', perm.mem_iff]

theorem canonicalMembers_keys (members : List (String × Json)) :
    (canonicalMembers members).map Prod.fst = members.map Prod.fst := by
  rw [canonicalMembers_eq, List.map_map]
  rfl

theorem canonicalMembers_lookup (members : List (String × Json)) (key : String) :
    (canonicalMembers members).lookup key = (members.lookup key).map canonicalize := by
  induction members with
  | nil => rfl
  | cons member members ih =>
    obtain ⟨k, v⟩ := member
    rw [canonicalMembers, List.lookup_cons, List.lookup_cons, ih]
    split <;> rfl

/-- A lookup finds in the canonical form the canonical form of what it finds. -/
theorem get?_canonicalize {j : Json} (unique : j.uniqueKeys = true) (key : String) :
    j.canonicalize.get? key = (j.get? key).map canonicalize := by
  cases j with
  | obj members =>
    simp only [uniqueKeys, Bool.and_eq_true, decide_eq_true_eq] at unique
    have keys : ((canonicalMembers members).map Prod.fst).Nodup := by
      rw [canonicalMembers_keys]; exact unique.1
    have sorted := lookup_perm (sortMembers_perm (canonicalMembers members)).symm keys key
    rw [canonicalize, get?, get?, ← sorted, canonicalMembers_lookup]
  | _ => rfl

/-- Values with one canonical form agree on every lookup, up to canonical form. -/
theorem get?_congr {i j : Json} (same : i.canonicalize = j.canonicalize)
    (uniqueI : i.uniqueKeys = true) (uniqueJ : j.uniqueKeys = true) (key : String) :
    (i.get? key).map canonicalize = (j.get? key).map canonicalize := by
  rw [← get?_canonicalize uniqueI, same, get?_canonicalize uniqueJ]

end Json

/-- A value whose objects are maps: no key occurs twice. -/
structure Value where
  json : Json
  unique : json.uniqueKeys = true

namespace Value

/-- Maps are equal whatever the order their members are kept in. -/
def same (a b : Value) : Bool := decide (a.json.canonicalize.print = b.json.canonicalize.print)

end Value
