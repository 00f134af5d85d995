import Praefectus.Json.Order
import Praefectus.Semantic.Fence
import Praefectus.Text.Sha256
import Mathlib.Data.List.Lex
import Mathlib.Data.List.Perm.Basic

/-!
# The topology of the displays

The geometry of an X11 desktop is hashed in a normal form, with the outputs of each
display and the displays in order. Two topologies have one normal form if and only if
they differ in these orders alone.
-/

/-! ### Sorting by a key -/

section Sorting

variable {α κ : Type} [LinearOrder κ] (key : α → κ)

def sortByKey (items : List α) : List α := items.insertionSort fun a b => key a ≤ key b

variable {key}

theorem sortByKey_perm (items : List α) : (sortByKey key items).Perm items :=
  List.perm_insertionSort _ items

theorem sortByKey_sorted (items : List α) :
    (sortByKey key items).Pairwise fun a b => key a ≤ key b := by
  have total : Std.Total fun a b : α => key a ≤ key b := ⟨fun a b => le_total (key a) (key b)⟩
  have trans : IsTrans α fun a b : α => key a ≤ key b := ⟨fun _ _ _ => le_trans⟩
  exact List.pairwise_insertionSort _ items

theorem sortByKey_sortByKey (items : List α) :
    sortByKey key (sortByKey key items) = sortByKey key items :=
  (sortByKey_sorted items).insertionSort_eq

/-- What the key tells apart is sorted in one way. -/
theorem sortByKey_eq_iff (distinct : Function.Injective key) {items others : List α} :
    sortByKey key items = sortByKey key others ↔ items.Perm others := by
  constructor
  · intro same
    exact (sortByKey_perm items).symm.trans (same ▸ sortByKey_perm others)
  · intro perm
    have antisymm : Std.Antisymm fun a b : α => key a ≤ key b :=
      ⟨fun _ _ le ge => distinct (le_antisymm le ge)⟩
    exact List.Perm.eq_of_pairwise' (sortByKey_sorted items) (sortByKey_sorted others)
      (((sortByKey_perm items).trans perm).trans (sortByKey_perm others).symm)

end Sorting

namespace Praefectus.Atspi

open Json

/-! ### The normal form -/

def maxDisplays : Nat := 64

def maxOutputs : Nat := 256

structure X11Display where
  crtc : UInt32
  x : Int16
  y : Int16
  width : UInt16
  height : UInt16
  rotation : UInt16
  outputs : List UInt32
  deriving DecidableEq

structure X11Topology where
  root : UInt32
  width : UInt16
  height : UInt16
  displays : List X11Display
  deriving DecidableEq

/-- The derived order compares field by field, and the outputs last. -/
def X11Display.sortKey (display : X11Display) : List Int :=
  (display.crtc.toNat : Int) :: display.x.toInt :: display.y.toInt :: display.width.toNat ::
    display.height.toNat :: display.rotation.toNat ::
      display.outputs.map fun output => (output.toNat : Int)

def X11Display.sortOutputs (display : X11Display) : X11Display :=
  { display with outputs := sortByKey UInt32.toNat display.outputs }

/-- The outputs seen so far with those of a display, if none of them comes up again. -/
def insertOutputs (seen : List UInt32) : List UInt32 → Option (List UInt32)
  | [] => some seen
  | output :: rest => if output ∈ seen then none else insertOutputs (output :: seen) rest

def normalizeDisplays (crtcs outputs : List UInt32) : List X11Display → Option (List X11Display)
  | [] => some []
  | display :: rest =>
    if display.width = 0 || display.height = 0 || display.outputs.isEmpty ||
        display.outputs.length > maxOutputs || crtcs.contains display.crtc then none
    else do
      let outputs ← insertOutputs outputs display.sortOutputs.outputs
      let rest ← normalizeDisplays (display.crtc :: crtcs) outputs rest
      pure (display.sortOutputs :: rest)

def X11Topology.normalize (topology : X11Topology) : Option X11Topology :=
  if topology.width = 0 || topology.height = 0 || topology.displays.isEmpty ||
      topology.displays.length > maxDisplays then none
  else do
    let displays ← normalizeDisplays [] [] topology.displays
    pure { topology with displays := sortByKey X11Display.sortKey displays }

def ofInt16 (n : Int16) : Json := ofInt64 n.toInt64

def X11Display.toJson (display : X11Display) : Json := .obj [
  ("crtc", ofUInt32 display.crtc),
  ("x", ofInt16 display.x),
  ("y", ofInt16 display.y),
  ("width", ofUInt16 display.width),
  ("height", ofUInt16 display.height),
  ("rotation", ofUInt16 display.rotation),
  ("outputs", .arr (display.outputs.map ofUInt32))]

def X11Topology.toJson (topology : X11Topology) : Json := .obj [
  ("root", ofUInt32 topology.root),
  ("width", ofUInt16 topology.width),
  ("height", ofUInt16 topology.height),
  ("displays", .arr (topology.displays.map X11Display.toJson))]

/-- The hash of the normal form. -/
def x11TopologyHash (build : Build) (topology : X11Topology) : Option String :=
  topology.normalize.map fun normal => hashSerializable build normal.toJson

/-! ### What is accepted -/

structure X11Display.Sized (display : X11Display) : Prop where
  width : display.width ≠ 0
  height : display.height ≠ 0
  some : display.outputs ≠ []
  few : display.outputs.length ≤ maxOutputs

/-- No dimension is zero, no list is empty or too long, and no crtc or output comes up again. -/
structure X11Topology.Accepted (topology : X11Topology) : Prop where
  width : topology.width ≠ 0
  height : topology.height ≠ 0
  some : topology.displays ≠ []
  few : topology.displays.length ≤ maxDisplays
  sized : ∀ display ∈ topology.displays, display.Sized
  crtcs : (topology.displays.map (·.crtc)).Nodup
  outputs : (topology.displays.flatMap (·.outputs)).Nodup

theorem insertOutputs_iff {seen new seen' : List UInt32} (once : seen.Nodup) :
    insertOutputs seen new = some seen' ↔ (seen ++ new).Nodup ∧ seen' = new.reverse ++ seen := by
  induction new generalizing seen with
  | nil =>
    rw [insertOutputs, List.append_nil, Option.some.injEq]
    exact ⟨fun same => ⟨once, same.symm⟩, fun same => same.2.symm⟩
  | cons output new ih =>
    have moved : (seen ++ output :: new).Nodup ↔ (output :: seen ++ new).Nodup :=
      List.perm_middle.nodup_iff
    rw [insertOutputs, moved]
    split
    next again =>
      refine iff_of_false nofun ?_
      rintro ⟨fresh, _⟩
      exact (List.nodup_cons.mp fresh).1 (List.mem_append_left _ again)
    next fresh =>
      rw [ih (List.nodup_cons.mpr ⟨fresh, once⟩), List.reverse_cons, List.append_assoc,
        List.singleton_append]

theorem inserted_perm {seen new : List UInt32} : (new.reverse ++ seen).Perm (seen ++ new) :=
  List.perm_append_comm.trans (new.reverse_perm.append_left seen)

theorem sortOutputs_perm (display : X11Display) :
    display.sortOutputs.outputs.Perm display.outputs := sortByKey_perm display.outputs

theorem sized_iff (display : X11Display) (crtcs : List UInt32) :
    ¬ (display.width = 0 || display.height = 0 || display.outputs.isEmpty ||
        display.outputs.length > maxOutputs || crtcs.contains display.crtc) = true ↔
      display.Sized ∧ display.crtc ∉ crtcs := by
  simp only [gt_iff_lt, Bool.or_eq_true, decide_eq_true_eq, List.isEmpty_iff,
    List.contains_iff_mem, not_or, Nat.not_lt]
  constructor
  · rintro ⟨⟨⟨⟨width, height⟩, some⟩, few⟩, fresh⟩
    exact ⟨⟨width, height, some, few⟩, fresh⟩
  · rintro ⟨⟨width, height, some, few⟩, fresh⟩
    exact ⟨⟨⟨⟨width, height⟩, some⟩, few⟩, fresh⟩

theorem normalizeDisplays_iff {crtcs outputs : List UInt32} {displays normal : List X11Display}
    (crtcsOnce : crtcs.Nodup) (outputsOnce : outputs.Nodup) :
    normalizeDisplays crtcs outputs displays = some normal ↔
      (∀ display ∈ displays, display.Sized) ∧ (crtcs ++ displays.map (·.crtc)).Nodup ∧
        (outputs ++ displays.flatMap (·.outputs)).Nodup ∧
        normal = displays.map X11Display.sortOutputs := by
  induction displays generalizing crtcs outputs normal with
  | nil => simp [normalizeDisplays, crtcsOnce, outputsOnce, eq_comm]
  | cons display rest ih =>
    have crtcsMoved : (crtcs ++ (display :: rest).map (·.crtc)).Nodup ↔
        (display.crtc :: crtcs ++ rest.map (·.crtc)).Nodup := List.perm_middle.nodup_iff
    have sorted : (display.sortOutputs.outputs.reverse ++ outputs).Perm
        (outputs ++ display.outputs) :=
      inserted_perm.trans ((sortOutputs_perm display).append_left outputs)
    have outputsMoved : (outputs ++ (display :: rest).flatMap (·.outputs)).Nodup ↔
        (display.sortOutputs.outputs.reverse ++ outputs ++ rest.flatMap (·.outputs)).Nodup := by
      rw [List.flatMap_cons, ← List.append_assoc]
      exact (sorted.append_right _).nodup_iff.symm
    rw [crtcsMoved, outputsMoved, List.forall_mem_cons, normalizeDisplays]
    by_cases accepted : display.Sized ∧ display.crtc ∉ crtcs
    · rw [if_neg ((sized_iff display crtcs).mpr accepted)]
      have once := List.nodup_cons.mpr ⟨accepted.2, crtcsOnce⟩
      constructor
      · intro found
        obtain ⟨outputs', inserted, found⟩ := Option.bind_eq_some_iff.mp found
        obtain ⟨rest', normalized, found⟩ := Option.bind_eq_some_iff.mp found
        obtain ⟨fresh, rfl⟩ := (insertOutputs_iff outputsOnce).mp inserted
        obtain ⟨sized, crtcsFresh, outputsFresh, rfl⟩ :=
          (ih once (inserted_perm.nodup_iff.mpr fresh)).mp normalized
        exact ⟨⟨accepted.1, sized⟩, crtcsFresh, outputsFresh, (Option.some.inj found).symm⟩
      · rintro ⟨⟨_, sized⟩, crtcsFresh, outputsFresh, rfl⟩
        have here := (List.nodup_append.mp outputsFresh).1
        have inserted := (insertOutputs_iff outputsOnce).mpr
          ⟨inserted_perm.nodup_iff.mp here, rfl⟩
        have normalized := (ih once here).mpr ⟨sized, crtcsFresh, outputsFresh, rfl⟩
        exact Option.bind_eq_some_iff.mpr
          ⟨_, inserted, Option.bind_eq_some_iff.mpr ⟨_, normalized, rfl⟩⟩
    · rw [if_pos (not_not.mp (mt (sized_iff display crtcs).mp accepted))]
      refine iff_of_false nofun ?_
      rintro ⟨⟨sized, _⟩, once, _⟩
      exact accepted ⟨sized, fun again => (List.nodup_cons.mp once).1 (List.mem_append_left _ again)⟩

/-- The outputs and the displays in order. -/
def X11Topology.sorted (topology : X11Topology) : X11Topology :=
  { topology with
    displays := sortByKey X11Display.sortKey (topology.displays.map X11Display.sortOutputs) }

theorem normalize_iff (topology normal : X11Topology) :
    topology.normalize = some normal ↔ topology.Accepted ∧ normal = topology.sorted := by
  unfold X11Topology.normalize
  by_cases bounded : topology.width ≠ 0 ∧ topology.height ≠ 0 ∧ topology.displays ≠ [] ∧
      topology.displays.length ≤ maxDisplays
  · obtain ⟨width, height, nonempty, few⟩ := bounded
    rw [if_neg (by simp [width, height, nonempty, few])]
    constructor
    · intro found
      obtain ⟨displays, normalized, found⟩ := Option.bind_eq_some_iff.mp found
      obtain ⟨sized, crtcs, outputs, rfl⟩ :=
        (normalizeDisplays_iff List.nodup_nil List.nodup_nil).mp normalized
      exact ⟨⟨width, height, nonempty, few, sized, crtcs, outputs⟩, (Option.some.inj found).symm⟩
    · rintro ⟨accepted, rfl⟩
      have normalized := (normalizeDisplays_iff List.nodup_nil List.nodup_nil).mpr
        ⟨accepted.sized, accepted.crtcs, accepted.outputs, rfl⟩
      exact Option.bind_eq_some_iff.mpr ⟨_, normalized, rfl⟩
  · rw [if_pos]
    · refine iff_of_false nofun ?_
      rintro ⟨accepted, _⟩
      exact bounded ⟨accepted.width, accepted.height, accepted.some, accepted.few⟩
    · by_contra refused
      simp only [gt_iff_lt, Bool.or_eq_true, decide_eq_true_eq, List.isEmpty_iff, not_or,
        Nat.not_lt] at refused
      obtain ⟨⟨⟨width, height⟩, nonempty⟩, few⟩ := refused
      exact bounded ⟨width, height, nonempty, few⟩

/-! ### Orders that are left out -/

/-- The displays differ in the order of their outputs alone. -/
structure SameDisplay (display other : X11Display) : Prop where
  crtc : display.crtc = other.crtc
  x : display.x = other.x
  y : display.y = other.y
  width : display.width = other.width
  height : display.height = other.height
  rotation : display.rotation = other.rotation
  outputs : display.outputs.Perm other.outputs

/-- The topologies differ in the order of displays, and of outputs within them, alone. -/
structure SameTopology (topology other : X11Topology) : Prop where
  root : topology.root = other.root
  width : topology.width = other.width
  height : topology.height = other.height
  displays : ∃ displays, topology.displays.Perm displays ∧
    List.Forall₂ SameDisplay displays other.displays

theorem toNat_injective : Function.Injective UInt32.toNat := fun _ _ => UInt32.toNat_inj.mp

theorem sortOutputs_iff (display other : X11Display) :
    display.sortOutputs = other.sortOutputs ↔ SameDisplay display other := by
  have outputs := @sortByKey_eq_iff _ _ _ _ toNat_injective display.outputs other.outputs
  cases display
  cases other
  simp only [X11Display.sortOutputs, X11Display.mk.injEq, outputs]
  constructor
  · rintro ⟨crtc, x, y, width, height, rotation, perm⟩
    exact ⟨crtc, x, y, width, height, rotation, perm⟩
  · rintro ⟨crtc, x, y, width, height, rotation, perm⟩
    exact ⟨crtc, x, y, width, height, rotation, perm⟩

theorem sortKey_injective : Function.Injective X11Display.sortKey := by
  intro display other same
  cases display
  cases other
  simp only [X11Display.sortKey, List.cons.injEq, Int.natCast_inj, UInt32.toNat_inj,
    UInt16.toNat_inj, Int16.toInt_inj] at same
  obtain ⟨rfl, rfl, rfl, rfl, rfl, rfl, outputs⟩ := same
  have narrow : Function.Injective fun output : UInt32 => (output.toNat : Int) :=
    fun _ _ same => toNat_injective (Int.natCast_inj.mp same)
  rw [List.map_injective_iff.mpr narrow outputs]

theorem map_sortOutputs_perm (displays others : List X11Display) :
    (displays.map X11Display.sortOutputs).Perm (others.map X11Display.sortOutputs) ↔
      ∃ between, displays.Perm between ∧ List.Forall₂ SameDisplay between others := by
  constructor
  · intro perm
    have sorts : List.Forall₂ (fun display sorted => X11Display.sortOutputs display = sorted)
        displays (displays.map X11Display.sortOutputs) :=
      List.forall₂_map_right_iff.mpr (List.forall₂_same.mpr fun _ _ => rfl)
    -- the order is changed before the outputs are sorted, not after
    have swapped : Relation.Comp List.Perm (List.Forall₂ fun display sorted =>
        X11Display.sortOutputs display = sorted) displays (others.map X11Display.sortOutputs) := by
      rw [← List.forall₂_comp_perm_eq_perm_comp_forall₂]
      exact ⟨_, sorts, perm⟩
    obtain ⟨between, reordered, each⟩ := swapped
    refine ⟨between, reordered, (List.forall₂_map_right_iff.mp each).imp ?_⟩
    exact fun display other => (sortOutputs_iff display other).mp
  · rintro ⟨between, reordered, each⟩
    have same : between.map X11Display.sortOutputs = others.map X11Display.sortOutputs := by
      refine List.forall₂_eq_eq_eq ▸ List.forall₂_map_left_iff.mpr
        (List.forall₂_map_right_iff.mpr (each.imp ?_))
      exact fun display other => (sortOutputs_iff display other).mpr
    exact same ▸ reordered.map _

theorem sorted_iff (topology other : X11Topology) :
    topology.sorted = other.sorted ↔ SameTopology topology other := by
  simp only [X11Topology.sorted, X11Topology.mk.injEq, sortByKey_eq_iff sortKey_injective,
    map_sortOutputs_perm]
  constructor
  · rintro ⟨root, width, height, displays⟩
    exact ⟨root, width, height, displays⟩
  · rintro ⟨root, width, height, displays⟩
    exact ⟨root, width, height, displays⟩

/-! ### The normal form of a normal form -/

theorem sized_sortOutputs {display : X11Display} (sized : display.Sized) :
    display.sortOutputs.Sized := by
  have perm := sortOutputs_perm display
  refine ⟨sized.width, sized.height, ?_, ?_⟩
  · intro empty
    exact sized.some (List.nil_perm.mp (empty ▸ perm))
  · rw [perm.length_eq]
    exact sized.few

theorem accepted_sorted {topology : X11Topology} (accepted : topology.Accepted) :
    topology.sorted.Accepted := by
  have perm : topology.sorted.displays.Perm (topology.displays.map X11Display.sortOutputs) :=
    sortByKey_perm _
  have crtcs := perm.map (·.crtc)
  have outputs := perm.flatMap_right (·.outputs)
  rw [List.map_map] at crtcs
  rw [List.flatMap_map] at outputs
  have inner : (topology.displays.flatMap fun display => display.sortOutputs.outputs).Perm
      (topology.displays.flatMap (·.outputs)) :=
    List.Perm.flatMap_left _ fun display _ => sortOutputs_perm display
  refine ⟨accepted.width, accepted.height, ?_, ?_, ?_, ?_, ?_⟩
  · intro empty
    have none := List.nil_perm.mp (empty ▸ perm)
    exact accepted.some (List.map_eq_nil_iff.mp none)
  · rw [perm.length_eq, List.length_map]
    exact accepted.few
  · intro display member
    obtain ⟨original, listed, rfl⟩ := List.mem_map.mp (perm.mem_iff.mp member)
    exact sized_sortOutputs (accepted.sized original listed)
  · exact crtcs.nodup_iff.mpr accepted.crtcs
  · exact (outputs.trans inner).nodup_iff.mpr accepted.outputs

theorem sortOutputs_sortOutputs (display : X11Display) :
    display.sortOutputs.sortOutputs = display.sortOutputs := by
  rw [X11Display.sortOutputs, X11Display.sortOutputs, sortByKey_sortByKey]

theorem sorted_sorted (topology : X11Topology) : topology.sorted.sorted = topology.sorted := by
  refine (sorted_iff _ _).mpr ⟨rfl, rfl, rfl, ?_⟩
  refine (map_sortOutputs_perm _ _).mp ?_
  refine ((sortByKey_perm _).map X11Display.sortOutputs).trans ?_
  rw [List.map_map]
  exact .of_eq (List.map_congr_left fun display _ => sortOutputs_sortOutputs display)

/-! ### What is hashed -/

theorem ofInt16_injective {m n : Int16} (same : ofInt16 m = ofInt16 n) : m = n := by
  have wide := congrArg Int64.toInt (ofInt64_injective same)
  rw [Int16.toInt_toInt64, Int16.toInt_toInt64] at wide
  exact Int16.toInt_inj.mp wide

theorem canonicalItems_outputs (outputs : List UInt32) :
    canonicalItems (outputs.map ofUInt32) = outputs.map ofUInt32 := by
  rw [canonicalItems_eq, List.map_map]
  rfl

theorem outputs_uniqueKeys (outputs : List UInt32) :
    uniqueItems (outputs.map ofUInt32) = true := by
  refine (uniqueItems_iff _).mpr fun item member => ?_
  obtain ⟨output, _, rfl⟩ := List.mem_map.mp member
  rfl

theorem display_uniqueKeys (display : X11Display) : display.toJson.uniqueKeys = true := by
  simp [X11Display.toJson, Json.uniqueKeys, uniqueMembers, outputs_uniqueKeys, ofInt16, ofInt64,
    ofUInt16, ofUInt32, ofUInt64]

theorem display_toJson_injective {display other : X11Display}
    (same : display.toJson.canonicalize = other.toJson.canonicalize) : display = other := by
  have field := get?_congr same (display_uniqueKeys display) (display_uniqueKeys other)
  have crtc := field "crtc"
  have x := field "x"
  have y := field "y"
  have width := field "width"
  have height := field "height"
  have rotation := field "rotation"
  have outputs := field "outputs"
  simp only [X11Display.toJson, get?, List.lookup_cons, String.reduceBEq, Option.map_some,
    canonicalize, canonicalItems_outputs, Option.some.injEq, Json.arr.injEq]
    at crtc x y width height rotation outputs
  cases display
  cases other
  simp only [X11Display.mk.injEq]
  exact ⟨ofUInt32_injective crtc, ofInt16_injective x, ofInt16_injective y,
    ofUInt16_injective width, ofUInt16_injective height, ofUInt16_injective rotation,
    List.map_injective_iff.mpr (fun _ _ => ofUInt32_injective) outputs⟩

theorem topology_uniqueKeys (topology : X11Topology) : topology.toJson.uniqueKeys = true := by
  have displays : uniqueItems (topology.displays.map X11Display.toJson) = true := by
    refine (uniqueItems_iff _).mpr fun item member => ?_
    obtain ⟨display, _, rfl⟩ := List.mem_map.mp member
    exact display_uniqueKeys display
  simp [X11Topology.toJson, Json.uniqueKeys, uniqueMembers, displays, ofUInt16, ofUInt32, ofUInt64]

theorem topology_toJson_injective {topology other : X11Topology}
    (same : topology.toJson.canonicalize = other.toJson.canonicalize) : topology = other := by
  have field := get?_congr same (topology_uniqueKeys topology) (topology_uniqueKeys other)
  have root := field "root"
  have width := field "width"
  have height := field "height"
  have displays := field "displays"
  simp only [X11Topology.toJson, get?, List.lookup_cons, String.reduceBEq, Option.map_some,
    canonicalize, canonicalItems_eq, List.map_map, Option.some.injEq, Json.arr.injEq]
    at root width height displays
  have injective : Function.Injective (canonicalize ∘ X11Display.toJson) :=
    fun _ _ => display_toJson_injective
  cases topology
  cases other
  simp only [X11Topology.mk.injEq]
  exact ⟨ofUInt32_injective root, ofUInt16_injective width, ofUInt16_injective height,
    List.map_injective_iff.mpr injective displays⟩

/-- **The normal form is canonical.** -/
theorem topology_normal_form (topology : X11Topology) :
    (∀ normal, topology.normalize = some normal → normal.normalize = some normal) ∧
    (topology.normalize = none ↔ ¬ topology.Accepted) ∧
    ∀ other : X11Topology, topology.Accepted → other.Accepted →
      (topology.normalize = other.normalize ↔ SameTopology topology other) ∧
      ∀ build : Build, Function.Injective build.sha256 →
        (x11TopologyHash build topology = x11TopologyHash build other ↔
          SameTopology topology other) := by
  refine ⟨?_, ?_, ?_⟩
  · intro normal found
    obtain ⟨accepted, rfl⟩ := (normalize_iff topology normal).mp found
    exact (normalize_iff _ _).mpr ⟨accepted_sorted accepted, (sorted_sorted topology).symm⟩
  · constructor
    · intro refused accepted
      have found := (normalize_iff topology topology.sorted).mpr ⟨accepted, rfl⟩
      cases refused.symm.trans found
    · intro unaccepted
      cases found : topology.normalize with
      | none => rfl
      | some normal => exact absurd ((normalize_iff _ _).mp found).1 unaccepted
  · intro other accepted accepted'
    have normal := (normalize_iff topology topology.sorted).mpr ⟨accepted, rfl⟩
    have normal' := (normalize_iff other other.sorted).mpr ⟨accepted', rfl⟩
    have same : topology.normalize = other.normalize ↔ SameTopology topology other := by
      rw [normal, normal', Option.some.injEq, sorted_iff]
    refine ⟨same, fun build distinct => ?_⟩
    rw [← same, x11TopologyHash, x11TopologyHash, normal, normal', Option.map_some,
      Option.map_some, Option.some.injEq, Option.some.injEq]
    constructor
    · intro hashes
      exact topology_toJson_injective (hashSerializable_injective distinct hashes)
    · intro equal
      rw [equal]

/-! ### Two displays in both orders -/

def leftDisplay : X11Display := ⟨2, 0, 0, 1920, 1080, 1, [7]⟩

def rightDisplay : X11Display := ⟨3, 1920, 0, 1920, 1080, 1, [9, 8]⟩

def wideDesktop : X11Topology := ⟨1, 3840, 2160, [rightDisplay, leftDisplay]⟩

def swappedDesktop : X11Topology := ⟨1, 3840, 2160, [leftDisplay, { rightDisplay with outputs := [8, 9] }]⟩

/-- The second is the normal form of both, of which the digest is known. -/
def swappedBuild : Build := ⟨false, Sha256.Messages.digest
  ⟨[canonicalJsonBytes swappedDesktop.toJson], List.nodup_singleton _⟩⟩

theorem topology_normal_form_swapped :
    x11TopologyHash swappedBuild wideDesktop = x11TopologyHash swappedBuild swappedDesktop ∧
      wideDesktop.normalize ≠ none := by
  have accepted : wideDesktop.Accepted := by
    refine ⟨by decide, by decide, by decide, by decide, ?_, by decide, by decide⟩
    intro display member
    rcases List.mem_pair.mp member with rfl | rfl <;>
      exact ⟨by decide, by decide, by decide, by decide⟩
  have accepted' : swappedDesktop.Accepted := by
    refine ⟨by decide, by decide, by decide, by decide, ?_, by decide, by decide⟩
    intro display member
    rcases List.mem_pair.mp member with rfl | rfl <;>
      exact ⟨by decide, by decide, by decide, by decide⟩
  have canonical := topology_normal_form wideDesktop
  have same : SameTopology wideDesktop swappedDesktop := by
    refine ⟨rfl, rfl, rfl, _, .swap _ _ _, ?_⟩
    exact .cons ⟨rfl, rfl, rfl, rfl, rfl, rfl, .refl _⟩
      (.cons ⟨rfl, rfl, rfl, rfl, rfl, rfl, .swap _ _ _⟩ .nil)
  refine ⟨((canonical.2.2 swappedDesktop accepted accepted').2 swappedBuild
    (Sha256.Messages.digest_injective _)).mpr same, ?_⟩
  exact fun refused => canonical.2.1.mp refused accepted

end Praefectus.Atspi
