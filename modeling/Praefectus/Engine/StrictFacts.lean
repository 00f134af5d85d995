import Praefectus.Engine.Facts

/-!
# Strict capability facts

What an executor advertises is read only if it is consistent as a whole: no name twice,
no fact twice, every route allowed, and exactly the supported actions described.
-/

namespace Praefectus

/-! ### Routes -/

/-- Actions that are delivered to an element itself. -/
def elementActions : List String :=
  ["invoke", "set_value", "select_text", "perform_secondary_action"]

/-- Actions that are delivered as input events. -/
def inputActions : List String :=
  ["click", "drag", "type_text", "press", "paste", "hotkey", "move"]

/-- The routes that each action can be advertised with. -/
inductive RouteAllowed : ActionCapability → Prop where
  | element {name : String} {support : BackgroundSupport} :
      name ∈ elementActions → RouteAllowed ⟨name, .targetAddressed, support⟩
  | input {name : String} {route : DeliveryRoute} {support : BackgroundSupport} :
      name ∈ inputActions → route = .pointer ∨ route = .perProcessEvent →
      RouteAllowed ⟨name, route, support⟩
  | scroll {route : DeliveryRoute} {support : BackgroundSupport} :
      route ≠ .unknown → RouteAllowed ⟨"scroll", route, support⟩
  | application : RouteAllowed ⟨"application", .pointer, .unavailable⟩

theorem routeIsValid_iff (capability : ActionCapability) :
    routeIsValid capability = true ↔ RouteAllowed capability := by
  obtain ⟨name, route, support⟩ := capability
  constructor
  · intro valid
    unfold routeIsValid at valid
    split at valid
    case h_1 same | h_2 same | h_3 same | h_4 same =>
      obtain rfl : name = _ := same
      obtain rfl := of_decide_eq_true valid
      exact .element (by decide)
    case h_5 same =>
      obtain rfl : name = _ := same
      rw [Bool.and_eq_true, decide_eq_true_eq, decide_eq_true_eq] at valid
      obtain ⟨rfl, rfl⟩ := valid
      exact .application
    case h_6 same | h_7 same | h_8 same | h_9 same | h_10 same | h_11 same | h_12 same =>
      obtain rfl : name = _ := same
      rw [Bool.or_eq_true, decide_eq_true_eq, decide_eq_true_eq] at valid
      exact .input (by decide) valid
    case h_13 same =>
      obtain rfl : name = _ := same
      refine .scroll ?_
      rintro rfl
      cases valid
    case h_14 => cases valid
  · intro allowed
    cases allowed with
    | element member =>
      simp only [elementActions, List.mem_cons, List.not_mem_nil, or_false] at member
      rcases member with rfl | rfl | rfl | rfl <;> rfl
    | input member either =>
      simp only [inputActions, List.mem_cons, List.not_mem_nil, or_false] at member
      rcases member with rfl | rfl | rfl | rfl | rfl | rfl | rfl <;>
        rcases either with rfl | rfl <;> rfl
    | scroll known => cases route <;> first | rfl | exact absurd rfl known
    | application => rfl

/-! ### Collecting the facts -/

def keyed (capability : ActionCapability) : String × ActionCapability :=
  (capability.action, capability)

theorem keyed_keys (capabilities : List ActionCapability) :
    (capabilities.map keyed).map Prod.fst = capabilities.map (·.action) := by
  rw [List.map_map]
  rfl

theorem lookup_isSome_iff_keys {facts : List (String × ActionCapability)} {name : String} :
    (facts.lookup name).isSome = true ↔ name ∈ facts.map Prod.fst := by
  rw [List.lookup_isSome_iff, List.mem_map]
  simp only [beq_iff_eq, @eq_comm String name]

/-- The collection ends if every route is allowed and no action occurs again. -/
theorem collectFacts_iff {facts found : List (String × ActionCapability)}
    {capabilities : List ActionCapability} :
    collectFacts facts capabilities = some found ↔
      (∀ capability ∈ capabilities, RouteAllowed capability) ∧
      (∀ capability ∈ capabilities, capability.action ∉ facts.map Prod.fst) ∧
      (capabilities.map (·.action)).Nodup ∧
      found = (capabilities.map keyed).reverse ++ facts := by
  induction capabilities generalizing facts with
  | nil => simp [collectFacts, eq_comm]
  | cons capability rest ih =>
    rw [collectFacts, ite_eq_iff]
    simp only [Bool.or_eq_true, not_or, Bool.not_eq_true', Bool.not_eq_false, reduceCtorEq,
      and_false, false_or, routeIsValid_iff, lookup_isSome_iff_keys, ih, List.map_cons,
      List.mem_cons, List.nodup_cons, List.reverse_cons, List.append_assoc, List.singleton_append,
      forall_eq_or_imp]
    constructor
    · rintro ⟨⟨allowed, fresh⟩, laterAllowed, laterFresh, distinct, rfl⟩
      refine ⟨⟨allowed, laterAllowed⟩, ⟨fresh, fun later member => ?_⟩, ⟨?_, distinct⟩, rfl⟩
      · exact fun known => (laterFresh later member).2 known
      · intro again
        obtain ⟨later, member, same⟩ := List.mem_map.mp again
        exact (laterFresh later member).1 same
    · rintro ⟨⟨allowed, laterAllowed⟩, ⟨fresh, laterFresh⟩, ⟨single, distinct⟩, rfl⟩
      refine ⟨⟨allowed, fresh⟩, laterAllowed, fun later member => ?_, distinct, rfl⟩
      refine ⟨fun same => ?_, laterFresh later member⟩
      exact single (List.mem_map.mpr ⟨later, member, same⟩)

/-! ### Reading the facts -/

/-- The advertised facts describe the supported actions, each once. -/
structure StrictFacts (capabilities : Capabilities) : Prop where
  supportedOnce : capabilities.supportedActions.Nodup
  factsOnce : (capabilities.actionCapabilities.map (·.action)).Nodup
  allowed : ∀ capability ∈ capabilities.actionCapabilities, RouteAllowed capability
  described : ∀ name, name ∈ capabilities.supportedActions ↔
    ∃ capability ∈ capabilities.actionCapabilities, capability.action = name

/-- Reordering either list keeps the facts. -/
theorem strictFacts_perm {capabilities other : Capabilities}
    (supported : capabilities.supportedActions.Perm other.supportedActions)
    (facts : capabilities.actionCapabilities.Perm other.actionCapabilities) :
    StrictFacts capabilities ↔ StrictFacts other := by
  have actions := facts.map (·.action)
  constructor
  · rintro ⟨supportedOnce, factsOnce, allowed, described⟩
    refine ⟨supported.nodup_iff.mp supportedOnce, actions.nodup_iff.mp factsOnce, ?_, ?_⟩
    · exact fun capability member => allowed capability (facts.mem_iff.mpr member)
    · simpa only [← supported.mem_iff, ← facts.mem_iff] using described
  · rintro ⟨supportedOnce, factsOnce, allowed, described⟩
    refine ⟨supported.nodup_iff.mpr supportedOnce, actions.nodup_iff.mpr factsOnce, ?_, ?_⟩
    · exact fun capability member => allowed capability (facts.mem_iff.mp member)
    · simpa only [supported.mem_iff, facts.mem_iff] using described

/-- Lists without duplicates have the same members if they are as long as each other, and one is
within the other. -/
theorem mem_iff_iff_length {names keys : List String} (namesOnce : names.Nodup)
    (keysOnce : keys.Nodup) :
    (∀ name, name ∈ names ↔ name ∈ keys) ↔ names.length = keys.length ∧ names ⊆ keys := by
  constructor
  · intro same
    exact ⟨((List.perm_ext_iff_of_nodup namesOnce keysOnce).mpr same).length_eq,
      fun name => (same name).mp⟩
  · rintro ⟨length, within⟩ name
    exact ((List.subperm_of_subset namesOnce within).perm_of_length_le length.ge).mem_iff

/-- The comparison of the supported names with the facts by number and by lookup. -/
theorem covered_iff {supported : List String} {facts : List (String × ActionCapability)}
    (supportedOnce : supported.Nodup) (factsOnce : (facts.map Prod.fst).Nodup) :
    (supported.length ≠ facts.length ||
        supported.any fun name => (facts.lookup name).isNone) = false ↔
      ∀ name, name ∈ supported ↔ name ∈ facts.map Prod.fst := by
  rw [mem_iff_iff_length supportedOnce factsOnce, List.length_map]
  simp only [ne_eq, Bool.or_eq_false_iff, decide_eq_false_iff_not, not_not, List.any_eq_false,
    Option.isNone_iff_eq_none, ← Option.isSome_iff_ne_none, lookup_isSome_iff_keys]
  rfl

theorem strictActionCapability_iff (capabilities : Capabilities) (action : Action)
    (capability : ActionCapability) :
    strictActionCapability capabilities action = some capability ↔
      StrictFacts capabilities ∧ capability ∈ capabilities.actionCapabilities ∧
        capability.action = action.name := by
  unfold strictActionCapability
  by_cases supportedOnce : capabilities.supportedActions.Nodup
  · rw [if_neg (not_not_intro supportedOnce)]
    cases collected : collectFacts [] capabilities.actionCapabilities with
    | none =>
      -- a fact of no allowed route, or two facts for an action
      refine iff_of_false nofun ?_
      rintro ⟨strict, _⟩
      have found : collectFacts [] capabilities.actionCapabilities = some _ :=
        collectFacts_iff.mpr ⟨strict.allowed, fun _ _ => List.not_mem_nil, strict.factsOnce, rfl⟩
      cases collected.symm.trans found
    | some facts =>
      obtain ⟨allowed, _, factsOnce, rfl⟩ := collectFacts_iff.mp collected
      rw [List.append_nil]
      have keys : ((capabilities.actionCapabilities.map keyed).reverse.map Prod.fst) =
          (capabilities.actionCapabilities.map (·.action)).reverse := by
        rw [List.map_reverse, keyed_keys]
      have distinct : ((capabilities.actionCapabilities.map keyed).reverse.map Prod.fst).Nodup := by
        rw [keys]
        exact List.nodup_reverse.mpr factsOnce
      have described (name : String) :
          name ∈ (capabilities.actionCapabilities.map keyed).reverse.map Prod.fst ↔
            ∃ capability ∈ capabilities.actionCapabilities, capability.action = name := by
        rw [keys, List.mem_reverse, List.mem_map]
      dsimp only
      split
      next uncovered =>
        -- the supported names are not those of the facts
        refine iff_of_false nofun ?_
        rintro ⟨strict, _⟩
        have covered := (covered_iff supportedOnce distinct).mpr fun name =>
          (strict.described name).trans (described name).symm
        rw [uncovered] at covered
        cases covered
      next covered =>
        have covered := (covered_iff supportedOnce distinct).mp (Bool.not_eq_true _ ▸ covered)
        have strict : StrictFacts capabilities :=
          ⟨supportedOnce, factsOnce, allowed, fun name => (covered name).trans (described name)⟩
        have found : (capabilities.actionCapabilities.map keyed).reverse.lookup action.name =
            some capability ↔
              capability ∈ capabilities.actionCapabilities ∧ capability.action = action.name := by
          rw [lookup_iff distinct, List.mem_reverse, List.mem_map]
          constructor
          · rintro ⟨found, member, same⟩
            obtain ⟨named, rfl⟩ := Prod.mk.inj same
            exact ⟨member, named⟩
          · rintro ⟨member, named⟩
            exact ⟨capability, member, Prod.ext named rfl⟩
        split
        next => rw [found, iff_true_intro strict, true_and]
        next unsupported =>
          refine iff_of_false nofun ?_
          rintro ⟨_, member, named⟩
          refine unsupported (List.contains_iff_mem.mpr ?_)
          exact (strict.described action.name).mpr ⟨capability, member, named⟩
  · rw [if_pos supportedOnce]
    refine iff_of_false nofun ?_
    rintro ⟨strict, _⟩
    exact supportedOnce strict.supportedOnce

/-- Capability facts are read strictly, whatever their order. -/
theorem facts_strict (capabilities : Capabilities) (action : Action) :
    (∀ capability, strictActionCapability capabilities action = some capability ↔
      StrictFacts capabilities ∧ capability ∈ capabilities.actionCapabilities ∧
        capability.action = action.name) ∧
    ∀ other : Capabilities, capabilities.supportedActions.Perm other.supportedActions →
      capabilities.actionCapabilities.Perm other.actionCapabilities →
      strictActionCapability capabilities action = strictActionCapability other action := by
  refine ⟨strictActionCapability_iff capabilities action, fun other supported facts => ?_⟩
  refine Option.ext fun capability => ?_
  rw [strictActionCapability_iff, strictActionCapability_iff, strictFacts_perm supported facts,
    facts.mem_iff]

/-- Two actions advertised in one order and described in the other. -/
theorem facts_strict_swapped :
    strictActionCapability
        ⟨["invoke", "press"], [⟨"press", .pointer, .unavailable⟩, ⟨"invoke", .targetAddressed, .guarded⟩]⟩
        .invoke =
      strictActionCapability
        ⟨["press", "invoke"], [⟨"invoke", .targetAddressed, .guarded⟩, ⟨"press", .pointer, .unavailable⟩]⟩
        .invoke :=
  (facts_strict ⟨["invoke", "press"],
    [⟨"press", .pointer, .unavailable⟩, ⟨"invoke", .targetAddressed, .guarded⟩]⟩ .invoke).2
    ⟨["press", "invoke"], [⟨"invoke", .targetAddressed, .guarded⟩, ⟨"press", .pointer, .unavailable⟩]⟩
    (.swap _ _ _) (.swap _ _ _)

end Praefectus
