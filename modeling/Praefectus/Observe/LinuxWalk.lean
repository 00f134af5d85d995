import Mathlib.Data.List.Nodup
import Mathlib.Logic.Relation
import Praefectus.Observe.Linux
import Praefectus.Program.Served
import Praefectus.Semantic.Forest

/-!
# Snapshots of a tree that stays as it is

Against providers whose objects keep their children, parents and owners a snapshot is a
walk over a graph, in which children may be shared and may lead back. What a snapshot that
succeeds has found is settled here.
-/

namespace Praefectus.Atspi

open Prog

/-! ### Trees -/

/-- What the providers answer as long as nothing changes. -/
structure LiveTree where
  children : StoredObject → List ObjectRef
  parent : StoredObject → ObjectRef
  processId : String → UInt32
  generation : UInt32 → String

namespace LiveTree

variable (tree : LiveTree)

/-- Any question may fail, and what is read of the tree is right. -/
def serves : Event AtspiBus → Prop
  | ⟨.provider (.unixProcessId busName), .ok processId⟩ => processId = tree.processId busName
  | ⟨.provider (.getChildren object), .ok children⟩ => children = tree.children object
  | ⟨.provider (.getParent object), .ok parent⟩ => parent = tree.parent object
  | ⟨.processGeneration processId, .ok generation⟩ => generation = tree.generation processId
  | _ => True

/-- Nothing fails either, and neither a cancellation nor the deadline is met. -/
def servesAll (deadlineAtMs : Int64) : Event AtspiBus → Prop
  | ⟨.isCancelled, cancelled⟩ => cancelled = false
  | ⟨.nowMs, now⟩ => now < deadlineAtMs
  | ⟨.openProxy _, answer⟩ => answer = .ok ()
  | ⟨.provider (.unixProcessId busName), answer⟩ => answer = .ok (tree.processId busName)
  | ⟨.provider (.getChildren object), answer⟩ => answer = .ok (tree.children object)
  | ⟨.provider (.getParent object), answer⟩ => answer = .ok (tree.parent object)
  | ⟨.processGeneration processId, answer⟩ => answer = .ok (tree.generation processId)
  | _ => True

def Owned (owner : Owner) (object : StoredObject) : Prop :=
  object.busName = owner.busName ∧ tree.processId object.busName = owner.processId ∧
    tree.generation owner.processId = owner.processGeneration

variable (bus : Bus)

/-- The child is bound to the parent, and has an owner of the window. -/
structure Bound (owner : Owner) (child parent : StoredObject) : Prop where
  valid : child.validate bus = .ok ()
  owned : tree.Owned owner child
  upward : (tree.parent child).isNull = false
  same : StoredObject.fromRef bus (tree.parent child) = .ok parent

/-- The objects that the references to children stand for, as far as they stand for one. -/
def kids (object : StoredObject) : List (Option StoredObject) :=
  (tree.children object).map fun child => (StoredObject.fromRef bus child).toOption

def Reachable (window object : StoredObject) : Prop :=
  Relation.ReflTransGen (fun parent child => some child ∈ tree.kids bus parent) window object

end LiveTree

/-! ### What single calls find -/

section Calls

variable {tree : LiveTree} {bus : Bus} {deadlineAtMs : Int64}

/-- Whatever is found is found in a run that succeeds. -/
abbrev Gives (tree : LiveTree) {α : Type} (P : α → Prop) (x : AtspiM α) : Prop :=
  Finds tree.serves P (fun _ => True) x

theorem gives_ofExcept {α : Type} {P : α → Prop} {result : Except ProtocolError α}
    (holds : ∀ value, result = .ok value → P value) : Gives tree P (ofExcept result) := by
  cases result with
  | ok value => exact finds_pure (holds value rfl)
  | error e => exact finds_throw trivial

theorem gives_mapErr {ε α : Type} {P : α → Prop} {error : ProtocolError} {result : Except ε α}
    (holds : ∀ value, result = .ok value → P value) : Gives tree P (mapErr error result) := by
  cases result with
  | ok value => exact finds_pure (holds value rfl)
  | error e => exact finds_throw trivial

/-- What a question whose answer may be an error gives. -/
theorem gives_ask {op : AtspiOp} {P : AtspiBus.Ans op → Prop}
    (each : ∀ ans, tree.serves ⟨op, ans⟩ → P ans) : Gives tree P (ask op) :=
  finds_perform each

theorem gives_providerCall {request : ProviderCall} {proxy : AtspiM Unit}
    {P : request.Result → Prop}
    (each : ∀ value, tree.serves ⟨.provider request, .ok value⟩ → P value) :
    Gives tree P (providerCall deadlineAtMs request proxy) := by
  apply finds_skip
  intro _
  apply finds_skip
  intro _
  refine finds_after (P := fun answer => ∀ value, answer = .ok value → P value) (gives_ask ?_) ?_
  · rintro _ served value rfl
    exact each value served
  · intro answer holds
    apply finds_skip
    intro _
    exact gives_mapErr holds

theorem gives_unixProcessId {busName : String} {proxy : AtspiM Unit} :
    Gives tree (fun pid : UInt32 => pid = tree.processId busName)
      (providerCall deadlineAtMs (.unixProcessId busName) proxy) :=
  @gives_providerCall _ _ (.unixProcessId busName) _ (fun pid : UInt32 => pid = _) fun _ => id

theorem gives_getParent {object : StoredObject} {proxy : AtspiM Unit} :
    Gives tree (fun parent : ObjectRef => parent = tree.parent object)
      (providerCall deadlineAtMs (.getParent object) proxy) :=
  @gives_providerCall _ _ (.getParent object) _ (fun parent : ObjectRef => parent = _) fun _ => id

theorem gives_getChildren {object : StoredObject} {proxy : AtspiM Unit} :
    Gives tree (fun children : List ObjectRef => children = tree.children object)
      (providerCall deadlineAtMs (.getChildren object) proxy) :=
  @gives_providerCall _ _ (.getChildren object) _ (fun children : List ObjectRef => children = _)
    fun _ => id

theorem gives_validateObjectOwner {object : StoredObject} {owner : Owner} :
    Gives tree (fun _ => object.validate bus = .ok () ∧ tree.Owned owner object)
      (validateObjectOwner deadlineAtMs bus object owner) := by
  have process : Gives tree
      (fun pid => object.validate bus = .ok () ∧ pid = tree.processId object.busName)
      (processId deadlineAtMs bus object) := by
    refine finds_after (P := fun _ => object.validate bus = .ok ()) (gives_ofExcept ?_) ?_
    · intro _ valid
      exact valid
    · intro _ valid
      apply finds_skip
      intro _
      apply finds_skip
      intro _
      exact finds_mono gives_unixProcessId (fun _ same => ⟨valid, same⟩) fun _ => id
  apply finds_skip
  intro _
  apply finds_after process
  rintro pid ⟨valid, rfl⟩
  refine finds_after (P := fun answer => ∀ generation, answer = .ok generation →
    generation = tree.generation (tree.processId object.busName)) (gives_ask ?_) ?_
  · rintro _ served generation rfl
    exact served
  · intro answer known
    apply finds_after (gives_ofExcept known)
    rintro generation rfl
    apply finds_ite
    · rintro ⟨busName, processId, generation⟩
      refine finds_mono (finds_trivial _) (fun _ _ => ⟨valid, busName, processId, ?_⟩) fun _ => id
      rwa [← processId]
    · intro _
      exact finds_throw trivial

theorem gives_bindChild {window : SurfaceWindow} {parent : StoredObject} {child : ObjectRef} :
    Gives tree (fun object => StoredObject.fromRef bus child = .ok object ∧
        tree.Bound bus window.owner object parent)
      (bindChild deadlineAtMs bus window parent child) := by
  apply finds_skip
  intro _
  apply finds_ite
  · intro _
    exact finds_throw trivial
  intro _
  refine finds_after (P := fun object => StoredObject.fromRef bus child = .ok object)
    (gives_ofExcept fun _ => id) ?_
  intro object parsed
  refine finds_after (P := fun _ => tree.Bound bus window.owner object parent) ?_ ?_
  · apply finds_ite
    · intro _
      exact finds_throw trivial
    intro _
    apply finds_after gives_validateObjectOwner
    rintro _ ⟨valid, owned⟩
    apply finds_after gives_getParent
    rintro _ rfl
    apply finds_ite
    · intro _
      exact finds_throw trivial
    intro upward
    refine finds_after (P := fun live => StoredObject.fromRef bus (tree.parent object) = .ok live)
      (gives_ofExcept fun _ => id) ?_
    intro live same
    apply finds_ite
    · rintro rfl
      exact finds_pure ⟨valid, owned, by simpa using upward, same⟩
    · intro _
      exact finds_throw trivial
  · intro _ bound
    exact finds_pure ⟨parsed, bound⟩

end Calls

/-! ### One object of the walk -/

section Visits

variable {tree : LiveTree} {bus : Bus} {build : Build} {window : SurfaceWindow}
  {observationId : String} {deadlineAtMs : Int64}

/-- The element is that of the object. -/
def Describes (bus : Bus) (build : Build) (observationId : String) (next : Pending)
    (element : SemanticElement) : Prop :=
  ∃ id, next.object.id bus = .ok id ∧
    opaqueElementId build observationId id = .ok element.elementId ∧
    element.parentId = next.parentId

theorem gives_describe {object : StoredObject} {backendId : String} {parentId : Option String}
    {index : Nat} :
    Gives tree (fun described => opaqueElementId build observationId backendId =
        .ok described.1.elementId ∧ described.1.parentId = parentId)
      (describe deadlineAtMs build observationId object backendId parentId index) := by
  apply finds_skip
  intro _
  apply finds_skip
  intro first
  apply finds_skip
  intro _
  apply finds_skip
  intro _
  apply finds_skip
  intro second
  refine finds_after (P := fun elementId => opaqueElementId build observationId backendId =
    .ok elementId) (gives_mapErr fun _ => id) ?_
  intro elementId opaqueId
  apply finds_skip
  intro tag
  exact finds_pure ⟨opaqueId, rfl⟩

/-- The walk after the children of an object were queued, as many as were taken. -/
structure Enqueued (tree : LiveTree) (bus : Bus) (window : SurfaceWindow) (before : Walk)
    (object : StoredObject) (elementId : String) (depth : Nat) (taken : Nat)
    (bound : List StoredObject) (after : Walk) : Prop where
  children : List.Forall₂ (fun child kid => StoredObject.fromRef bus child = .ok kid ∧
    tree.Bound bus window.owner kid object) ((tree.children object).take taken) bound
  few : taken ≤ (tree.children object).length
  shallow : taken ≠ 0 → depth ≠ maxDepth
  queue : after.queue = before.queue ++ bound.map fun kid => ⟨kid, some elementId, depth + 1⟩
  seen : after.seen = before.seen
  elements : after.elements = before.elements
  truncated : after.truncated = (before.truncated || taken < (tree.children object).length)
  fits : before.elements.length + before.queue.length ≤ maxElements →
    after.elements.length + after.queue.length ≤ maxElements

theorem gives_enqueueChildren {walk : Walk} {object : StoredObject} {elementId : String}
    {depth : Nat} :
    Gives tree (fun after => ∃ taken bound,
        Enqueued tree bus window walk object elementId depth taken bound after)
      (enqueueChildren deadlineAtMs bus window walk object elementId depth) := by
  apply finds_skip
  intro _
  apply finds_after gives_getChildren
  rintro _ rfl
  apply finds_ite
  · intro deepest
    refine finds_pure ⟨0, [], .nil, Nat.zero_le _, by simp, by simp, rfl, rfl, ?_, id⟩
    cases tree.children object <;> simp
  · intro shallow
    refine finds_after (finds_mapM fun child _ => gives_bindChild) ?_
    intro bound children
    have length := children.length_eq
    refine finds_pure ⟨_, bound, children, Nat.min_le_left _ _, fun _ => shallow, rfl, rfl, rfl,
      rfl, ?_⟩
    intro fits
    simp at length ⊢
    omega

/-- The walk after an object was visited. -/
structure Visited (tree : LiveTree) (bus : Bus) (build : Build) (window : SurfaceWindow)
    (observationId : String) (before : Walk) (next : Pending) (element : SemanticElement)
    (backendId : String) (taken : Nat) (bound : List StoredObject) (after : Walk) : Prop where
  named : next.object.id bus = .ok backendId
  fresh : backendId ∉ before.seen
  valid : next.object.validate bus = .ok ()
  owned : tree.Owned window.owner next.object
  described : Describes bus build observationId next element
  enqueued : ∃ targets, Enqueued tree bus window
    ⟨before.queue, backendId :: before.seen, before.elements ++ [element], targets,
      before.truncated⟩ next.object element.elementId next.depth taken bound after

theorem gives_visit {walk : Walk} {next : Pending} :
    Gives tree (fun after => ∃ element backendId taken bound,
        Visited tree bus build window observationId walk next element backendId taken bound after)
      (visit deadlineAtMs bus build window observationId walk next) := by
  refine finds_after (P := fun id => next.object.id bus = .ok id) (gives_ofExcept fun _ => id) ?_
  intro backendId named
  apply finds_ite
  · intro _
    exact finds_throw trivial
  intro fresh
  apply finds_after gives_validateObjectOwner
  rintro _ ⟨valid, owned⟩
  apply finds_after gives_describe
  rintro ⟨element, target⟩ ⟨opaqueId, parentId⟩
  refine finds_mono gives_enqueueChildren ?_ fun _ => id
  rintro after ⟨taken, bound, enqueued⟩
  exact ⟨element, backendId, taken, bound, named, fresh, valid, owned,
    ⟨backendId, named, opaqueId, parentId⟩, _, enqueued⟩

end Visits

/-! ### The walk -/

section Walks

variable (tree : LiveTree) (bus : Bus) (build : Build) (window : SurfaceWindow)
  (observationId : String)

/-- The steps up from an object to the window. -/
inductive Climb : StoredObject → List StoredObject → Prop where
  | window : window.object.validate bus = .ok () → tree.Owned window.owner window.object →
      Climb window.object [window.object]
  | step {object parent : StoredObject} {path : List StoredObject} : object ≠ window.object →
      tree.Bound bus window.owner object parent → Climb parent path → Climb object (object :: path)

def start : Pending := ⟨window.object, none, 0⟩

/-- What the objects visited so far have referred to. -/
def references (visited : List Pending) : List (Option StoredObject) :=
  visited.flatMap fun next => tree.kids bus next.object

/-- An object that waits was bound to one that was visited. -/
structure Waits (visited : List Pending) (elements : List SemanticElement) (next : Pending) :
    Prop where
  parent : ∃ parent ∈ visited, tree.Bound bus window.owner next.object parent.object ∧
    next.depth = parent.depth + 1 ∧ some next.object ∈ tree.kids bus parent.object
  shallow : next.depth ≤ maxDepth
  parentId : ∀ id, next.parentId = some id → id ∈ elements.map (·.elementId)

/-- An object that was visited is below the window, through objects that were visited. -/
structure Placed (visited : List Pending) (next : Pending) : Prop where
  shallow : next.depth ≤ maxDepth
  reachable : tree.Reachable bus window.object next.object
  climb : ∃ path, Climb tree bus window next.object path ∧ path.length = next.depth + 1 ∧
    path.Nodup ∧ path ⊆ visited.map (·.object)

/-- What holds after every round. -/
structure Explored (visited : List Pending) (walk : Walk) : Prop where
  first : visited = [] ∧ walk = startWalk window ∨ ∃ rest, visited = start window :: rest
  described : List.Forall₂ (Describes bus build observationId) visited walk.elements
  ids : visited.map (fun next => next.object.id bus) = walk.seen.reverse.map .ok
  distinct : walk.seen.Nodup
  fits : walk.elements.length + walk.queue.length ≤ maxElements
  placed : ∀ next ∈ visited, Placed tree bus window visited next
  waiting : visited ≠ [] → ∀ next ∈ walk.queue, Waits tree bus window visited walk.elements next
  parents : ParentsFirst walk.elements
  covers : walk.truncated = false → (visited ++ walk.queue).map (fun next => some next.object) =
    some window.object :: references tree bus visited
  counts : visited.length + walk.queue.length ≤ 1 + (references tree bus visited).length
  short : walk.truncated = true →
    visited.length + walk.queue.length < 1 + (references tree bus visited).length

variable {tree bus build window observationId}

theorem exists_related {α β : Type} {R : α → β → Prop} {as : List α} {bs : List β}
    (related : List.Forall₂ R as bs) {b : β} (member : b ∈ bs) : ∃ a ∈ as, R a b := by
  induction related with
  | nil => exact absurd member List.not_mem_nil
  | cons first _ ih =>
    rcases List.mem_cons.mp member with rfl | later
    · exact ⟨_, List.mem_cons_self, first⟩
    · obtain ⟨a, found, holds⟩ := ih later
      exact ⟨a, List.mem_cons_of_mem _ found, holds⟩

theorem references_concat (visited : List Pending) (next : Pending) :
    references tree bus (visited ++ [next]) =
      references tree bus visited ++ tree.kids bus next.object := by
  simp [references]

/-- The objects that were bound are those the references stand for. -/
theorem kids_of_bound {children : List ObjectRef} {bound : List StoredObject}
    {P : StoredObject → Prop}
    (related : List.Forall₂ (fun child kid => StoredObject.fromRef bus child = .ok kid ∧ P kid)
      children bound) :
    bound.map some = children.map fun child => (StoredObject.fromRef bus child).toOption := by
  induction related with
  | nil => rfl
  | cons parsed _ ih =>
    rw [List.map_cons, List.map_cons, ih, parsed.1]
    rfl

theorem explored_start : Explored tree bus build window observationId [] (startWalk window) where
  first := .inl ⟨rfl, rfl⟩
  described := .nil
  ids := rfl
  distinct := List.nodup_nil
  fits := by simp [startWalk, maxElements]
  placed := List.forall_mem_nil _
  waiting := fun none => absurd rfl none
  parents := by simp [ParentsFirst, startWalk]
  covers := fun _ => rfl
  counts := by simp [startWalk]
  short := by simp [startWalk]

section Step

variable {visited : List Pending} {walk after : Walk} {next : Pending} {queue : List Pending}
  {element : SemanticElement} {backendId : String} {taken : Nat} {bound : List StoredObject}

/-- An object that has just been visited was not visited before. -/
theorem unvisited (explored : Explored tree bus build window observationId visited walk)
    (named : next.object.id bus = .ok backendId) (fresh : backendId ∉ walk.seen) :
    next.object ∉ visited.map (·.object) := by
  intro member
  obtain ⟨earlier, member, same⟩ := List.mem_map.mp member
  have listed : next.object.id bus ∈ walk.seen.reverse.map .ok := by
    rw [← explored.ids, ← same]
    exact List.mem_map_of_mem member
  rw [named] at listed
  simp at listed
  exact fresh listed

theorem waits_of_queue (explored : Explored tree bus build window observationId visited walk)
    (pending : walk.queue = next :: queue) :
    (visited = [] ∧ next = start window ∧ queue = []) ∨
      (visited ≠ [] ∧ Waits tree bus window visited walk.elements next) := by
  rcases explored.first with ⟨none, rfl⟩ | ⟨rest, some⟩
  · cases pending
    exact .inl ⟨none, rfl, rfl⟩
  · have occupied : visited ≠ [] := by
      rw [some]
      exact List.cons_ne_nil _ _
    exact .inr ⟨occupied, explored.waiting occupied next (by simp [pending])⟩

theorem Placed.mono {next : Pending} (placed : Placed tree bus window visited next)
    (last : Pending) : Placed tree bus window (visited ++ [last]) next := by
  obtain ⟨shallow, reachable, path, climb, length, nodup, inside⟩ := placed
  refine ⟨shallow, reachable, path, climb, length, nodup, fun object member => ?_⟩
  simpa using Or.inl (by simpa using inside member)

theorem Waits.mono {elements : List SemanticElement} {next : Pending}
    (waits : Waits tree bus window visited elements next) (last : Pending)
    (element : SemanticElement) :
    Waits tree bus window (visited ++ [last]) (elements ++ [element]) next := by
  obtain ⟨⟨parent, member, bound⟩, shallow, parentId⟩ := waits
  refine ⟨⟨parent, List.mem_append_left _ member, bound⟩, shallow, fun id same => ?_⟩
  simpa using Or.inl (by simpa using parentId id same)

variable (explored : Explored tree bus build window observationId visited walk)
  (pending : walk.queue = next :: queue)
  (visits : Visited tree bus build window observationId { walk with queue } next element backendId
    taken bound after)

include explored pending visits

theorem placed_next : Placed tree bus window (visited ++ [next]) next := by
  have alone := unvisited explored visits.named visits.fresh
  rcases waits_of_queue explored pending with ⟨rfl, rfl, _⟩ | ⟨occupied, waits⟩
  · exact ⟨Nat.zero_le _, .refl, [window.object], .window visits.valid visits.owned, rfl,
      List.nodup_singleton _, by simp [start]⟩
  · obtain ⟨parent, member, bound, depth, child⟩ := waits.parent
    obtain ⟨_, reachable, path, climb, length, nodup, inside⟩ := explored.placed parent member
    refine ⟨waits.shallow, reachable.tail child, next.object :: path, .step ?_ bound climb, ?_, ?_,
      ?_⟩
    · -- the window was visited first
      intro same
      rcases explored.first with ⟨none, _⟩ | ⟨rest, some⟩
      · exact occupied none
      · apply alone
        rw [some, same]
        simp [start]
    · rw [List.length_cons, length, depth]
    · exact List.nodup_cons.mpr ⟨fun again => alone (inside again), nodup⟩
    · intro object found
      rcases List.mem_cons.mp found with rfl | found
      · simp
      · simpa using Or.inl (by simpa using inside found)

theorem explored_step :
    Explored tree bus build window observationId (visited ++ [next]) after := by
  have refs := @references_concat tree bus visited next
  have placed := placed_next explored pending visits
  have origin := waits_of_queue explored pending
  obtain ⟨named, fresh, valid, owned, described, targets, enqueued⟩ := visits
  have taken_kids : bound.map some = (tree.kids bus next.object).take taken := by
    rw [LiveTree.kids, ← List.map_take]
    exact kids_of_bound enqueued.children
  have kids : (tree.kids bus next.object).length = (tree.children next.object).length := by
    simp [LiveTree.kids]
  have length : bound.length = taken := by
    have lengths := congrArg List.length taken_kids
    have few := enqueued.few
    simp [kids] at lengths
    omega
  have counts := explored.counts
  rw [pending, List.length_cons] at counts
  refine {
    first := .inr ?_
    described := ?_
    ids := ?_
    distinct := ?_
    fits := ?_
    placed := ?_
    waiting := ?_
    parents := ?_
    covers := ?_
    counts := ?_
    short := ?_ }
  · rcases explored.first with ⟨rfl, rfl⟩ | ⟨rest, rfl⟩
    · cases pending
      exact ⟨[], rfl⟩
    · exact ⟨rest ++ [next], rfl⟩
  · rw [enqueued.elements]
    exact List.rel_append explored.described (.cons described .nil)
  · rw [enqueued.seen, List.map_append, explored.ids]
    simp [named]
  · rw [enqueued.seen]
    exact List.nodup_cons.mpr ⟨fresh, explored.distinct⟩
  · apply enqueued.fits
    have fits := explored.fits
    rw [pending] at fits
    simp at fits ⊢
    omega
  · intro earlier member
    rcases List.mem_append.mp member with member | last
    · exact (explored.placed earlier member).mono next
    · rw [List.mem_singleton.mp last]
      exact placed
  · intro _ waiting member
    rw [enqueued.queue] at member
    rw [enqueued.elements]
    rcases List.mem_append.mp member with member | new
    · rcases origin with ⟨_, _, rfl⟩ | ⟨occupied, _⟩
      · exact absurd member List.not_mem_nil
      · have waits := explored.waiting occupied waiting (by simp [pending, member])
        exact waits.mono next element
    · obtain ⟨kid, listed, rfl⟩ := List.mem_map.mp new
      obtain ⟨_, _, _, bound⟩ := exists_related enqueued.children listed
      have child : some kid ∈ tree.kids bus next.object := by
        apply List.mem_of_mem_take
        rw [← taken_kids]
        exact List.mem_map_of_mem listed
      have some : taken ≠ 0 := by
        rintro rfl
        rw [List.eq_nil_of_length_eq_zero length] at listed
        exact absurd listed List.not_mem_nil
      have shallow := enqueued.shallow some
      refine ⟨⟨next, by simp, bound, rfl, child⟩, ?_, ?_⟩
      · have deep := placed.shallow
        change next.depth + 1 ≤ maxDepth
        omega
      · rintro id same
        cases same
        simp
  · rw [enqueued.elements]
    refine parentsFirst_concat explored.parents fun id same => ?_
    obtain ⟨_, _, _, parentId⟩ := described
    rw [parentId] at same
    rcases origin with ⟨_, rfl, _⟩ | ⟨_, waits⟩
    · contradiction
    · exact waits.parentId id same
  · intro whole
    rw [enqueued.truncated, Bool.or_eq_false_iff, decide_eq_false_iff_not] at whole
    have covers := explored.covers whole.1
    have all : (tree.kids bus next.object).take taken = tree.kids bus next.object := by
      rw [List.take_of_length_le]
      omega
    rw [enqueued.queue, refs, ← List.cons_append, ← covers, pending, ← all, ← taken_kids]
    simp
  · rw [enqueued.queue, refs]
    have few := enqueued.few
    simp [kids, length]
    omega
  · intro cut
    rw [enqueued.truncated, Bool.or_eq_true, decide_eq_true_eq] at cut
    rw [enqueued.queue, refs]
    have few := enqueued.few
    have short := explored.short
    rw [pending, List.length_cons] at short
    simp [kids, length]
    rcases cut with cut | cut
    · have before := short cut
      omega
    · omega

end Step

/-- A walk that is not cut short by an error ends, and has explored what it visited. -/
theorem gives_walkFrom {deadlineAtMs : Int64} {visited : List Pending} {walk : Walk} {fuel : Nat}
    (explored : Explored tree bus build window observationId visited walk)
    (enough : maxElements < fuel + walk.elements.length) :
    Gives tree (fun result => ∃ visited walk, result = some walk ∧ walk.queue = [] ∧
        Explored tree bus build window observationId visited walk)
      (walkFrom deadlineAtMs bus build window observationId fuel walk) := by
  induction fuel generalizing visited walk with
  | zero =>
    have fits := explored.fits
    omega
  | succ fuel ih =>
    rw [walkFrom]
    cases pending : walk.queue with
    | nil => exact finds_pure ⟨visited, walk, rfl, pending, explored⟩
    | cons next queue =>
      apply finds_skip
      intro _
      have fits := explored.fits
      rw [pending, List.length_cons] at fits
      apply finds_ite
      · -- every element that waits has room
        intro full
        omega
      intro _
      apply finds_after gives_visit
      rintro after ⟨element, backendId, taken, bound, visits⟩
      apply ih (explored_step explored pending visits)
      obtain ⟨targets, enqueued⟩ := visits.enqueued
      rw [enqueued.elements]
      simp
      omega

end Walks

end Praefectus.Atspi
