import Praefectus.System.InProgress

/-!
# The protocol with the host's outcome ledger

Engines on any number of machines share one host. Nothing is assumed here about their
local ledgers: each call may find another file, a lost one or a replaced one, so the
answers of the local ledger are arbitrary.
-/

namespace Praefectus

open Prog

variable {Id : Type}

/-- The shared host, with local ledgers that may answer anything. -/
abbrev scattered (Id : Type) : Shared Engine Id where
  State := MemoryOutcomeLedger
  init := .new
  answer _ e s s' :=
    match e with
    | ⟨.begin .host key, ans⟩ => memoryHost.begin key ans s s'
    | ⟨.record .host key terminal, ans⟩ => memoryHost.record key terminal ans s s'
    | _ => s' = s
  abandon _ op s s' :=
    match op with
    | .begin .host key => s' = s ∨ ∃ ans, memoryHost.begin key ans s s'
    | .record .host key terminal => s' = s ∨ ∃ ans, memoryHost.record key terminal ans s s'
    | _ => s' = s
  outside s s' := s' = s

/-- A single ledger file is one way to answer. -/
theorem world_scattered [DecidableEq Id] (store : Store) :
    Refines (World.shared Id store memoryHost) (scattered Id) fun w s => s = w.ledgers.host where
  init := rfl
  answer := by
    rintro id ⟨op, ans⟩ w w' _ rfl answered
    refine ⟨w'.ledgers.host, ?_, rfl⟩
    cases op with
    | lock deadline =>
      cases ans with
      | ok =>
        obtain ⟨_, rfl⟩ := answered
        rfl
      | error => exact congrArg Ledgers.host answered.1
    | release outcome =>
      obtain rfl := answered
      unfold World.release
      split <;> rfl
    | ledger op => exact answered.1.2
    | begin outcomes key =>
      cases outcomes with
      | null => exact congrArg Ledgers.host answered.1.2
      | host => exact answered.1.1
    | record outcomes key terminal =>
      cases outcomes with
      | null => exact congrArg Ledgers.host answered.1.2
      | host => exact answered.1.1
    | _ => exact congrArg Ledgers.host answered.1
  abandon := by
    rintro id op w _ _ rfl ⟨ledgers, abandoned, rfl⟩
    refine ⟨ledgers.host, ?_, by unfold World.release; split <;> rfl⟩
    cases op with
    | ledger op => exact abandoned.2
    | begin outcomes key =>
      cases outcomes with
      | null => exact congrArg Ledgers.host abandoned
      | host =>
        rcases abandoned with rfl | ⟨ans, begun, _⟩
        · exact .inl rfl
        · exact .inr ⟨ans, begun⟩
    | record outcomes key terminal =>
      cases outcomes with
      | null => exact congrArg Ledgers.host abandoned
      | host =>
        rcases abandoned with rfl | ⟨ans, recorded, _⟩
        · exact .inl rfl
        · exact .inr ⟨ans, recorded⟩
    | _ => exact congrArg Ledgers.host abandoned
  outside w w' s same struck := by
    subst same
    exact ⟨_, rfl, struck.1.2.symm⟩

/-! ### What the log tells about a key -/

/-- The host answered the call, which has not ended since. -/
def Begun (log : Log Id) (id : Id) (key : OutcomeKey) (decision : LedgerDecision) : Prop :=
  Since (fun e => e = .did id ⟨.begin .host key, .ok decision⟩) (Ends id) log

/-- The call asks for a dispatch of the key. -/
inductive Dispatches (id : Id) (key : OutcomeKey) : Entry Engine Id Call → Prop where
  | did {action : Action} {target : ResolvedTarget} {verification : VerificationPolicy}
      {deadlineAtMs : Int64} (ans : Except DispatchError DispatchReceipt) :
      Dispatches id key (.did id ⟨.dispatch key action target verification deadlineAtMs, ans⟩)
  | died {action : Action} {target : ResolvedTarget} {verification : VerificationPolicy}
      {deadlineAtMs : Int64} :
      Dispatches id key (.died id (.dispatch key action target verification deadlineAtMs))

/-- The call asks the host to record a terminal for the key. -/
inductive Records (id : Id) (key : OutcomeKey) : Entry Engine Id Call → Prop where
  | did {terminal : Terminal} (ans : Except ProtocolError Unit) :
      Records id key (.did id ⟨.record .host key terminal, ans⟩)
  | died {terminal : Terminal} : Records id key (.died id (.record .host key terminal))

def EngineOp.dispatchesKey (key : OutcomeKey) : EngineOp → Bool
  | .dispatch key' .. => key' = key
  | _ => false

def isDispatchOfKey (key : OutcomeKey) : Entry Engine Id Call → Bool
  | .did _ e => e.op.dispatchesKey key
  | .died _ op => op.dispatchesKey key
  | _ => false

/-- How often a key was dispatched. -/
def keyDispatches (key : OutcomeKey) (log : Log Id) : Nat := log.countP (isDispatchOfKey key)

/-! ### What a question may change -/

/-- What a question to the host may leave behind, whether or not it is answered. -/
inductive Changes : EngineOp → MemoryOutcomeLedger → MemoryOutcomeLedger → Prop where
  | same {op : EngineOp} {s : MemoryOutcomeLedger} : Changes op s s
  | begin {key : OutcomeKey} {s : MemoryOutcomeLedger} : s.entries key = none →
      Changes (.begin .host key) s (s.insert key none)
  | record {key : OutcomeKey} {terminal : Terminal} {s : MemoryOutcomeLedger} :
      Changes (.record .host key terminal) s (s.insert key (some terminal))

theorem begin_changes (s : MemoryOutcomeLedger) (key : OutcomeKey) :
    Changes (.begin .host key) s (s.begin key).2 := by
  rcases s.begin_cases key with ⟨unknown, same⟩ | ⟨_, same⟩ | ⟨_, _, same⟩ <;> rw [same]
  · exact .begin unknown
  · exact .same
  · exact .same

theorem answer_changes {id : Id} {op : EngineOp} {ans : op.Answer} {s s' : MemoryOutcomeLedger}
    (answered : (scattered Id).answer id ⟨op, ans⟩ s s') : Changes op s s' := by
  cases op with
  | begin outcomes key =>
    cases outcomes with
    | null =>
      obtain rfl : s' = s := answered
      exact .same
    | host =>
      cases ans with
      | ok decision =>
        obtain rfl : s' = (s.begin key).2 := congrArg Prod.snd answered
        exact begin_changes s key
      | error e =>
        rcases answered with same | same <;> obtain rfl := same
        · exact .same
        · exact begin_changes s key
  | record outcomes key terminal =>
    cases outcomes with
    | null =>
      obtain rfl : s' = s := answered
      exact .same
    | host =>
      cases ans with
      | ok =>
        obtain rfl : s' = s.record key terminal := answered
        exact .record
      | error e =>
        rcases answered with same | same <;> obtain rfl := same
        · exact .same
        · exact .record
  | _ =>
    obtain rfl : s' = s := answered
    exact .same

theorem abandon_changes {id : Id} {op : EngineOp} {s s' : MemoryOutcomeLedger}
    (abandoned : (scattered Id).abandon id op s s') : Changes op s s' := by
  cases op with
  | begin outcomes key =>
    cases outcomes with
    | null =>
      obtain rfl : s' = s := abandoned
      exact .same
    | host =>
      rcases abandoned with same | ⟨ans, begun⟩
      · obtain rfl := same
        exact .same
      · exact @answer_changes Id id (.begin .host key) ans s s' begun
  | record outcomes key terminal =>
    cases outcomes with
    | null =>
      obtain rfl : s' = s := abandoned
      exact .same
    | host =>
      rcases abandoned with same | ⟨ans, recorded⟩
      · obtain rfl := same
        exact .same
      · exact @answer_changes Id id (.record .host key terminal) ans s s' recorded
  | _ =>
    obtain rfl : s' = s := abandoned
    exact .same

/-- What is recorded for a key stays, unless the key is recorded again. -/
theorem entries_changed {op : EngineOp} {s s' : MemoryOutcomeLedger} {key : OutcomeKey}
    {terminal : Terminal} (changes : Changes op s s')
    (recorded : s.entries key = some (some terminal))
    (other : ∀ terminal', op ≠ .record .host key terminal') :
    s'.entries key = some (some terminal) := by
  cases changes with
  | same => exact recorded
  | @begin key' _ unknown =>
    rw [MemoryOutcomeLedger.entries_insert_other]
    · exact recorded
    · rintro rfl
      rw [unknown] at recorded
      contradiction
  | record =>
    rw [MemoryOutcomeLedger.entries_insert_other]
    · exact recorded
    · rintro rfl
      exact other _ rfl

/-- What the host answers to a begin. -/
theorem begin_answered {id : Id} {key : OutcomeKey} {decision : LedgerDecision}
    {s s' : MemoryOutcomeLedger}
    (answered : (scattered Id).answer id ⟨.begin .host key, .ok decision⟩ s s') :
    (decision, s') = s.begin key := answered

/-- The host that has recorded the terminal of a key answers with it. -/
theorem recorded_answer {id : Id} {key : OutcomeKey} {terminal : Terminal} {s s' : MemoryOutcomeLedger} {decision : LedgerDecision}
    (recorded : s.entries key = some (some terminal))
    (answered : (scattered Id).answer id ⟨.begin .host key, .ok decision⟩ s s') :
    decision = .recorded terminal := by
  have same := begin_answered answered
  rcases s.begin_cases key with ⟨known, _⟩ | ⟨known, _⟩ | ⟨terminal', known, begun⟩
  · rw [recorded] at known
    contradiction
  · rw [recorded] at known
    cases known
  · rw [recorded] at known
    obtain rfl : terminal = terminal' := Option.some.inj (Option.some.inj known)
    exact congrArg Prod.fst (same.trans begun)

/-! ### The invariant -/

/-- What a session may still do after the host gave it a decision for a key. -/
def Phase.AfterBegin (key : OutcomeKey) (decision : LedgerDecision) : Phase → Prop
  | .idle | .held _ | .whole _ | .reading .. | .claimed _ => False
  | .granted key' _ => key' = key ∧ decision = .dispatch
  | _ => True

section

variable {outcomes : Outcomes} {φ φ' : Phase} {e : Event Engine} {key : OutcomeKey}
  {decision : LedgerDecision}

theorem Phase.work_after (work : Phase.Work outcomes φ e φ') (after : φ.AfterBegin key decision) :
    φ'.AfterBegin key decision := by
  cases work with
  | settle _ ans => cases ans <;> trivial
  | dispatch => exact after
  | repair | read | unread | claim | grant | resolve | ungranted | consult | unconsulted =>
    exact after.elim
  | _ => trivial

theorem Phase.work_begin {key : OutcomeKey} {ans : Except ProtocolError LedgerDecision}
    (work : Phase.Work outcomes φ ⟨.begin .host key, ans⟩ φ') (answered : ans = .ok decision) :
    φ'.AfterBegin key decision := by
  cases work with
  | grant =>
    obtain rfl := Except.ok.inj answered
    exact ⟨rfl, rfl⟩
  | resolve | consult => trivial
  | ungranted | unconsulted => contradiction

/-- A question for a dispatch or a record comes from a granted session. -/
theorem Phase.step_dispatches (step : Phase.Step outcomes φ e φ')
    (dispatches : e.op.dispatchesKey key = true) : φ = .granted key false := by
  cases step with
  | work work =>
    cases work with
    | dispatch =>
      obtain rfl : _ = key := of_decide_eq_true dispatches
      rfl
    | _ => contradiction
  | @look φ op ans look => cases op <;> first | exact look.elim | contradiction
  | _ => contradiction

theorem Phase.step_records {terminal : Terminal} {ans : Except ProtocolError Unit}
    (step : Phase.Step outcomes φ ⟨.record .host key terminal, ans⟩ φ') :
    ∃ dispatched, φ = .granted key dispatched := by
  cases step with
  | work work => cases work <;> exact ⟨_, rfl⟩
  | look look => exact look.elim

end

structure Hosted (log : Log Id) (c : Config phases (scattered Id)) : Prop where
  hosted : ∀ id call φ, c.thread id = .live (call, φ) → call.outcomes = .host
  held : ∀ id call key dispatched, c.thread id = .live (call, .granted key dispatched) →
    c.shared.entries key = some none ∧ (dispatched = false → keyDispatches key log = 0)
  unique : ∀ id id' call call' key dispatched dispatched',
    c.thread id = .live (call, .granted key dispatched) →
    c.thread id' = .live (call', .granted key dispatched') → id = id'
  fresh : ∀ key, c.shared.entries key = none → keyDispatches key log = 0
  once : ∀ key, keyDispatches key log ≤ 1
  begun : ∀ id key decision, Begun log id key decision →
    ∃ call φ, c.thread id = .live (call, φ) ∧ φ.AfterBegin key decision
  granted : ∀ id call key dispatched, c.thread id = .live (call, .granted key dispatched) →
    Begun log id key .dispatch

theorem keyDispatches_concat (key : OutcomeKey) (log : Log Id) (e : Entry Engine Id Call) :
    keyDispatches key (log ++ [e]) =
      keyDispatches key log + if isDispatchOfKey key e then 1 else 0 := by
  rw [keyDispatches, List.countP_append, List.countP_singleton]
  rfl

theorem keyDispatches_quiet {key : OutcomeKey} {log : Log Id} {e : Entry Engine Id Call}
    (quiet : isDispatchOfKey key e = false) :
    keyDispatches key (log ++ [e]) = keyDispatches key log := by
  rw [keyDispatches_concat, quiet]
  rfl

/-- A question of a live call: what it means for the entries, the counts and the other
calls. -/
structure Questioned (log : Log Id) (c : Config phases (scattered Id)) (id : Id)
    (e : Entry Engine Id Call) (s : MemoryOutcomeLedger) : Prop where
  fresh : ∀ key, s.entries key = none → keyDispatches key (log ++ [e]) = 0
  once : ∀ key, keyDispatches key (log ++ [e]) ≤ 1
  held : ∀ id' call key dispatched, id' ≠ id →
    c.thread id' = .live (call, .granted key dispatched) →
    s.entries key = some none ∧ (dispatched = false → keyDispatches key (log ++ [e]) = 0)

theorem asked_host {log : Log Id} {c : Config phases (scattered Id)} (invariant : Hosted log c)
    {id : Id} {call : Call} {φ φ' : Phase} {op : EngineOp} {ans : op.Answer}
    {s : MemoryOutcomeLedger} (live : c.thread id = .live (call, φ))
    (step : Phase.Step call.outcomes φ ⟨op, ans⟩ φ') (changes : Changes op c.shared s)
    {e : Entry Engine Id Call} (asks : ∀ key, isDispatchOfKey key e = op.dispatchesKey key) :
    Questioned log c id e s := by
  have mine {key : OutcomeKey} (dispatches : isDispatchOfKey key e = true) :
      c.thread id = .live (call, .granted key false) := by
    rw [asks] at dispatches
    rw [← Phase.step_dispatches step dispatches]
    exact live
  refine ⟨fun key unknown => ?_, fun key => ?_, fun id' call' key dispatched other live' => ?_⟩
  · have before : c.shared.entries key = none := by
      cases changes with
      | same => exact unknown
      | @begin key' _ known =>
        by_cases same : key = key'
        · subst same
          rw [MemoryOutcomeLedger.entries_insert_self] at unknown
          contradiction
        · rwa [MemoryOutcomeLedger.entries_insert_other _ _ _ _ same] at unknown
      | @record key' _ _ =>
        by_cases same : key = key'
        · subst same
          rw [MemoryOutcomeLedger.entries_insert_self] at unknown
          contradiction
        · rwa [MemoryOutcomeLedger.entries_insert_other _ _ _ _ same] at unknown
    cases dispatches : isDispatchOfKey key e with
    | false => rw [keyDispatches_quiet dispatches, invariant.fresh key before]
    | true =>
      have known := (invariant.held id call key false (mine dispatches)).1
      rw [before] at known
      contradiction
  · cases dispatches : isDispatchOfKey key e with
    | false => exact (keyDispatches_quiet dispatches).symm ▸ invariant.once key
    | true =>
      have zero := (invariant.held id call key false (mine dispatches)).2 rfl
      rw [keyDispatches_concat, zero, dispatches]
      exact Nat.le_refl 1
  · obtain ⟨known, zero⟩ := invariant.held id' call' key dispatched live'
    constructor
    · cases changes with
      | same => exact known
      | @begin key' _ unknown =>
        rw [MemoryOutcomeLedger.entries_insert_other]
        · exact known
        · rintro rfl
          rw [known] at unknown
          contradiction
      | @record key' terminal _ =>
        rw [MemoryOutcomeLedger.entries_insert_other]
        · exact known
        · rintro rfl
          obtain ⟨granted, rfl⟩ := Phase.step_records step
          exact other (invariant.unique id' id _ _ key _ _ live' live)
    · intro undispatched
      cases dispatches : isDispatchOfKey key e with
      | false => rw [keyDispatches_quiet dispatches, zero undispatched]
      | true => exact absurd (invariant.unique id' id _ _ key _ _ live' (mine dispatches)) other

/-- Nothing a call says ends another one, and only a return or a death ends it. -/
theorem ends_id {id id' : Id} {event : Event Engine} (ends : Ends id' (.did id event)) :
    id' = id ∧ ∃ outcome, event = ⟨.release outcome, ()⟩ := by
  cases ends with
  | returned outcome => exact ⟨rfl, outcome, rfl⟩

theorem begun_other {log : Log Id} {id id' : Id} {e : Event Engine} {key : OutcomeKey}
    {decision : LedgerDecision} (begun : Begun log id' key decision) (other : id' ≠ id) :
    Begun (log ++ [.did id e]) id' key decision :=
  since_concat.mpr (.inr ⟨begun, fun ends => other (ends_id ends).1⟩)

variable [DecidableEq Id]

theorem hosted_answer {log : Log Id} {c : Config phases (scattered Id)} (invariant : Hosted log c)
    {id : Id} {call : Call} {φ φ' : Phase} {e : Event Engine} {s : MemoryOutcomeLedger}
    (live : c.thread id = .live (call, φ)) (step : Phase.Step call.outcomes φ e φ')
    (answered : (scattered Id).answer id e c.shared s) :
    Hosted (log ++ [.did id e]) ⟨s, Function.update c.thread id (.live (call, φ'))⟩ := by
  obtain ⟨op, ans⟩ := e
  have host := invariant.hosted id call φ live
  have asked := asked_host invariant live step (answer_changes answered)
    (e := (.did id ⟨op, ans⟩ : Entry Engine Id Call)) fun _ => rfl
  -- a session that is granted a key now was granted it before, or just now
  have mine {key : OutcomeKey} {dispatched : Bool} (granted : φ' = .granted key dispatched) :
      s.entries key = some none ∧ (dispatched = false →
        keyDispatches key (log ++ [.did id ⟨op, ans⟩]) = 0) ∧
      Begun (log ++ [.did id ⟨op, ans⟩]) id key .dispatch ∧
      ∀ id' call' dispatched', id' ≠ id →
        c.thread id' ≠ .live (call', .granted key dispatched') := by
    cases step with
    | look look =>
      subst granted
      have still : s = c.shared := by cases op <;> first | exact look.elim | exact answered
      subst still
      obtain ⟨known, zero⟩ := invariant.held id call key dispatched live
      have quiet : isDispatchOfKey key (.did id ⟨op, ans⟩ : Entry Engine Id Call) = false := by
        cases op <;> first | exact look.elim | rfl
      refine ⟨known, fun undispatched => (keyDispatches_quiet quiet).trans (zero undispatched),
        since_concat.mpr (.inr ⟨invariant.granted id call key dispatched live, fun ends => ?_⟩),
        fun id' _ _ other live' => other (invariant.unique id' id _ _ key _ _ live' live)⟩
      obtain ⟨_, _, same⟩ := ends_id ends
      cases same
      exact look
    | refused | lock | release => contradiction
    | work work =>
      cases work with
      | grant =>
        obtain ⟨rfl, rfl⟩ := Phase.granted.inj granted
        rw [host] at answered ⊢
        have begun := @begin_answered Id id _ _ _ _ answered
        rcases c.shared.begin_cases _ with ⟨unknown, same⟩ | ⟨_, same⟩ | ⟨_, _, same⟩
        · rw [same] at begun
          obtain rfl : s = c.shared.insert _ none := congrArg Prod.snd begun
          refine ⟨MemoryOutcomeLedger.entries_insert_self .., fun _ =>
            (keyDispatches_quiet rfl).trans (invariant.fresh _ unknown),
            since_concat.mpr (.inl rfl), fun id' call' dispatched' _ live' => ?_⟩
          have known := (invariant.held id' call' _ dispatched' live').1
          rw [unknown] at known
          contradiction
        · rw [same] at begun
          cases begun
        · rw [same] at begun
          cases begun
      | dispatch =>
        obtain ⟨rfl, rfl⟩ := Phase.granted.inj granted
        obtain rfl : s = c.shared := answered
        obtain ⟨known, _⟩ := invariant.held id call _ false live
        refine ⟨known, nofun, since_concat.mpr (.inr ⟨invariant.granted id call _ false live,
          fun ends => ?_⟩), fun id' _ _ other live' =>
            other (invariant.unique id' id _ _ _ _ _ live' live)⟩
        obtain ⟨_, _, same⟩ := ends_id ends
        cases same
      | repair ans | claim _ _ ans | settle _ ans => cases ans <;> contradiction
      | _ => contradiction
  refine ⟨fun id' call' φ'' live' => ?_, fun id' call' key dispatched live' => ?_,
    fun id₁ id₂ call₁ call₂ key dispatched₁ dispatched₂ live₁ live₂ => ?_, asked.fresh, asked.once,
    fun id' key decision begun => ?_, fun id' call' key dispatched live' => ?_⟩
  · rcases live_update live' with ⟨rfl, same⟩ | ⟨_, live'⟩
    · cases same
      exact host
    · exact invariant.hosted id' call' φ'' live'
  · rcases live_update live' with ⟨rfl, same⟩ | ⟨other, live'⟩
    · obtain ⟨_, granted⟩ := Prod.mk.inj (Life.live.inj same)
      obtain ⟨known, zero, _⟩ := mine granted
      exact ⟨known, zero⟩
    · exact asked.held id' call' key dispatched other live'
  · rcases live_update live₁ with ⟨rfl, same₁⟩ | ⟨other₁, old₁⟩
    · rcases live_update live₂ with ⟨rfl, _⟩ | ⟨other₂, old₂⟩
      · rfl
      · obtain ⟨_, granted⟩ := Prod.mk.inj (Life.live.inj same₁)
        exact absurd old₂ ((mine granted).2.2.2 id₂ call₂ dispatched₂ other₂)
    · rcases live_update live₂ with ⟨rfl, same₂⟩ | ⟨_, old₂⟩
      · obtain ⟨_, granted⟩ := Prod.mk.inj (Life.live.inj same₂)
        exact absurd old₁ ((mine granted).2.2.2 id₁ call₁ dispatched₁ other₁)
      · exact invariant.unique id₁ id₂ call₁ call₂ key _ _ old₁ old₂
  · rcases since_concat.mp begun with same | ⟨earlier, unended⟩
    · cases same
      refine ⟨call, φ', Function.update_self .., ?_⟩
      cases step with
      | look look => exact look.elim
      | work work => exact Phase.work_begin work rfl
    · obtain ⟨call', φ'', live', after⟩ := invariant.begun id' key decision earlier
      by_cases same : id' = id
      · subst same
        obtain ⟨rfl, rfl⟩ := Prod.mk.inj (Life.live.inj (live.symm.trans live'))
        refine ⟨call, φ', Function.update_self .., ?_⟩
        cases step with
        | look => exact after
        | refused | lock => exact after.elim
        | release => exact absurd (Ends.returned _) unended
        | work work => exact Phase.work_after work after
      · exact ⟨call', φ'', (Function.update_of_ne same ..).trans live', after⟩
  · rcases live_update live' with ⟨rfl, same⟩ | ⟨other, live'⟩
    · obtain ⟨_, granted⟩ := Prod.mk.inj (Life.live.inj same)
      exact (mine granted).2.2.1
    · exact begun_other (invariant.granted id' call' key dispatched live') other

omit [DecidableEq Id] in
theorem questioned_quiet {log : Log Id} {c : Config phases (scattered Id)} (invariant : Hosted log c)
    (id : Id) {e : Entry Engine Id Call} (quiet : ∀ key, isDispatchOfKey key e = false) :
    Questioned log c id e c.shared where
  fresh key unknown := (keyDispatches_quiet (quiet key)).trans (invariant.fresh key unknown)
  once key := (keyDispatches_quiet (quiet key)).symm ▸ invariant.once key
  held id' call key dispatched _ live := by
    obtain ⟨known, zero⟩ := invariant.held id' call key dispatched live
    exact ⟨known, fun undispatched => (keyDispatches_quiet (quiet key)).trans (zero undispatched)⟩

/-- A call that starts, ends or dies is granted nothing. -/
theorem hosted_stage {log : Log Id} {c : Config phases (scattered Id)} (invariant : Hosted log c)
    {id : Id} {stage : Life (Call × Phase)} {e : Entry Engine Id Call} {s : MemoryOutcomeLedger}
    (asked : Questioned log c id e s)
    (idle : ∀ call φ, stage = .live (call, φ) → call.outcomes = .host ∧ φ = .idle)
    (begun : ∀ id' key decision, Begun (log ++ [e]) id' key decision →
      id' ≠ id ∧ Begun log id' key decision)
    (kept : ∀ id', id' ≠ id → ¬ Ends id' e) :
    Hosted (log ++ [e]) ⟨s, Function.update c.thread id stage⟩ := by
  have older {id' : Id} {call : Call} {key : OutcomeKey} {dispatched : Bool}
      (live : Function.update c.thread id stage id' = .live (call, .granted key dispatched)) :
      id' ≠ id ∧ c.thread id' = .live (call, .granted key dispatched) := by
    rcases live_update live with ⟨_, same⟩ | older
    · cases (idle _ _ same).2
    · exact older
  refine ⟨fun id' call φ live => ?_, fun id' call key dispatched live => ?_,
    fun id₁ id₂ call₁ call₂ key _ _ live₁ live₂ =>
      invariant.unique id₁ id₂ call₁ call₂ key _ _ (older live₁).2 (older live₂).2,
    asked.fresh, asked.once, fun id' key decision since => ?_, fun id' call key dispatched live => ?_⟩
  · rcases live_update live with ⟨_, same⟩ | ⟨_, live⟩
    · exact (idle _ _ same).1
    · exact invariant.hosted id' call φ live
  · exact asked.held id' call key dispatched (older live).1 (older live).2
  · obtain ⟨other, earlier⟩ := begun id' key decision since
    obtain ⟨call, φ, live, after⟩ := invariant.begun id' key decision earlier
    exact ⟨call, φ, (Function.update_of_ne other ..).trans live, after⟩
  · obtain ⟨other, live⟩ := older live
    exact since_concat.mpr (.inr ⟨invariant.granted id' call key dispatched live, kept id' other⟩)

theorem hosted_move {log : Log Id} {c c' : Config phases (scattered Id)} {e : Entry Engine Id Call}
    (invariant : Hosted log c) (move : Config.Move c e c')
    (host : ∀ id call, e = .started id call → call.outcomes = .host) : Hosted (log ++ [e]) c' := by
  cases move with
  | @start id call θ unborn started =>
    obtain rfl : θ = (call, .idle) := started
    refine hosted_stage invariant (questioned_quiet invariant id fun _ => rfl) ?_ ?_
      fun _ _ ends => nomatch ends
    · rintro _ _ ⟨rfl⟩
      exact ⟨host id call rfl, rfl⟩
    · intro id' key decision begun
      rcases since_concat.mp begun with same | ⟨earlier, _⟩
      · contradiction
      · refine ⟨?_, earlier⟩
        rintro rfl
        obtain ⟨_, _, live, _⟩ := invariant.begun _ key decision earlier
        rw [unborn] at live
        contradiction
  | @answer id θ θ' e s live stepped answered =>
    obtain ⟨call, φ⟩ := θ
    obtain ⟨call', φ'⟩ := θ'
    obtain ⟨rfl, step⟩ := stepped
    exact hosted_answer invariant live step answered
  | @die id θ op s live asks abandoned =>
    obtain ⟨call, φ⟩ := θ
    obtain ⟨ans, φ', step⟩ := asks
    have asked := asked_host invariant live step (abandon_changes abandoned)
      (e := (.died id op : Entry Engine Id Call)) fun _ => rfl
    refine hosted_stage invariant asked (fun _ _ same => nomatch same) ?_ ?_
    · intro id' key decision begun
      rcases since_concat.mp begun with same | ⟨earlier, unended⟩
      · contradiction
      · exact ⟨by rintro rfl; exact unended (.died op), earlier⟩
    · intro id' other ends
      cases ends
      exact other rfl
  | @finish id θ live done =>
    obtain ⟨call, φ⟩ := θ
    obtain rfl : φ = .idle := done
    refine hosted_stage invariant (questioned_quiet invariant id fun _ => rfl)
      (fun _ _ same => nomatch same) ?_ fun _ _ ends => nomatch ends
    intro id' key decision begun
    rcases since_concat.mp begun with same | ⟨earlier, _⟩
    · contradiction
    · refine ⟨?_, earlier⟩
      rintro rfl
      obtain ⟨_, _, live', after⟩ := invariant.begun _ key decision earlier
      obtain ⟨rfl, rfl⟩ := Prod.mk.inj (Life.live.inj (live.symm.trans live'))
      exact after
  | @outside s dead struck =>
    obtain rfl : s = c.shared := struck
    have same (key : OutcomeKey) : keyDispatches key (log ++ [.outside]) = keyDispatches key log :=
      keyDispatches_quiet rfl
    refine ⟨invariant.hosted, ?_, invariant.unique, ?_, ?_, ?_, ?_⟩
    · intro id call key dispatched live
      exact absurd live (dead id _)
    · exact fun key unknown => (same key).trans (invariant.fresh key unknown)
    · exact fun key => (same key).symm ▸ invariant.once key
    · intro id key decision begun
      rcases since_concat.mp begun with same | ⟨earlier, _⟩
      · contradiction
      · exact invariant.begun id key decision earlier
    · intro id call key dispatched live
      exact absurd live (dead id _)

/-- Every call that was started uses the host's ledger. -/
def AllHosted (log : Log Id) : Prop :=
  ∀ id call, (.started id call : Entry Engine Id Call) ∈ log → call.outcomes = .host

def isHostedStart : Entry Engine Id Call → Bool
  | .started _ call => call.outcomes = .host
  | _ => true

omit [DecidableEq Id] in
theorem allHosted_of_all {log : Log Id} (hosted : log.all isHostedStart = true) : AllHosted log :=
  fun _ _ member => of_decide_eq_true (List.all_eq_true.mp hosted _ member)

theorem hosted_run {log : Log Id} {c : Config phases (scattered Id)} (run : Config.Run log c)
    (host : AllHosted log) : Hosted log c := by
  refine Reaches.invariant (fun log (c : Config phases (scattered Id)) => AllHosted log → Hosted log c)
    ?_ ?_ run host
  · intro _
    refine ⟨?_, ?_, ?_, fun _ _ => rfl, fun _ => Nat.zero_le _, ?_, ?_⟩
    · intro id call φ live
      contradiction
    · intro id call key dispatched live
      contradiction
    · intro id _ call _ key _ _ live _
      contradiction
    · exact fun _ _ _ begun => (not_since_nil begun).elim
    · intro id call key dispatched live
      contradiction
  · intro log c e c' _ earlier move host
    refine hosted_move (earlier fun id call member => host id call (List.mem_append_left _ member))
      move fun id call same => host id call (List.mem_append_right _ ?_)
    exact List.mem_singleton.mpr same.symm

/-! ### Queries dispatch nothing -/

omit [DecidableEq Id] in
theorem undispatched_statusLocked (outcomes : Outcomes) (operationId : String) :
    (statusLocked outcomes operationId).run.Only fun op : EngineOp => ¬ op.IsDispatch := by
  have other {op : EngineOp} (quiet : ¬ op.IsDispatch) :
      (ask op).Only fun op : EngineOp => ¬ op.IsDispatch := ⟨quiet, fun _ => trivial⟩
  have settles {α : Type} {p : Prog Engine α} (settling : p.Only EngineOp.IsSettling) :
      p.Only fun op : EngineOp => ¬ op.IsDispatch :=
    only_mono settling fun _ => settling_undispatched
  have stores (acknowledgement : ActionAck) :
      (do
        finish acknowledgement
        pure (some acknowledgement) : EngineM (Option ActionAck)).run.Only
          fun op : EngineOp => ¬ op.IsDispatch :=
    only_try (settles (settling_finish _)) fun _ => trivial
  refine only_try (other id) fun _ => only_try (other id) fun records => ?_
  rcases scan operationId records with ⟨claim, _ | acknowledgement⟩
  · cases claim with
    | none => trivial
    | some claim =>
      refine only_try (only_lift (other id)) fun finishedAtMs => only_try (other id) fun decision => ?_
      cases decision <;> exact stores _
  · exact only_try (settles (settling_reconcileInterrupted _ _)) fun _ => trivial

def Call.queries : Call → Bool
  | .status .. => true
  | _ => false

omit [DecidableEq Id] in
theorem Call.query_undispatched {call : Call} (queries : call.queries = true) :
    call.body.Only fun op : EngineOp => ¬ op.IsDispatch := by
  have other {op : EngineOp} (quiet : ¬ op.IsDispatch) :
      (ask op).Only fun op : EngineOp => ¬ op.IsDispatch := ⟨quiet, fun _ => trivial⟩
  cases call with
  | execute | executeBatch => contradiction
  | status outcomes operationId =>
    refine only_bind (p := (Praefectus.status outcomes operationId).run) ?_ fun _ => trivial
    unfold Praefectus.status
    split
    · exact trivial
    · refine only_try (other id) fun _ => only_bind (undispatched_statusLocked _ _) fun _ => ?_
      exact only_bind (other id) fun _ => trivial

/-- A live call was started, and asks for no dispatch if it is a query. -/
def Begins {S : Shared Engine Id} (log : Log Id) (c : Config engines S) : Prop :=
  ∀ id call p, c.thread id = .live (call, p) → .started id call ∈ log ∧
    (call.queries = true → p.Only fun op : EngineOp => ¬ op.IsDispatch)

theorem begins_run {S : Shared Engine Id} {log : Log Id} {c : Config engines S} (run : Config.Run log c) :
    Begins log c := by
  refine Reaches.invariant (fun log (c : Config engines S) => Begins log c) ?_ ?_ run
  · intro id call p live
    contradiction
  · intro log c e c' _ begins move id call p live
    have older {id : Id} {call : Call} {p : Prog Engine Unit} (live : c.thread id = .live (call, p)) :
        .started id call ∈ log ++ [e] ∧
          (call.queries = true → p.Only fun op : EngineOp => ¬ op.IsDispatch) :=
      ⟨List.mem_append_left _ (begins id call p live).1, (begins id call p live).2⟩
    cases move with
    | @start id' call' θ unborn started =>
      obtain rfl : θ = (call', call'.body) := started
      rcases live_update live with ⟨rfl, same⟩ | ⟨_, live⟩
      · cases same
        exact ⟨List.mem_append_right _ List.mem_cons_self, Call.query_undispatched⟩
      · exact older live
    | @answer id' θ θ' e s live' stepped answered =>
      obtain ⟨call', p'⟩ := θ
      obtain ⟨next, rfl, rfl⟩ := stepped
      rcases live_update live with ⟨rfl, same⟩ | ⟨_, live⟩
      · cases same
        obtain ⟨started, only⟩ := older live'
        exact ⟨started, fun queries => (only queries).2 _⟩
      · exact older live
    | die | finish =>
      rcases live_update live with ⟨_, same⟩ | ⟨_, live⟩
      · contradiction
      · exact older live
    | outside => exact older live

end Praefectus
