import Praefectus.System.World

/-!
# One call at a time

The lock lets one call at a time work on the ledgers. Seen from there, the concurrent
calls are a sequence of sessions at one desk: a call sits down with the lock, works,
and leaves by releasing it or by dying. All that other calls do meanwhile leaves the
desk alone.
-/

namespace Praefectus

open Prog

variable {Id : Type} {host : Host}

/-- The call at the desk. -/
structure Seat (Id : Type) where
  id : Id
  outcomes : Outcomes
  phase : Phase

structure Desk (Id : Type) (host : Host) where
  ledgers : Ledgers journalStore host
  seat : Option (Seat Id)

namespace Desk

def init : Desk Id host := ⟨⟨.empty, host.init⟩, none⟩

inductive Move : Desk Id host → Entry Engine Id Call → Desk Id host → Prop where
  | started {d : Desk Id host} {id : Id} {call : Call} : Move d (.started id call) d
  | ended {d : Desk Id host} {id : Id} : Move d (.ended id) d
  | look {d : Desk Id host} {id : Id} {op : EngineOp} {ans : op.Answer} : op.IsLook →
      Move d (.did id ⟨op, ans⟩) d
  | refused {d : Desk Id host} {id : Id} {deadline : Option Int64} {e : ProtocolError} :
      Move d (.did id ⟨.lock deadline, .error e⟩) d
  | died {d : Desk Id host} {id : Id} {op : EngineOp} : (∀ seat ∈ d.seat, seat.id ≠ id) →
      op.IsLook ∨ (∃ deadline, op = .lock deadline) → Move d (.died id op) d
  | lock {ledgers : Ledgers journalStore host} {id : Id} {outcomes : Outcomes}
      {deadline : Option Int64} {session : Session} :
      Move ⟨ledgers, none⟩ (.did id ⟨.lock deadline, .ok ()⟩)
        ⟨ledgers, some ⟨id, outcomes, .held session⟩⟩
  | work {ledgers ledgers' : Ledgers journalStore host} {id : Id} {outcomes : Outcomes}
      {φ φ' : Phase} {e : Event Engine} : Phase.Work outcomes φ e φ' →
      ledgers.Answer e ledgers' →
      Move ⟨ledgers, some ⟨id, outcomes, φ⟩⟩ (.did id e) ⟨ledgers', some ⟨id, outcomes, φ'⟩⟩
  | release {ledgers : Ledgers journalStore host} {id : Id} {outcomes : Outcomes} {φ : Phase}
      {outcome : Outcome} : φ.Reports outcome →
      Move ⟨ledgers, some ⟨id, outcomes, φ⟩⟩ (.did id ⟨.release outcome, ()⟩) ⟨ledgers, none⟩
  | leave {ledgers : Ledgers journalStore host} {id : Id} {outcomes : Outcomes} {φ : Phase}
      {op : EngineOp} : op.IsLook ∨ (∃ outcome, op = .release outcome) →
      Move ⟨ledgers, some ⟨id, outcomes, φ⟩⟩ (.died id op) ⟨ledgers, none⟩
  | crash {ledgers ledgers' : Ledgers journalStore host} {id : Id} {outcomes : Outcomes}
      {φ φ' : Phase} {op : EngineOp} {ans : op.Answer} :
      Phase.Work outcomes φ ⟨op, ans⟩ φ' → ledgers.Abandon op ledgers' →
      Move ⟨ledgers, some ⟨id, outcomes, φ⟩⟩ (.died id op) ⟨ledgers', none⟩
  | loses {ledgers ledgers' : Ledgers journalStore host} : ledgers.Loses ledgers' →
      Move ⟨ledgers, none⟩ .outside ⟨ledgers', none⟩

def Run (log : Log Id) (d : Desk Id host) : Prop := Reaches Move init log d

end Desk

/-! ### The concurrent calls, seen from the desk -/

/-- The desk seen in a configuration of the concurrent calls. -/
structure Seen [DecidableEq Id] (c : Config phases (World.shared Id journalStore host))
    (d : Desk Id host) : Prop where
  ledgers : d.ledgers = c.shared.ledgers
  holder : c.shared.holder = d.seat.map Seat.id
  others : ∀ id call φ, c.thread id = .live (call, φ) →
    φ = .idle ∨ d.seat = some ⟨id, call.outcomes, φ⟩
  seated : ∀ seat ∈ d.seat, ∃ call, c.thread seat.id = .live (call, seat.phase) ∧
    call.outcomes = seat.outcomes ∧ seat.phase.session.isSome = true

namespace Seen

variable [DecidableEq Id] {c : Config phases (World.shared Id journalStore host)}
  {d : Desk Id host}

/-- A call in an idle phase is not at the desk. -/
theorem idle_away (seen : Seen c d) {id : Id} {call : Call}
    (live : c.thread id = .live (call, .idle)) : ∀ seat ∈ d.seat, seat.id ≠ id := by
  rintro seat member rfl
  obtain ⟨call', live', _, holds⟩ := seen.seated seat member
  have idle : Phase.idle = seat.phase := congrArg Prod.snd (Life.live.inj (live.symm.trans live'))
  rw [← idle] at holds
  contradiction

theorem working (seen : Seen c d) {id : Id} {call : Call} {φ : Phase}
    (live : c.thread id = .live (call, φ)) (holds : φ.session.isSome = true) :
    d.seat = some ⟨id, call.outcomes, φ⟩ := by
  rcases seen.others id call φ live with rfl | seated
  · contradiction
  · exact seated

/-- A move of another call that keeps the world and stays away from the desk. -/
theorem elsewhere (seen : Seen c d) {id : Id} {stage : Life (Call × Phase)}
    (away : ∀ seat ∈ d.seat, seat.id ≠ id)
    (idle : ∀ call φ, stage = .live (call, φ) → φ = .idle) :
    Seen ⟨c.shared, Function.update c.thread id stage⟩ d where
  ledgers := seen.ledgers
  holder := seen.holder
  others id' call φ live := by
    rcases live_update live with ⟨_, same⟩ | ⟨_, live⟩
    · exact .inl (idle call φ same)
    · exact seen.others id' call φ live
  seated seat member := by
    obtain ⟨call, live, same⟩ := seen.seated seat member
    exact ⟨call, (Function.update_of_ne (away seat member) ..).trans live, same⟩

/-- A move of the call at the desk. -/
theorem at_desk (seen : Seen c d) {id : Id} {call : Call} {φ : Phase} (φ' : Phase)
    (seated : d.seat = some ⟨id, call.outcomes, φ⟩) (holds : φ'.session.isSome = true)
    (ledgers : Ledgers journalStore host) :
    Seen ⟨⟨ledgers, c.shared.holder⟩, Function.update c.thread id (.live (call, φ'))⟩
      ⟨ledgers, some ⟨id, call.outcomes, φ'⟩⟩ where
  ledgers := rfl
  holder := by rw [seen.holder, seated]; rfl
  others id' call' φ'' live := by
    rcases live_update live with ⟨rfl, same⟩ | ⟨differs, live⟩
    · cases same
      exact .inr rfl
    · rcases seen.others id' call' φ'' live with idle | other
      · exact .inl idle
      · exact absurd (congrArg Seat.id (Option.some.inj (seated.symm.trans other))).symm differs
  seated := by
    rintro _ ⟨rfl⟩
    exact ⟨call, Function.update_self .., rfl, holds⟩

/-- The call at the desk leaves it and gives back the lock. -/
theorem left (seen : Seen c d) {id : Id} {call : Call} {φ : Phase} (stage : Life (Call × Phase))
    (seated : d.seat = some ⟨id, call.outcomes, φ⟩)
    (idle : ∀ call φ, stage = .live (call, φ) → φ = .idle)
    (ledgers : Ledgers journalStore host) :
    Seen ⟨World.release ⟨ledgers, c.shared.holder⟩ id, Function.update c.thread id stage⟩
      ⟨ledgers, none⟩ where
  ledgers := by unfold World.release; split <;> rfl
  holder := by
    have held : c.shared.holder = some id := by rw [seen.holder, seated]; rfl
    rw [World.release, if_pos held]
    rfl
  others id' call' φ' live := by
    rcases live_update live with ⟨_, same⟩ | ⟨differs, live⟩
    · exact .inl (idle call' φ' same)
    · rcases seen.others id' call' φ' live with idle | other
      · exact .inl idle
      · exact absurd (congrArg Seat.id (Option.some.inj (seated.symm.trans other))).symm differs
  seated _ member := nomatch member

end Seen

/-- The lock is taken only while the desk is free. -/
theorem seen_lock [DecidableEq Id] {c : Config phases (World.shared Id journalStore host)}
    {d : Desk Id host} (seen : Seen c d) {id : Id} {call : Call} {session : Session}
    (live : c.thread id = .live (call, .idle)) (free : c.shared.holder = none)
    (deadline : Option Int64) :
    ∃ d', Desk.Move d (.did id ⟨.lock deadline, .ok ()⟩) d' ∧
      Seen ⟨{ c.shared with holder := some id },
        Function.update c.thread id (.live (call, .held session))⟩ d' := by
  obtain ⟨ledgers, _ | seat⟩ := d
  · refine ⟨⟨ledgers, some ⟨id, call.outcomes, .held session⟩⟩, .lock, seen.ledgers, rfl, ?_, ?_⟩
    · intro id' call' φ live'
      rcases live_update live' with ⟨rfl, same⟩ | ⟨_, live'⟩
      · cases same
        exact .inr rfl
      · rcases seen.others id' call' φ live' with idle | other
        · exact .inl idle
        · contradiction
    · rintro _ ⟨rfl⟩
      exact ⟨call, Function.update_self .., rfl, rfl⟩
  · rw [seen.holder] at free
    contradiction

theorem answer_look [DecidableEq Id] {id : Id} {op : EngineOp} {ans : op.Answer}
    {w w' : World Id journalStore host} (look : op.IsLook)
    (answered : World.Answer id ⟨op, ans⟩ w w') : w' = w := by
  obtain ⟨ledgers, holder⟩ := w
  obtain ⟨ledgers', holder'⟩ := w'
  cases op <;> first
    | exact look.elim
    | (obtain ⟨same, same'⟩ := answered
       obtain rfl : ledgers' = ledgers := same
       obtain rfl : holder' = holder := same'
       rfl)

theorem answer_work [DecidableEq Id] {outcomes : Outcomes} {φ φ' : Phase} {id : Id}
    {e : Event Engine} {w w' : World Id journalStore host} (work : Phase.Work outcomes φ e φ')
    (answered : World.Answer id e w w') :
    w.ledgers.Answer e w'.ledgers ∧ w'.holder = w.holder := by
  cases work <;> exact answered

/-- A step of a call is a move at the desk. -/
theorem seen_step [DecidableEq Id] {c : Config phases (World.shared Id journalStore host)}
    {d : Desk Id host} (seen : Seen c d) {id : Id} {call : Call} {φ φ' : Phase} {e : Event Engine}
    {w : World Id journalStore host} (live : c.thread id = .live (call, φ))
    (step : Phase.Step call.outcomes φ e φ') (answered : World.Answer id e c.shared w) :
    ∃ d', Desk.Move d (.did id e) d' ∧
      Seen ⟨w, Function.update c.thread id (.live (call, φ'))⟩ d' := by
  cases step with
  | look look =>
    obtain rfl := answer_look look answered
    rw [← live, Function.update_eq_self]
    exact ⟨d, .look look, seen⟩
  | refused =>
    obtain ⟨ledgers, holder⟩ := w
    obtain ⟨same, same'⟩ := answered
    obtain rfl : ledgers = c.shared.ledgers := same
    obtain rfl : holder = c.shared.holder := same'
    rw [← live, Function.update_eq_self]
    exact ⟨d, .refused, seen⟩
  | lock session =>
    obtain ⟨free, rfl⟩ := answered
    exact seen_lock seen live free _
  | @release _ outcome reports =>
    obtain rfl : w = c.shared.release id := answered
    have seated := seen.working live (reports_session reports)
    obtain ⟨ledgers, seat⟩ := d
    obtain rfl : seat = _ := seated
    obtain rfl : ledgers = c.shared.ledgers := seen.ledgers
    exact ⟨_, .release reports, seen.left _ rfl (fun _ _ same => by cases same; rfl) _⟩
  | work work =>
    obtain ⟨ledgers', holder'⟩ := w
    obtain ⟨answered, same⟩ := answer_work work answered
    obtain rfl : holder' = c.shared.holder := same
    obtain ⟨session, before, after⟩ := Phase.work_session work
    have seated := seen.working live (by rw [before]; rfl)
    have here := seen.at_desk φ' seated (by rw [after]; rfl) ledgers'
    obtain ⟨ledgers, seat⟩ := d
    obtain rfl : seat = _ := seated
    obtain rfl : ledgers = c.shared.ledgers := seen.ledgers
    exact ⟨_, .work work answered, here⟩

/-- The death of a call is a move at the desk. -/
theorem seen_death [DecidableEq Id] {c : Config phases (World.shared Id journalStore host)}
    {d : Desk Id host} (seen : Seen c d) {id : Id} {call : Call} {φ φ' : Phase} {op : EngineOp}
    {ans : op.Answer} {ledgers : Ledgers journalStore host}
    (live : c.thread id = .live (call, φ)) (step : Phase.Step call.outcomes φ ⟨op, ans⟩ φ')
    (abandoned : c.shared.ledgers.Abandon op ledgers) :
    ∃ d', Desk.Move d (.died id op) d' ∧
      Seen ⟨World.release { c.shared with ledgers } id, Function.update c.thread id .over⟩ d' := by
  -- a call that is not at the desk leaves the world as it is
  have away (unseated : ∀ seat ∈ d.seat, seat.id ≠ id) (same : ledgers = c.shared.ledgers)
      (quiet : op.IsLook ∨ ∃ deadline, op = .lock deadline) :
      ∃ d', Desk.Move d (.died id op) d' ∧
        Seen ⟨World.release { c.shared with ledgers } id, Function.update c.thread id .over⟩ d' := by
    subst same
    have unheld : c.shared.holder ≠ some id := by
      rw [seen.holder]
      intro held
      obtain ⟨seat, member, same⟩ := Option.map_eq_some_iff.mp held
      exact unseated seat member same
    rw [World.release, if_neg unheld]
    exact ⟨d, .died unseated quiet, seen.elsewhere unseated fun _ _ same => nomatch same⟩
  cases step with
  | look look =>
    have same : ledgers = c.shared.ledgers := by
      cases op <;> first | exact look.elim | exact abandoned
    rcases seen.others id call φ live with rfl | seated
    · exact away (seen.idle_away live) same (.inl look)
    · obtain ⟨before, seat⟩ := d
      obtain rfl : seat = _ := seated
      obtain rfl : before = ledgers := seen.ledgers.trans same.symm
      exact ⟨_, .leave (.inl look), seen.left .over rfl (fun _ _ same => nomatch same) _⟩
  | refused => exact away (seen.idle_away live) abandoned (.inr ⟨_, rfl⟩)
  | lock session => exact away (seen.idle_away live) abandoned (.inr ⟨_, rfl⟩)
  | @release _ outcome reports =>
    have seated := seen.working live (reports_session reports)
    obtain ⟨before, seat⟩ := d
    obtain rfl : seat = _ := seated
    obtain rfl : before = ledgers := seen.ledgers.trans (Eq.symm abandoned)
    exact ⟨_, .leave (.inr ⟨outcome, rfl⟩), seen.left .over rfl (fun _ _ same => nomatch same) _⟩
  | work work =>
    obtain ⟨session, holds, _⟩ := Phase.work_session work
    have seated := seen.working live (by rw [holds]; rfl)
    obtain ⟨before, seat⟩ := d
    obtain rfl : seat = _ := seated
    obtain rfl : before = c.shared.ledgers := seen.ledgers
    exact ⟨_, .crash work abandoned, seen.left .over rfl (fun _ _ same => nomatch same) _⟩

/-- **One call at a time**: every run of the concurrent phases is a run at the desk, with
the same log. -/
theorem phases_serial [DecidableEq Id] {log : Log Id}
    {c : Config phases (World.shared Id journalStore host)} (run : Config.Run log c) :
    ∃ d : Desk Id host, Desk.Run log d ∧ Seen c d := by
  have initial : Seen (Config.init : Config phases (World.shared Id journalStore host)) Desk.init := by
    refine ⟨rfl, rfl, ?_, ?_⟩
    · intro id call φ live
      contradiction
    · intro seat member
      contradiction
  refine Reaches.simulate Seen initial ?_ run
  intro c d e c' seen move
  cases move with
  | @start id call θ fresh started =>
    obtain rfl : θ = (call, .idle) := started
    refine ⟨d, .started, seen.elsewhere ?_ fun _ _ same => by cases same; rfl⟩
    rintro seat member rfl
    obtain ⟨call', live, _⟩ := seen.seated seat member
    rw [fresh] at live
    contradiction
  | @answer id θ θ' e w live stepped answered =>
    obtain ⟨call, φ⟩ := θ
    obtain ⟨call', φ'⟩ := θ'
    obtain ⟨rfl, step⟩ := stepped
    exact seen_step seen live step answered
  | @die id θ op w live asked abandoned =>
    obtain ⟨call, φ⟩ := θ
    obtain ⟨ans, φ', step⟩ := asked
    obtain ⟨ledgers, abandoned, rfl⟩ := abandoned
    exact seen_death seen live step abandoned
  | @finish id θ live done =>
    obtain ⟨call, φ⟩ := θ
    obtain rfl : φ = .idle := done
    exact ⟨d, .ended, seen.elsewhere (seen.idle_away live) fun _ _ same => nomatch same⟩
  | @outside w dead struck =>
    obtain ⟨lost, unchanged⟩ := struck
    have free : d.seat = none := by
      rcases seat : d.seat with _ | seat'
      · rfl
      · obtain ⟨call, live, _⟩ := seen.seated seat' seat
        exact absurd live (dead _ _)
    obtain ⟨ledgers, seat⟩ := d
    obtain rfl : seat = none := free
    obtain rfl : ledgers = c.shared.ledgers := seen.ledgers
    refine ⟨_, .loses lost, rfl, ?_, ?_, fun _ none => nomatch none⟩
    · exact unchanged.trans seen.holder
    · exact fun id call φ live => absurd live (dead id _)

end Praefectus
