import Praefectus.Observe.CdpReplies
import Mathlib.Data.List.Pairwise
import Mathlib.Logic.Relation

/-!
# Replies are matched to commands

A browser and a channel that is called again and again share a socket. Messages arrive at any
time, also between calls, and what one call leaves unread is read by the next. Whatever
arrives, a call that succeeds returns the result of a message with its own identifier; if the
browser replies only to commands, that message arrived after the command was written.
-/

namespace Praefectus.Cdp

open Prog Json Relation

abbrev CallResult := Except CdpChannelError Json

/-- A call with what it did. A command is marked with the number of messages that had arrived
when it was written, and a message that was read with its place among all that arrive. -/
structure Call where
  channel : TungsteniteChannel
  method : String
  parameters : Json
  deadlineAtMs : Int64
  trace : List (Event Socket × Nat)

namespace Call

def program (call : Call) : Prog Socket (TungsteniteChannel × CallResult) :=
  call.channel.command call.method call.parameters call.deadlineAtMs

def events (call : Call) : List (Event Socket) := call.trace.map Prod.fst

/-- The identifier of the command, if there was one left. -/
def id? (call : Call) : Option UInt64 := call.channel.commandId

def writes (call : Call) : List String := call.events.filterMap sentOf

def reads (call : Call) : List Message := call.events.filterMap readOf

def note (call : Call) (event : Event Socket) (mark : Nat) : Call :=
  { call with trace := call.trace ++ [(event, mark)] }

@[simp] theorem note_channel (call : Call) (event : Event Socket) (mark : Nat) :
    (call.note event mark).channel = call.channel := rfl

@[simp] theorem note_program (call : Call) (event : Event Socket) (mark : Nat) :
    (call.note event mark).program = call.program := rfl

@[simp] theorem note_events (call : Call) (event : Event Socket) (mark : Nat) :
    (call.note event mark).events = call.events ++ [event] := by
  simp [note, events]

end Call

/-- The socket and the channel: what the browser was sent, what has arrived from it, and how
much of that is read or lost. -/
structure Session where
  channel : TungsteniteChannel
  heard : List String
  arrived : List Message
  taken : Nat
  running : Option (Call × Prog Socket (TungsteniteChannel × CallResult))
  ended : List (Call × CallResult)

namespace Session

def init : Session := ⟨⟨0⟩, [], [], 0, none, []⟩

/-- All calls, with the one that runs last. -/
def calls (s : Session) : List Call := s.ended.map Prod.fst ++ s.running.toList.map Prod.fst

/-- How the socket answers. A command that could not be written may have been written all the
same, and a failed read may lose messages. -/
inductive Answers (s : Session) : Event Socket → Nat → Session → Prop where
  | wrote {text : String} {written : Bool} :
      Answers s ⟨.send text, written⟩ s.arrived.length { s with heard := s.heard ++ [text] }
  | took {message : Message} : s.arrived[s.taken]? = some message →
      Answers s ⟨.read, some message⟩ s.taken { s with taken := s.taken + 1 }
  | failed {taken : Nat} : s.taken ≤ taken → Answers s ⟨.read, none⟩ s.taken { s with taken }
  | other {op : SocketOp} {ans : Socket.Ans op} : Silent op → Answers s ⟨op, ans⟩ 0 s

/-- One move of the browser or the channel. What the browser may say depends on the texts it
was sent. -/
inductive Move (peer : List String → Message → Prop) : Session → Session → Prop where
  | arrive {s : Session} {message : Message} : peer s.heard message →
      Move peer s { s with arrived := s.arrived ++ [message] }
  | call {s : Session} {method : String} {parameters : Json} {deadlineAtMs : Int64} :
      s.running = none → Move peer s { s with
        running := some (⟨s.channel, method, parameters, deadlineAtMs, []⟩,
          s.channel.command method parameters deadlineAtMs) }
  | answer {s s' : Session} {call : Call} {op : SocketOp} {ans : Socket.Ans op} {mark : Nat}
      {next : Socket.Ans op → Prog Socket (TungsteniteChannel × CallResult)} :
      s.running = some (call, .ask op next) → Answers s ⟨op, ans⟩ mark s' →
      Move peer s { s' with running := some (call.note ⟨op, ans⟩ mark, next ans) }
  | finish {s : Session} {call : Call} {channel : TungsteniteChannel} {result : CallResult} :
      s.running = some (call, .ret (channel, result)) →
      Move peer s { s with channel, running := none, ended := s.ended ++ [(call, result)] }

/-- The reachable states. -/
def Reached (peer : List String → Message → Prop) (s : Session) : Prop :=
  ReflTransGen (Move peer) init s

end Session

/-- The browser bears the identifier of a command only in reply to it. -/
def RepliesOnly (peer : List String → Message → Prop) : Prop :=
  ∀ heard message id, peer heard message → repliesTo message = some id →
    ∃ text ∈ heard, ∃ method parameters, text = requestOf id method parameters

namespace Session

variable {peer : List String → Message → Prop} {s s' : Session}

/-! ### Identifiers -/

def ids (calls : List Call) : List Nat := (calls.filterMap Call.id?).map UInt64.toNat

theorem ids_concat (calls : List Call) (call : Call) :
    ids (calls ++ [call]) = ids calls ++ call.id?.toList.map UInt64.toNat := by
  rw [ids, ids, List.filterMap_append, List.map_append]
  cases next : call.id? <;> simp [next]

/-- The identifiers ascend from call to call. -/
structure Ascending (s : Session) : Prop where
  sorted : (ids (s.ended.map Prod.fst)).Pairwise (· < ·)
  below : ∀ id ∈ ids (s.ended.map Prod.fst), id ≤ s.channel.nextId.toNat
  history : ∀ call result, (call, result) ∈ s.ended →
    ∃ channel, Steps call.program call.events (.ret (channel, result))
  current : ∀ call p, s.running = some (call, p) →
    call.channel = s.channel ∧ Steps call.program call.events p

theorem commandId_above {channel : TungsteniteChannel} {id : UInt64}
    (next : channel.commandId = some id) : channel.nextId.toNat < id.toNat := by
  unfold TungsteniteChannel.commandId at next
  split at next
  next small =>
    obtain rfl := Option.some.inj next
    rw [UInt64.toNat_add]
    have one : (1 : UInt64).toNat = 1 := rfl
    rw [one, Nat.mod_eq_of_lt small]
    exact Nat.lt_succ_self _
  next => cases next

theorem answers_kept {event : Event Socket} {mark : Nat} (answers : Answers s event mark s') :
    s'.channel = s.channel ∧ s'.ended = s.ended ∧ s'.arrived = s.arrived := by
  cases answers <;> exact ⟨rfl, rfl, rfl⟩

theorem ascending_move (ascending : Ascending s) (move : Move peer s s') : Ascending s' := by
  obtain ⟨sorted, below, history, current⟩ := ascending
  cases move with
  | arrive => exact ⟨sorted, below, history, current⟩
  | call =>
    refine ⟨sorted, below, history, ?_⟩
    intro call p same
    cases same
    exact ⟨rfl, .refl _⟩
  | @answer s' call op ans mark next running answers =>
    obtain ⟨channel, ended, _⟩ := answers_kept answers
    obtain ⟨same, run⟩ := current call _ running
    rw [← ended] at sorted below history
    rw [← channel] at below same
    refine ⟨sorted, below, history, ?_⟩
    intro call' p now
    cases now
    refine ⟨same, ?_⟩
    rw [Call.note_program, Call.note_events]
    exact steps_trans run (.step ans (.refl _))
  | @finish call channel result running =>
    obtain ⟨same, run⟩ := current call _ running
    have later : ∀ id ∈ call.id?.toList.map UInt64.toNat,
        s.channel.nextId.toNat < id ∧ id ≤ channel.nextId.toNat := by
      intro n member
      obtain ⟨id, listed, rfl⟩ := List.mem_map.mp member
      have next := Option.mem_toList.mp listed
      refine ⟨same ▸ commandId_above next, ?_⟩
      rcases command_ended run with ⟨none, _⟩ | ⟨id', next', now, _⟩
      · rw [Call.id?, none] at next
        cases next
      · obtain rfl := Option.some.inj (next.symm.trans next')
        exact now ▸ Nat.le_refl _
    have onward : s.channel.nextId.toNat ≤ channel.nextId.toNat := by
      rcases command_ended run with ⟨_, _, now, _⟩ | ⟨id, next, now, _⟩
      · rw [now, same]
      · have above := same ▸ commandId_above next
        rw [now]
        exact Nat.le_of_lt above
    have listed : ids ((s.ended ++ [(call, result)]).map Prod.fst) =
        ids (s.ended.map Prod.fst) ++ call.id?.toList.map UInt64.toNat := by
      rw [List.map_append]
      exact ids_concat _ call
    refine ⟨?_, ?_, ?_, nofun⟩
    · rw [listed, List.pairwise_append]
      refine ⟨sorted, ?_, fun a first b last => (below a first).trans_lt (later b last).1⟩
      cases call.id? <;> simp
    · intro id member
      rw [listed, List.mem_append] at member
      rcases member with first | last
      · exact (below id first).trans onward
      · exact (later id last).2
    · intro call' result' member
      rcases List.mem_append.mp member with first | last
      · exact history call' result' first
      · cases List.mem_singleton.mp last
        exact ⟨channel, run⟩

theorem ascending_reached (reached : Reached peer s) : Ascending s := by
  induction reached with
  | refl => exact ⟨.nil, nofun, nofun, nofun⟩
  | tail _ move ih => exact ascending_move ih move

/-! ### Messages -/

/-- A command of the identifier was written when so many messages had arrived. -/
def Sent (calls : List Call) (text : String) (mark : Nat) : Prop :=
  ∃ call ∈ calls, ∃ written, (⟨.send text, written⟩, mark) ∈ call.trace

/-- What was read did arrive, what the browser heard was sent, and a message that bears the
identifier of a command arrived after one of its identifier was written. -/
structure Received (peer : List String → Message → Prop) (s : Session) : Prop where
  places : ∀ call ∈ s.calls, ∀ message place,
    (⟨.read, some message⟩, place) ∈ call.trace → s.arrived[place]? = some message
  heard : ∀ text ∈ s.heard, ∃ mark ≤ s.arrived.length, Sent s.calls text mark
  replies : RepliesOnly peer → ∀ place message id, s.arrived[place]? = some message →
    repliesTo message = some id → ∃ method parameters, ∃ mark ≤ place,
      Sent s.calls (requestOf id method parameters) mark

/-- Calls that keep their traces, or get longer ones. -/
def Grown (calls calls' : List Call) : Prop :=
  ∀ call ∈ calls, ∃ call' ∈ calls', call.trace ⊆ call'.trace

theorem sent_grown {calls calls' : List Call} {text : String} {mark : Nat}
    (grown : Grown calls calls') (sent : Sent calls text mark) : Sent calls' text mark := by
  obtain ⟨call, member, written, listed⟩ := sent
  obtain ⟨call', member', longer⟩ := grown call member
  exact ⟨call', member', written, longer listed⟩

theorem grown_same {calls calls' : List Call} (same : calls ⊆ calls') : Grown calls calls' :=
  fun call member => ⟨call, same member, List.Subset.refl _⟩

/-- The calls after an answer: the running one has noted it. -/
theorem calls_note {call : Call} {p p' : Prog Socket (TungsteniteChannel × CallResult)}
    {event : Event Socket} {mark : Nat} (running : s.running = some (call, p))
    (ended : s'.ended = s.ended) :
    Grown s.calls { s' with running := some (call.note event mark, p') }.calls ∧
      ∀ call' ∈ { s' with running := some (call.note event mark, p') }.calls,
        call' ∈ s.calls ∨ call' = call.note event mark ∧ call ∈ s.calls := by
  have own : call ∈ s.calls := by simp [calls, running]
  constructor
  · intro call' member
    rcases List.mem_append.mp member with first | last
    · exact ⟨call', by simp [calls, ended] at first ⊢; exact .inl first, List.Subset.refl _⟩
    · simp only [running, Option.toList_some, List.map_cons, List.map_nil, List.mem_singleton] at last
      subst last
      exact ⟨call'.note event mark, by simp [calls], List.subset_append_left _ _⟩
  · intro call' member
    rcases List.mem_append.mp member with first | last
    · exact .inl (List.mem_append_left _ (ended ▸ first))
    · simp only [Option.toList_some, List.map_cons, List.map_nil, List.mem_singleton] at last
      exact .inr ⟨last, own⟩

theorem received_note {call : Call} {p p' : Prog Socket (TungsteniteChannel × CallResult)}
    {event : Event Socket} {mark : Nat} (received : Received peer s)
    (running : s.running = some (call, p)) (ended : s'.ended = s.ended)
    (arrived : s'.arrived = s.arrived)
    (took : ∀ message, event = ⟨.read, some message⟩ → s.arrived[mark]? = some message)
    (hears : ∀ text ∈ s'.heard, text ∈ s.heard ∨
      mark = s.arrived.length ∧ ∃ written, event = ⟨.send text, written⟩) :
    Received peer { s' with running := some (call.note event mark, p') } := by
  obtain ⟨places, heard, replies⟩ := received
  obtain ⟨grown, known⟩ := @calls_note s s' call p p' event mark running ended
  refine ⟨?_, ?_, ?_⟩
  · intro call' member message place listed
    rw [arrived]
    rcases known call' member with before | ⟨rfl, own⟩
    · exact places call' before message place listed
    · rcases List.mem_append.mp listed with earlier | now
      · exact places call own message place earlier
      · obtain ⟨same, rfl⟩ := Prod.mk.inj (List.mem_singleton.mp now)
        exact took message same.symm
  · intro text member
    rw [arrived]
    rcases hears text member with before | ⟨rfl, written, rfl⟩
    · obtain ⟨mark', early, sent⟩ := heard text before
      exact ⟨mark', early, sent_grown grown sent⟩
    · refine ⟨_, Nat.le_refl _, call.note ⟨.send text, written⟩ s.arrived.length, ?_, written, ?_⟩
      · simp [calls]
      · simp [Call.note]
  · intro honest place message id there bears
    rw [arrived] at there
    obtain ⟨method, parameters, mark', early, sent⟩ := replies honest place message id there bears
    exact ⟨method, parameters, mark', early, sent_grown grown sent⟩

theorem received_move (received : Received peer s) (move : Move peer s s') : Received peer s' := by
  have ⟨places, heard, replies⟩ := received
  cases move with
  | @arrive message said =>
    refine ⟨?_, ?_, ?_⟩
    · intro call member message' place listed
      have there := places call member message' place listed
      obtain ⟨inside, _⟩ := List.getElem?_eq_some_iff.mp there
      rw [List.getElem?_append_left inside]
      exact there
    · intro text member
      obtain ⟨mark, early, sent⟩ := heard text member
      exact ⟨mark, early.trans (by simp), sent⟩
    · intro honest place message' id there bears
      rcases Nat.lt_or_ge place s.arrived.length with inside | outside
      · rw [List.getElem?_append_left inside] at there
        exact replies honest place message' id there bears
      · -- the message that has just arrived
        rw [List.getElem?_append_right outside] at there
        obtain ⟨rfl, rfl⟩ : place = s.arrived.length ∧ message = message' := by
          obtain ⟨last, same⟩ := List.getElem?_eq_some_iff.mp there
          rw [List.length_singleton] at last
          refine ⟨by omega, ?_⟩
          simpa using same
        obtain ⟨text, member, method, parameters, rfl⟩ := honest s.heard message id said bears
        obtain ⟨mark, early, sent⟩ := heard _ member
        exact ⟨method, parameters, mark, early, sent⟩
  | @call method parameters deadlineAtMs idle =>
    have grown : Grown s.calls { s with
        running := some (⟨s.channel, method, parameters, deadlineAtMs, []⟩,
          s.channel.command method parameters deadlineAtMs) }.calls := by
      refine grown_same fun call member => ?_
      simp only [calls, idle, Option.toList_none, List.map_nil, List.append_nil] at member
      exact List.mem_append_left _ member
    refine ⟨?_, ?_, ?_⟩
    · intro call member message place listed
      rcases List.mem_append.mp member with first | last
      · exact places call (List.mem_append_left _ first) message place listed
      · simp only [Option.toList_some, List.map_cons, List.map_nil, List.mem_singleton] at last
        subst last
        cases listed
    · intro text member
      obtain ⟨mark, early, sent⟩ := heard text member
      exact ⟨mark, early, sent_grown grown sent⟩
    · intro honest place message id there bears
      obtain ⟨method', parameters', mark, early, sent⟩ := replies honest place message id there bears
      exact ⟨method', parameters', mark, early, sent_grown grown sent⟩
  | @answer s' call op ans mark next running answers =>
    obtain ⟨_, ended, arrived⟩ := answers_kept answers
    refine received_note received running ended arrived ?_ ?_
    · intro message same
      cases same
      cases answers with
      | took there => exact there
      | other silent => exact silent.elim
    · intro text member
      cases answers with
      | wrote =>
        rcases List.mem_append.mp member with before | now
        · exact .inl before
        · obtain rfl := List.mem_singleton.mp now
          exact .inr ⟨rfl, _, rfl⟩
      | took | failed | other => exact .inl member
  | @finish call channel result running =>
    have same : { s with channel, running := none, ended := s.ended ++ [(call, result)] }.calls =
        s.calls := by
      simp [calls, running]
    refine ⟨?_, ?_, ?_⟩
    · rw [same]
      exact places
    · rw [same]
      exact heard
    · rw [same]
      exact replies

theorem received_reached (reached : Reached peer s) : Received peer s := by
  induction reached with
  | refl => exact ⟨nofun, nofun, fun _ _ _ _ there => by simp [init] at there⟩
  | tail _ move ih => exact received_move ih move

/-! ### Calls that are told apart -/

/-- Every call has come somewhere in its program, and the last one has the last identifier. -/
theorem ascending_calls (ascending : Ascending s) :
    (∀ call ∈ s.calls, ∃ p, Steps call.program call.events p) ∧
      (ids s.calls).Pairwise (· < ·) := by
  constructor
  · intro call member
    rcases List.mem_append.mp member with first | last
    · obtain ⟨⟨call', result⟩, ended, rfl⟩ := List.mem_map.mp first
      obtain ⟨channel, run⟩ := ascending.history _ _ ended
      exact ⟨_, run⟩
    · obtain ⟨⟨call', p⟩, running, rfl⟩ := List.mem_map.mp last
      exact ⟨p, (ascending.current _ p (Option.mem_toList.mp running)).2⟩
  · cases running : s.running with
    | none => simpa [calls, running] using ascending.sorted
    | some current =>
      obtain ⟨call, p⟩ := current
      have listed : s.calls = s.ended.map Prod.fst ++ [call] := by simp [calls, running]
      rw [listed, ids_concat, List.pairwise_append]
      refine ⟨ascending.sorted, ?_, fun a first b last => ?_⟩
      · cases call.id? <;> simp
      · obtain ⟨id, next, rfl⟩ := List.mem_map.mp last
        have above := commandId_above (Option.mem_toList.mp next)
        rw [(ascending.current call p running).1] at above
        exact (ascending.below a first).trans_lt above

theorem ids_nodup (ascending : Ascending s) : (s.calls.filterMap Call.id?).Nodup := by
  refine List.Nodup.of_map UInt64.toNat ?_
  exact (ascending_calls ascending).2.imp Nat.ne_of_lt

/-- A call is told by its identifier. -/
theorem call_unique (ascending : Ascending s) {call call' : Call} (member : call ∈ s.calls)
    (member' : call' ∈ s.calls) {id : UInt64} (own : call.id? = some id)
    (own' : call'.id? = some id) : call = call' := by
  by_contra differs
  have apart := List.pairwise_filterMap.mp (ids_nodup ascending)
  have : Std.Symm fun a b : Call => ∀ i, a.id? = some i → ∀ j, b.id? = some j → i ≠ j :=
    ⟨fun a b others i first j second => (others j second i first).symm⟩
  exact apart.forall member member' differs id own id own' rfl

/-- A call writes its own command only. -/
theorem writes_own (ascending : Ascending s) {call : Call} (member : call ∈ s.calls) {text : String}
    (wrote : text ∈ call.writes) :
    ∃ id, call.id? = some id ∧ text = requestOf id call.method call.parameters := by
  obtain ⟨p, run⟩ := (ascending_calls ascending).1 call member
  obtain ⟨e, listed, sent⟩ := List.mem_filterMap.mp wrote
  have own := only_steps (command_own call.channel call.method call.parameters call.deadlineAtMs)
    run e listed
  obtain ⟨op, ans⟩ := e
  cases op with
  | send text' =>
    cases sent
    exact own text rfl
  | nowMs | setReadTimeout | setWriteTimeout | read => cases sent

theorem sent_writes {call : Call} {text : String} {written : Bool} {mark : Nat}
    (listed : ((⟨.send text, written⟩ : Event Socket), mark) ∈ call.trace) : text ∈ call.writes :=
  List.mem_filterMap.mpr ⟨_, List.mem_map.mpr ⟨_, listed, rfl⟩, rfl⟩

/-- Where a call wrote one command, all its marks of commands are the same. -/
theorem sent_once {trace before after : List (Event Socket × Nat)} {request : String} {sentAt : Nat}
    (split : trace = before ++ (⟨.send request, true⟩, sentAt) :: after)
    (once : (trace.map Prod.fst).filterMap sentOf = [request]) {text : String} {written : Bool}
    {mark : Nat} (listed : ((⟨.send text, written⟩ : Event Socket), mark) ∈ trace) :
    mark = sentAt := by
  have lengths := congrArg List.length once
  rw [split, List.map_append, List.filterMap_append, List.map_cons, List.filterMap_cons] at lengths
  simp only [sentOf, List.length_append, List.length_cons, List.length_nil] at lengths
  have elsewhere {part : List (Event Socket × Nat)}
      (none : ((part.map Prod.fst).filterMap sentOf).length = 0) :
      ((⟨.send text, written⟩ : Event Socket), mark) ∉ part := by
    intro member
    have found : text ∈ (part.map Prod.fst).filterMap sentOf :=
      List.mem_filterMap.mpr ⟨_, List.mem_map.mpr ⟨_, member, rfl⟩, rfl⟩
    rw [List.length_eq_zero_iff.mp none] at found
    exact List.not_mem_nil found
  rw [split, List.mem_append, List.mem_cons] at listed
  rcases listed with first | same | last
  · exact absurd first (elsewhere (by omega))
  · exact (Prod.mk.inj same).2
  · exact absurd last (elsewhere (by omega))

/-- **Replies are matched to commands**: identifiers are never used twice, a call reads a
limited number of messages and a limited amount of text, writes nothing before it fails
before sending, and returns only the result of a message with its own identifier, which
arrived after the command was written if the browser replies only to commands. -/
theorem replies_matched (reached : Reached peer s) :
    (s.calls.filterMap Call.id?).Nodup ∧
    (∀ call ∈ s.calls, ∀ text ∈ call.writes,
      ∃ id, call.id? = some id ∧ text = requestOf id call.method call.parameters) ∧
    ∀ call result, (call, result) ∈ s.ended →
      call.reads.length ≤ maxCdpMessagesPerCommand ∧
      textBytes call.reads.dropLast ≤ maxCdpMessageBytes ∧
      (maxCdpMessageBytes < textBytes call.reads → result = .error .afterSend) ∧
      (result = .error .beforeSend → call.writes = []) ∧
      ∀ value, result = .ok value → ∃ id text before sentAt between place,
        call.id? = some id ∧
        call.trace = before ++ (⟨.send (requestOf id call.method call.parameters), true⟩, sentAt) ::
          between ++ [(⟨.read, some (.text text)⟩, place)] ∧
        s.arrived[place]? = some (.text text) ∧ IsReply id value text ∧
        (RepliesOnly peer → sentAt ≤ place) := by
  have ascending := ascending_reached reached
  have received := received_reached reached
  refine ⟨ids_nodup ascending, fun call member text wrote => writes_own ascending member wrote, ?_⟩
  intro call result ended
  have member : call ∈ s.calls := List.mem_append_left _ (List.mem_map_of_mem (f := Prod.fst) ended)
  obtain ⟨channel, run⟩ := ascending.history call result ended
  rcases command_ended run with ⟨_, nothing, _, rfl⟩ | ⟨id, own, _, commanded⟩
  · -- no identifier was left
    have none : call.events = [] := nothing
    refine ⟨?_, ?_, fun _ => ?_, fun _ => ?_, nofun⟩
    · simp [Call.reads, none]
    · simp [Call.reads, none, textBytes]
    · simp [Call.reads, none, textBytes] at *
    · simp [Call.writes, none]
  · refine ⟨commanded.few, commanded.accepted, commanded.refused, commanded.beforeSend, ?_⟩
    intro value ok
    obtain ⟨before, between, text, events, reply⟩ := commanded.reply value ok
    obtain ⟨front, last, split, events, ending⟩ := List.map_eq_append_iff.mp events
    obtain ⟨before', sending, rfl, rfl, sending'⟩ := List.map_eq_append_iff.mp events
    obtain ⟨⟨_, sentAt⟩, between', rfl, same, rfl⟩ := List.map_eq_cons_iff.mp sending'
    obtain ⟨⟨_, place⟩, none, rfl, same', done⟩ := List.map_eq_cons_iff.mp ending
    obtain rfl := List.map_eq_nil_iff.mp done
    obtain rfl : _ = _ := same
    obtain rfl : _ = _ := same'
    have read : ((⟨.read, some (.text text)⟩ : Event Socket), place) ∈ call.trace := by
      rw [split]
      exact List.mem_append_right _ List.mem_cons_self
    have there := received.places call member _ place read
    refine ⟨id, text, before', sentAt, between', place, own, split, there, reply, fun honest => ?_⟩
    -- a command of the identifier was written before the message arrived, and only this call has it
    obtain ⟨response, parsed, bears, _⟩ := reply
    have replies : repliesTo (.text text) = some id := by
      rw [repliesTo, parsed]
      exact bears
    obtain ⟨method, parameters, mark, early, call', member', written, listed⟩ :=
      received.replies honest place _ id there replies
    obtain ⟨id', own', same⟩ := writes_own ascending member' (sent_writes listed)
    obtain rfl := requestOf_id same
    obtain rfl := call_unique ascending member member' own own'
    have wrote : call.writes = [requestOf id call.method call.parameters] := by
      rcases commanded.wrote with none | once
      · have inside := sent_writes listed
        rw [Call.writes, none] at inside
        cases inside
      · exact once
    rw [List.append_assoc, List.cons_append] at split
    exact sent_once split wrote listed ▸ early

/-! ### A reply in time -/

/-- A browser that replies only to commands it was sent. -/
def Honest (heard : List String) (message : Message) : Prop :=
  ∀ id, repliesTo message = some id →
    ∃ text ∈ heard, ∃ method parameters, text = requestOf id method parameters

theorem honest_repliesOnly : RepliesOnly Honest := fun _ _ id said bears => said id bears

/-- A reply that is there in time is returned. -/
theorem replied_ended {content : String} {response result : Json}
    (small : content.utf8ByteSize ≤ maxCdpMessageBytes) (parsed : fromStr content = some response)
    (answer : cdpCommandResult response 1 = .ok (some result)) :
    ∃ s call, Reached Honest s ∧ (call, Except.ok result) ∈ s.ended := by
  have start : Reached Honest init := .refl
  have called := start.tail (@Move.call Honest _ "Page.enable" (.obj []) 1000 rfl)
  have now := called.tail (@Move.answer _ _ _ _ .nowMs (0 : Int64) _ _ rfl (.other trivial))
  have reading := now.tail (@Move.answer _ _ _ _ (.setReadTimeout 1000) true _ _ rfl (.other trivial))
  have timely := reading.tail
    (@Move.answer _ _ _ _ (.setWriteTimeout 1000) true _ _ rfl (.other trivial))
  have wrote := timely.tail
    (@Move.answer _ _ _ _ (.send (requestOf 1 "Page.enable" (.obj []))) true _ _ rfl .wrote)
  have said : Honest [requestOf 1 "Page.enable" (.obj [])] (.text content) := by
    intro id bears
    obtain ⟨own, _⟩ := cdpCommandResult_ok answer
    rw [repliesTo, parsed] at bears
    obtain rfl := Option.some.inj (own.symm.trans bears)
    exact ⟨_, List.mem_singleton.mpr rfl, _, _, rfl⟩
  have replied := wrote.tail (@Move.arrive Honest _ (.text content) said)
  have now := replied.tail (@Move.answer _ _ _ _ .nowMs (0 : Int64) _ _ rfl (.other trivial))
  have reading := now.tail (@Move.answer _ _ _ _ (.setReadTimeout 1000) true _ _ rfl (.other trivial))
  have timely := reading.tail
    (@Move.answer _ _ _ _ (.setWriteTimeout 1000) true _ _ rfl (.other trivial))
  have took := timely.tail
    (@Move.answer _ _ _ _ .read (some (.text content)) _ _ rfl (.took rfl))
  obtain ⟨s, call, p, reached, running, last⟩ : ∃ s call p, Reached Honest s ∧
      s.running = some (call, p) ∧ p = .ret (⟨1⟩, .ok result) := by
    refine ⟨_, _, _, took, rfl, ?_⟩
    have first : init.channel.nextId + 1 = 1 := rfl
    simp only [Prog.bind, ExceptT.bindCont, Function.comp_apply, Nat.zero_add, small, if_true, parsed,
      first, answer]
    rfl
  subst last
  exact ⟨_, call, reached.tail (.finish running), by simp⟩

theorem replies_matched_enabled : ∃ s call, Reached Honest s ∧ (call, Except.ok (.obj [])) ∈ s.ended ∧
    ∃ id text before sentAt between place, call.id? = some id ∧
      call.trace = before ++ (⟨.send (requestOf id call.method call.parameters), true⟩, sentAt) ::
        between ++ [(⟨.read, some (.text text)⟩, place)] ∧ sentAt ≤ place := by
  have printed : (fromStr "\x7b\"id\":1,\"result\":\x7b\x7d\x7d").map Json.print =
      some (Json.obj [("id", ofUInt64 1), ("result", .obj [])]).print := by
    decide +kernel
  obtain ⟨response, parsed, same⟩ := Option.map_eq_some_iff.mp printed
  obtain rfl := Json.print_injective same
  obtain ⟨s, call, reached, ended⟩ := replied_ended (by decide +kernel) parsed rfl
  obtain ⟨_, _, calls⟩ := replies_matched reached
  obtain ⟨_, _, _, _, reply⟩ := calls call _ ended
  obtain ⟨id, text, before, sentAt, between, place, own, split, _, _, later⟩ := reply _ rfl
  exact ⟨s, call, reached, ended, id, text, before, sentAt, between, place, own, split,
    later honest_repliesOnly⟩

end Session

end Praefectus.Cdp
