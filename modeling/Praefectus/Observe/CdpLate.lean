import Praefectus.Observe.CdpSession
import Mathlib.Data.List.Basic

/-!
# Late replies

A reply that comes after its command has given up stays on the socket, and the next command
reads it. It is not taken for the reply of that command: a message with another identifier ends
the command, whose own reply is then left in turn. A command returns its own reply exactly where
the replies to all commands before it have been read by the time that it begins to read.
-/

namespace Praefectus.Cdp

open Prog Json

/-! ### Messages -/

/-- A message that every command passes over. -/
def IsEvent : Message → Prop
  | .ping _ | .pong _ => True
  | .text text => ∃ response, fromStr text = some response ∧
      (response.get? "id").bind asU64 = none ∧
      ((response.get? "method").bind Json.asStr).any (· ≠ "") = true
  | _ => False

/-- A reply to the command without an error. -/
def IsAnswer (id : UInt64) (value : Json) : Message → Prop
  | .text text => IsReply id value text
  | _ => False

theorem event_repliesTo {message : Message} (event : IsEvent message) : repliesTo message = none := by
  cases message with
  | text text =>
    obtain ⟨response, parsed, bare, _⟩ := event
    rw [repliesTo, parsed]
    exact bare
  | _ => rfl

theorem answer_repliesTo {id : UInt64} {value : Json} {message : Message}
    (answer : IsAnswer id value message) : repliesTo message = some id := by
  cases message with
  | text text =>
    obtain ⟨response, parsed, bears, _⟩ := answer
    rw [repliesTo, parsed]
    exact bears
  | _ => exact answer.elim

theorem cdpCommandResult_event {response : Json} (id : UInt64)
    (bare : (response.get? "id").bind asU64 = none)
    (named : ((response.get? "method").bind Json.asStr).any (· ≠ "") = true) :
    cdpCommandResult response id = .ok none := by
  unfold cdpCommandResult
  rw [bare]
  exact if_pos named

/-- What a command makes of a reply, its own or another's. -/
theorem cdpCommandResult_reply {response value : Json} {id : UInt64} (commandId : UInt64)
    (bears : (response.get? "id").bind asU64 = some id) (noError : response.get? "error" = none)
    (result : response.get? "result" = some value) :
    cdpCommandResult response commandId =
      if id = commandId then .ok (some value) else .error .afterSend := by
  unfold cdpCommandResult
  rw [bears, noError, result]
  by_cases own : id = commandId
  · simp only [own, decide_true, Option.isNone_none, Bool.and_self, if_true]
    rfl
  · simp only [own, decide_false, Bool.false_and, Bool.false_eq_true, if_false]
    rfl

/-! ### One command -/

/-- The clock is before the deadline, and the socket does what it is asked. -/
def Granted (deadlineAtMs : Int64) : Event Socket → Prop
  | ⟨.nowMs, now⟩ => 0 < saturatingSub deadlineAtMs now
  | ⟨.setReadTimeout _, accepted⟩ => accepted = true
  | ⟨.setWriteTimeout _, accepted⟩ => accepted = true
  | ⟨.send _, written⟩ => written = true
  | ⟨.read, message⟩ => message ≠ none

theorem setStreamDeadline_granted {deadlineAtMs : Int64} {trace : List (Event Socket)} {timely : Bool}
    (granted : ∀ e ∈ trace, Granted deadlineAtMs e)
    (run : Steps (setStreamDeadline deadlineAtMs) trace (.ret timely)) : timely = true := by
  obtain ⟨_, now, _, rfl, asked, reading⟩ := steps_bind.mp run
  obtain rfl := steps_ask.mp asked
  obtain ⟨early, later⟩ := List.forall_mem_cons.mp granted
  have left : ¬ saturatingSub deadlineAtMs now ≤ 0 := Int64.not_le.mpr early
  dsimp only at reading
  rw [if_neg left] at reading
  obtain ⟨_, accepted, _, rfl, asked, writing⟩ := steps_bind.mp reading
  obtain rfl := steps_ask.mp asked
  obtain ⟨accepted', last⟩ := List.forall_mem_cons.mp later
  obtain rfl : accepted = true := accepted'
  rw [if_pos rfl] at writing
  obtain rfl := steps_ask.mp writing
  exact last _ List.mem_cons_self

theorem textBytes_cons (message : Message) (messages : List Message) :
    textBytes (message :: messages) = message.bytes + textBytes messages := by
  simp [textBytes]

/-- The loop passes over events, and ends at the first reply, whosever it is. -/
theorem receive_answered {id id' : UInt64} {deadlineAtMs : Int64} {rounds receivedBytes : Nat}
    {trace : List (Event Socket)} {result : Except CdpChannelError Json} {pre post : List Message}
    {own : Message} {value : Json}
    (run : Steps (receive id deadlineAtMs rounds receivedBytes).run trace (.ret result))
    (granted : ∀ e ∈ trace, Granted deadlineAtMs e)
    (reads : trace.filterMap readOf <+: pre ++ own :: post)
    (events : ∀ message ∈ pre, IsEvent message) (answer : IsAnswer id' value own)
    (few : pre.length < rounds)
    (fits : receivedBytes + textBytes (pre ++ [own]) ≤ maxCdpMessageBytes) :
    trace.filterMap readOf = pre ++ [own] ∧
      result = if id' = id then .ok value else .error .afterSend := by
  induction rounds generalizing receivedBytes trace pre with
  | zero => exact absurd few (Nat.not_lt_zero _)
  | succ rounds ih =>
    rw [receive] at run
    obtain ⟨first, timely, rest, rfl, set, run⟩ := steps_after run
    have silent := only_steps (setStreamDeadline_silent deadlineAtMs) set
    obtain ⟨_, readFirst⟩ := silent_events silent
    obtain ⟨early, late⟩ := List.forall_mem_append.mp granted
    clear granted
    obtain rfl := setStreamDeadline_granted early set
    rw [if_pos rfl] at run
    obtain ⟨reading, message, rest, rfl, asked, after⟩ := steps_after run
    obtain rfl := steps_ask.mp asked
    obtain ⟨some', granted⟩ := List.forall_mem_cons.mp late
    obtain ⟨message, rfl⟩ := Option.ne_none_iff_exists'.mp some'
    have read : (first ++ ([(⟨.read, some message⟩ : Event Socket)] ++ rest)).filterMap readOf =
        message :: rest.filterMap readOf := by
      rw [List.filterMap_append, readFirst]
      rfl
    rw [read] at reads ⊢
    cases pre with
    | nil =>
      -- the reply itself
      obtain ⟨rfl, _⟩ := List.cons_prefix_cons.mp reads
      cases message with
      | text content =>
        obtain ⟨response, parsed, bears, noError, found⟩ := answer
        have small : receivedBytes + content.utf8ByteSize ≤ maxCdpMessageBytes := by
          simpa [textBytes, Message.bytes] using fits
        have made := cdpCommandResult_reply id bears noError found
        dsimp only at after
        rw [if_pos small, parsed] at after
        dsimp only at after
        rw [made] at after
        by_cases own : id' = id
        · simp only [own, if_true] at after ⊢
          obtain ⟨rfl, rfl⟩ := steps_ret.mp after
          exact ⟨rfl, rfl⟩
        · simp only [own, if_false] at after ⊢
          obtain ⟨rfl, rfl⟩ := steps_ret.mp after
          exact ⟨rfl, rfl⟩
      | _ => exact answer.elim
    | cons event pre =>
      obtain ⟨rfl, onward⟩ := List.cons_prefix_cons.mp reads
      obtain ⟨passed, events⟩ := List.forall_mem_cons.mp events
      have few : pre.length < rounds := Nat.lt_of_succ_lt_succ few
      rw [List.cons_append, textBytes_cons] at fits
      have more (after : Steps (receive id deadlineAtMs rounds
          (receivedBytes + message.bytes)).run rest (.ret result)) :
          message :: rest.filterMap readOf = message :: pre ++ [own] ∧
            result = if id' = id then .ok value else .error .afterSend := by
        obtain ⟨same, ended⟩ := ih after granted onward events few (by omega)
        exact ⟨by rw [same]; rfl, ended⟩
      cases message with
      | text content =>
        obtain ⟨response, parsed, bare, named⟩ := passed
        have small : receivedBytes + content.utf8ByteSize ≤ maxCdpMessageBytes := by
          simp only [Message.bytes] at fits
          omega
        dsimp only at after
        rw [if_pos small, parsed] at after
        dsimp only at after
        rw [cdpCommandResult_event id bare named] at after
        exact more after
      | ping | pong => exact more after
      | _ => exact passed.elim

/-- A call that wrote its command ends at the first reply that it reads. -/
theorem command_answered {channel channel' : TungsteniteChannel} {method : String} {parameters : Json}
    {deadlineAtMs : Int64} {trace : List (Event Socket)} {result : CallResult} {id id' : UInt64}
    {pre post : List Message} {own : Message} {value : Json}
    (run : Steps (channel.command method parameters deadlineAtMs) trace (.ret (channel', result)))
    (next : channel.commandId = some id) (granted : ∀ e ∈ trace, Granted deadlineAtMs e)
    (wrote : trace.filterMap sentOf ≠ []) (reads : trace.filterMap readOf <+: pre ++ own :: post)
    (events : ∀ message ∈ pre, IsEvent message) (answer : IsAnswer id' value own)
    (few : pre.length < maxCdpMessagesPerCommand)
    (fits : textBytes (pre ++ [own]) ≤ maxCdpMessageBytes) :
    trace.filterMap readOf = pre ++ [own] ∧
      result = if id' = id then .ok value else .error .afterSend := by
  unfold TungsteniteChannel.command at run
  rw [next] at run
  obtain ⟨trace, ended, none, rfl, commanded, returned⟩ := steps_bind.mp run
  obtain ⟨rfl, same⟩ := steps_ret.mp returned
  obtain ⟨_, rfl⟩ := Prod.mk.inj same
  rw [List.append_nil] at granted wrote reads ⊢
  unfold sendCommand at commanded
  obtain ⟨first, timely, rest, rfl, set, sending⟩ := steps_after commanded
  obtain ⟨wroteFirst, readFirst⟩ := silent_events (only_steps (setStreamDeadline_silent _) set)
  obtain ⟨early, late⟩ := List.forall_mem_append.mp granted
  obtain rfl := setStreamDeadline_granted early set
  rw [if_pos rfl] at sending
  rw [List.filterMap_append, wroteFirst, List.nil_append] at wrote
  rw [List.filterMap_append, readFirst, List.nil_append] at reads ⊢
  dsimp only at sending
  split at sending
  · obtain ⟨rfl, _⟩ := steps_ret.mp sending
    exact absurd rfl wrote
  · obtain ⟨_, written, rest, rfl, asked, receiving⟩ := steps_after sending
    obtain rfl := steps_ask.mp asked
    obtain ⟨written', later⟩ := List.forall_mem_cons.mp late
    obtain rfl : written = true := written'
    rw [if_pos rfl] at receiving
    have reads : rest.filterMap readOf <+: pre ++ own :: post := reads
    have fits : 0 + textBytes (pre ++ [own]) ≤ maxCdpMessageBytes := by rwa [Nat.zero_add]
    have ends := receive_answered receiving later reads events answer few fits
    exact ends

namespace Session

variable {peer : List String → Message → Prop} {s s' : Session}

/-! ### Places -/

/-- The places of the messages that a call read. -/
def readPlaces (trace : List (Event Socket × Nat)) : List Nat :=
  trace.filterMap fun entry => (readOf entry.1).map fun _ => entry.2

/-- The call read the messages from one place on, one after the other. -/
def ReadsFrom (call : Call) (start : Nat) : Prop :=
  readPlaces call.trace = List.range' start call.reads.length

def NoReadFails (call : Call) : Prop := ∀ e ∈ call.events, e ≠ ⟨.read, none⟩

/-- Calls of which no read failed read one message after the other. -/
structure Sequential (s : Session) : Prop where
  ended : ∀ call ∈ s.ended.map Prod.fst, NoReadFails call → ∃ start, ReadsFrom call start
  running : ∀ call p, s.running = some (call, p) → NoReadFails call →
    ∃ start, ReadsFrom call start ∧ start + call.reads.length = s.taken

theorem readPlaces_note (call : Call) (event : Event Socket) (mark : Nat) :
    readPlaces (call.note event mark).trace =
      readPlaces call.trace ++ (readOf event).toList.map fun _ => mark := by
  rw [Call.note, readPlaces, List.filterMap_append]
  cases message : readOf event <;> simp [readPlaces, message]

theorem reads_note (call : Call) (event : Event Socket) (mark : Nat) :
    (call.note event mark).reads = call.reads ++ (readOf event).toList := by
  rw [Call.reads, Call.note_events, List.filterMap_append]
  cases message : readOf event <;> simp [Call.reads, message]

theorem sequential_note {call : Call} {event : Event Socket} {mark start : Nat}
    (answers : Answers s event mark s') (fails : NoReadFails (call.note event mark))
    (reads : ReadsFrom call start) (taken : start + call.reads.length = s.taken) :
    ReadsFrom (call.note event mark) start ∧
      start + (call.note event mark).reads.length = s'.taken := by
  unfold ReadsFrom at reads ⊢
  rw [readPlaces_note, reads_note, reads]
  cases answers with
  | wrote => simpa [readOf] using taken
  | took =>
    simp only [readOf, Option.toList_some, List.map_cons, List.map_nil, List.length_append,
      List.length_singleton]
    refine ⟨?_, by omega⟩
    rw [List.range'_concat, ← taken, Nat.one_mul]
  | failed =>
    have last := fails ⟨.read, none⟩ (by simp [Call.note_events])
    exact absurd rfl last
  | @other op ans silent =>
    have none : readOf ⟨op, ans⟩ = none := by
      cases op <;> first | rfl | exact silent.elim
    simpa [none] using taken

theorem sequential_move (sequential : Sequential s) (move : Move peer s s') : Sequential s' := by
  obtain ⟨ended, running⟩ := sequential
  cases move with
  | arrive => exact ⟨ended, running⟩
  | call =>
    refine ⟨ended, ?_⟩
    intro call p same _
    cases same
    exact ⟨s.taken, rfl, rfl⟩
  | @answer s' call op ans mark next current answers =>
    obtain ⟨_, same, _⟩ := answers_kept answers
    rw [← same] at ended
    refine ⟨ended, ?_⟩
    intro call' p now fails
    cases now
    have before : NoReadFails call := by
      intro e member
      refine fails e ?_
      rw [Call.note_events]
      exact List.mem_append_left _ member
    obtain ⟨start, reads, taken⟩ := running call _ current before
    obtain ⟨reads', taken'⟩ := sequential_note answers fails reads taken
    exact ⟨start, reads', taken'⟩
  | @finish call channel result current =>
    refine ⟨?_, nofun⟩
    intro call' member fails
    rw [List.map_append] at member
    rcases List.mem_append.mp member with first | last
    · exact ended call' first fails
    · obtain rfl := List.mem_singleton.mp last
      obtain ⟨start, reads, _⟩ := running _ _ current fails
      exact ⟨start, reads⟩

theorem sequential_reached (reached : Reached peer s) : Sequential s := by
  induction reached with
  | refl => exact ⟨nofun, nofun⟩
  | tail _ move ih => exact sequential_move ih move

theorem readOf_eq_some {event : Event Socket} {message : Message} (read : readOf event = some message) :
    event = ⟨.read, some message⟩ := by
  obtain ⟨op, ans⟩ := event
  cases op with
  | read =>
    obtain rfl : ans = some message := read
    rfl
  | _ => cases read

theorem reads_prefix {arrived : List Message} {trace : List (Event Socket × Nat)} {start : Nat}
    (places : ∀ message place, (⟨.read, some message⟩, place) ∈ trace →
      arrived[place]? = some message)
    (reads : readPlaces trace = List.range' start ((trace.map Prod.fst).filterMap readOf).length) :
    (trace.map Prod.fst).filterMap readOf <+: arrived.drop start := by
  induction trace generalizing start with
  | nil => exact List.nil_prefix
  | cons entry trace ih =>
    obtain ⟨event, mark⟩ := entry
    have later message place (member : (⟨.read, some message⟩, place) ∈ trace) :=
      places message place (List.mem_cons_of_mem _ member)
    rw [readPlaces, List.filterMap_cons] at reads
    rw [List.map_cons, List.filterMap_cons] at reads ⊢
    cases read : readOf event with
    | none =>
      rw [read] at reads
      exact ih later reads
    | some message =>
      rw [read] at reads
      obtain rfl := readOf_eq_some read
      simp only [Option.map_some, List.length_cons, List.range'_succ, List.cons.injEq] at reads
      obtain ⟨rfl, onward⟩ := reads
      have there := places message mark List.mem_cons_self
      obtain ⟨inside, same⟩ := List.getElem?_eq_some_iff.mp there
      rw [List.drop_eq_getElem_cons inside, same]
      exact List.cons_prefix_cons.mpr ⟨rfl, ih later onward⟩

/-- What was read lies in one piece among what has arrived. -/
theorem reads_arrived (received : Received peer s) {call : Call} (member : call ∈ s.calls)
    {start : Nat} (reads : ReadsFrom call start) : call.reads <+: s.arrived.drop start :=
  reads_prefix (received.places call member) reads

/-! ### Browsers that answer in order -/

/-- The identifiers of the commands that calls have written. -/
def commandIds (calls : List Call) : List UInt64 :=
  calls.filterMap fun call => if call.writes = [] then none else call.id?

/-- Whatever arrives is an event or a reply, and the replies are to the commands, in order. -/
structure Orderly (s : Session) : Prop where
  messages : ∀ message ∈ s.arrived, IsEvent message ∨ ∃ id value, IsAnswer id value message
  inOrder : s.arrived.filterMap repliesTo <+: commandIds s.calls

/-- The reply to a call arrives in time: at a place behind where the call began to read, with no
more before it than a command reads, while no deadline and no operation on the socket fails. -/
structure AnsweredInTime (s : Session) (call : Call) (id : UInt64) (value : Json)
    (start place : Nat) : Prop where
  own : call.id? = some id
  wrote : call.writes ≠ []
  granted : ∀ e ∈ call.events, Granted call.deadlineAtMs e
  began : (readPlaces call.trace).head? = some start
  behind : start ≤ place
  reply : ∃ message, s.arrived[place]? = some message ∧ IsAnswer id value message
  few : place < start + maxCdpMessagesPerCommand
  fits : textBytes ((s.arrived.take (place + 1)).drop start) ≤ maxCdpMessageBytes

/-- Up to a place, the replies to just these calls have arrived. -/
def AllReplied (s : Session) (calls : List Call) (place : Nat) : Prop :=
  (s.arrived.take place).filterMap repliesTo = commandIds calls

theorem commandIds_append (first second : List Call) :
    commandIds (first ++ second) = commandIds first ++ commandIds second :=
  List.filterMap_append

theorem commandIds_single {call : Call} {id : UInt64} (own : call.id? = some id)
    (wrote : call.writes ≠ []) : commandIds [call] = [id] := by
  simp [commandIds, own, wrote]

theorem commandIds_nodup (ascending : Ascending s) : (commandIds s.calls).Nodup := by
  refine (ids_nodup ascending).sublist ?_
  induction s.calls with
  | nil => exact List.Sublist.refl _
  | cons call calls ih =>
    rw [commandIds, List.filterMap_cons, List.filterMap_cons]
    by_cases silent : call.writes = []
    · rw [if_pos silent]
      cases call.id? with
      | none => exact ih
      | some id => exact ih.cons id
    · rw [if_neg silent]
      cases call.id? with
      | none => exact ih
      | some id => exact ih.cons_cons id

/-- Of the messages that a call may read, all are events, or one is the first reply. -/
theorem first_reply {messages : List Message}
    (each : ∀ message ∈ messages, IsEvent message ∨ ∃ id value, IsAnswer id value message) :
    (∀ message ∈ messages, IsEvent message) ∨ ∃ pre own post id value,
      messages = pre ++ own :: post ∧ (∀ message ∈ pre, IsEvent message) ∧ IsAnswer id value own := by
  induction messages with
  | nil => exact .inl (List.forall_mem_nil _)
  | cons message messages ih =>
    obtain ⟨first, rest⟩ := List.forall_mem_cons.mp each
    rcases first with event | ⟨id, value, answer⟩
    · rcases ih rest with events | ⟨pre, own, post, id, value, rfl, events, answer⟩
      · exact .inl (List.forall_mem_cons.mpr ⟨event, events⟩)
      · exact .inr ⟨message :: pre, own, post, id, value, rfl,
          List.forall_mem_cons.mpr ⟨event, events⟩, answer⟩
    · exact .inr ⟨[], message, messages, id, value, rfl, List.forall_mem_nil _, answer⟩

theorem events_repliesTo {messages : List Message} (events : ∀ message ∈ messages, IsEvent message) :
    messages.filterMap repliesTo = [] :=
  List.filterMap_eq_nil_iff.mpr fun message member => event_repliesTo (events message member)

theorem prefix_before {α : Type} {first rest before after : List α} {a : α}
    (unique : (before ++ a :: after).Nodup) (part : first ++ a :: rest <+: before ++ a :: after) :
    first = before := by
  obtain ⟨more, whole⟩ := part
  rw [List.append_assoc, List.cons_append] at whole
  have apart := List.nodup_middle.mp unique
  have notMember := (List.nodup_cons.mp apart).1
  rw [List.mem_append, not_or] at notMember
  exact ((List.append_cons_inj_of_notMem notMember.1 notMember.2).mp whole.symm).1.symm

section Answer

variable {before after : List (Call × CallResult)} {call : Call} {result : CallResult} {id : UInt64}
  {value : Json} {start place : Nat}

theorem commandIds_split (ended : s.ended = before ++ (call, result) :: after)
    (own : call.id? = some id) (wrote : call.writes ≠ []) :
    ∃ later, commandIds s.calls = commandIds (before.map Prod.fst) ++ id :: later := by
  refine ⟨commandIds (after.map Prod.fst ++ s.running.toList.map Prod.fst), ?_⟩
  rw [Session.calls, ended, List.map_append, List.map_cons, List.append_assoc, List.cons_append,
    commandIds_append, ← List.singleton_append, commandIds_append, commandIds_single own wrote]
  rfl

theorem own_fresh (reached : Reached peer s) (ended : s.ended = before ++ (call, result) :: after)
    (own : call.id? = some id) (wrote : call.writes ≠ []) : id ∉ commandIds (before.map Prod.fst) := by
  obtain ⟨later, calls⟩ := commandIds_split ended own wrote
  have unique := commandIds_nodup (ascending_reached reached)
  rw [calls] at unique
  have fresh := (List.nodup_cons.mp (List.nodup_middle.mp unique)).1
  exact fun member => fresh (List.mem_append_left _ member)

/-- Before the own reply come the replies to the calls before. -/
theorem replies_before (reached : Reached peer s) (orderly : Orderly s)
    (ended : s.ended = before ++ (call, result) :: after)
    (answered : AnsweredInTime s call id value start place) :
    AllReplied s (before.map Prod.fst) place := by
  obtain ⟨message, there, answer⟩ := answered.reply
  obtain ⟨inside, same⟩ := List.getElem?_eq_some_iff.mp there
  have unique := commandIds_nodup (ascending_reached reached)
  have inOrder := orderly.inOrder
  have arrived : s.arrived = s.arrived.take place ++ message :: s.arrived.drop (place + 1) := by
    rw [← same, List.getElem_cons_drop, List.take_append_drop]
  obtain ⟨later, calls⟩ := commandIds_split ended answered.own answered.wrote
  rw [calls] at unique inOrder
  rw [arrived, List.filterMap_append, List.filterMap_cons_some (answer_repliesTo answer)] at inOrder
  exact prefix_before unique inOrder

/-- No read of it failed, so that it read on from where it began. -/
theorem answered_readsFrom (reached : Reached peer s) (listed : (call, result) ∈ s.ended)
    (answered : AnsweredInTime s call id value start place) : ReadsFrom call start := by
  have fails : NoReadFails call := by
    rintro e member rfl
    exact answered.granted _ member rfl
  have ended : call ∈ s.ended.map Prod.fst := List.mem_map_of_mem (f := Prod.fst) listed
  obtain ⟨start', reads⟩ := (sequential_reached reached).ended call ended fails
  have began := answered.began
  rw [reads, List.head?_range'] at began
  split at began
  · cases began
  · cases began
    exact reads

theorem textBytes_append (first second : List Message) :
    textBytes (first ++ second) = textBytes first + textBytes second := by
  simp [textBytes]

theorem textBytes_part {first second : List Message} (part : first <+: second) :
    textBytes first ≤ textBytes second := by
  obtain ⟨rest, rfl⟩ := part
  rw [textBytes_append]
  omega

/-- What has arrived, seen from where a call begins to read and from the reply to it. -/
structure Between (s : Session) (start place : Nat) (own : Message) (mid : List Message) : Prop where
  taken : s.arrived.take place = s.arrived.take start ++ mid
  unread : s.arrived.drop start = mid ++ own :: s.arrived.drop (place + 1)
  whole : (s.arrived.take (place + 1)).drop start = mid ++ [own]
  length : mid.length = place - start

theorem between (behind : start ≤ place) {own : Message} (there : s.arrived[place]? = some own) :
    Between s start place own ((s.arrived.take place).drop start) := by
  obtain ⟨inside, same⟩ := List.getElem?_eq_some_iff.mp there
  have length : (s.arrived.take place).length = place := List.length_take_of_le (Nat.le_of_lt inside)
  have arrived : s.arrived = s.arrived.take place ++ own :: s.arrived.drop (place + 1) := by
    rw [← same, List.getElem_cons_drop, List.take_append_drop]
  refine ⟨?_, ?_, ?_, ?_⟩
  · conv_lhs => rw [← List.take_append_drop start (s.arrived.take place)]
    rw [List.take_take, Nat.min_eq_left behind]
  · conv_lhs => rw [arrived]
    exact List.drop_append_of_le_length (by omega)
  · rw [List.take_succ_eq_append_getElem inside, same]
    exact List.drop_append_of_le_length (by omega)
  · rw [List.length_drop, length]

/-- **Late replies**: a command whose reply arrives in time returns it exactly if the replies to
all commands before had been read or lost when it began to read. If not, it fails, and the reply
to it is left behind in turn. -/
theorem late_replies (reached : Reached peer s) (orderly : Orderly s)
    (ended : s.ended = before ++ (call, result) :: after)
    (answered : AnsweredInTime s call id value start place) :
    (result = .ok value ↔ AllReplied s (before.map Prod.fst) start) ∧
    (¬ AllReplied s (before.map Prod.fst) start → result = .error .afterSend ∧
      ¬ AllReplied s (before.map Prod.fst ++ [call]) (start + call.reads.length)) := by
  have earlier := replies_before reached orderly ended answered
  obtain ⟨own, there, answer⟩ := answered.reply
  have cut := between answered.behind there
  generalize (s.arrived.take place).drop start = mid at cut
  have listed : (call, result) ∈ s.ended := by simp [ended]
  have member : call ∈ s.calls := List.mem_append_left _ (List.mem_map_of_mem (f := Prod.fst) listed)
  obtain ⟨channel, run⟩ := (ascending_reached reached).history call result listed
  have reads := reads_arrived (received_reached reached) member
    (answered_readsFrom reached listed answered)
  rw [cut.unread] at reads
  have fits := answered.fits
  rw [cut.whole] at fits
  have short : mid.length < maxCdpMessagesPerCommand := by
    have few := answered.few
    have behind := answered.behind
    rw [cut.length]
    omega
  unfold AllReplied at earlier ⊢
  rw [cut.taken, List.filterMap_append] at earlier
  have each : ∀ message ∈ mid, IsEvent message ∨ ∃ id value, IsAnswer id value message := by
    intro message member
    refine orderly.messages message (List.mem_of_mem_drop (i := start) ?_)
    rw [cut.unread]
    exact List.mem_append_left _ member
  rcases first_reply each with events | ⟨pre, first, post, id', value', rfl, events, answer'⟩
  · -- Only events come before the reply.
    rw [events_repliesTo events, List.append_nil] at earlier
    obtain ⟨_, returned⟩ := command_answered run answered.own answered.granted answered.wrote reads
      events answer short fits
    rw [if_pos rfl] at returned
    exact ⟨⟨fun _ => earlier, fun _ => returned⟩, fun other => absurd earlier other⟩
  · -- The reply to a command before comes first.
    rw [List.filterMap_append, events_repliesTo events, List.nil_append,
      List.filterMap_cons_some (answer_repliesTo answer')] at earlier
    have foreign : id' ≠ id := by
      rintro rfl
      refine own_fresh reached ended answered.own answered.wrote ?_
      rw [← earlier]
      exact List.mem_append_right _ List.mem_cons_self
    have late : (s.arrived.take start).filterMap repliesTo ≠ commandIds (before.map Prod.fst) := by
      intro same
      have lengths := congrArg List.length (earlier.trans same.symm)
      simp at lengths
    rw [List.append_assoc, List.cons_append] at reads
    have few : pre.length < maxCdpMessagesPerCommand := by
      rw [List.length_append] at short
      omega
    have small : textBytes (pre ++ [first]) ≤ maxCdpMessageBytes := by
      refine (textBytes_part ?_).trans fits
      exact ⟨post ++ [own], by simp⟩
    obtain ⟨read, returned⟩ := command_answered run answered.own answered.granted answered.wrote
      reads events answer' few small
    rw [if_neg foreign] at returned
    refine ⟨⟨fun ok => ?_, fun same => absurd same late⟩, fun _ => ⟨returned, ?_⟩⟩
    · rw [returned] at ok
      cases ok
    · -- One reply more has been read, and one command more was written.
      have length : call.reads.length = pre.length + 1 := by
        rw [Call.reads, read, List.length_append, List.length_singleton]
      have next : (s.arrived.drop start).take (pre.length + 1) = pre ++ [first] := by
        rw [cut.unread, List.append_assoc, List.cons_append, List.take_append]
        simp
      rw [List.take_add, length, next, List.filterMap_append, List.filterMap_append,
        events_repliesTo events, commandIds_append, commandIds_single answered.own answered.wrote,
        ← earlier]
      intro same
      have lengths := congrArg List.length same
      simp [answer_repliesTo answer'] at lengths

end Answer

/-! ### A stale reply -/

/-- A reply with an empty result. -/
def replyValue (id : UInt64) : Json := .obj [("id", ofUInt64 id), ("result", .obj [])]

def replyText (id : UInt64) : String := .ofList (replyValue id).print

theorem fromStr_replyText (id : UInt64) : fromStr (replyText id) = some (replyValue id) := by
  have shallow : (replyValue id).depth ≤ recursionLimit := by
    simp [replyValue, depth, depthMembers, ofUInt64, recursionLimit]
  have same : mapped (replyValue id) = replyValue id := by
    simp [replyValue, mapped, mappedMembers, keepLast, ofUInt64]
  rw [fromStr, replyText, String.toList_ofList, parse_print _ _ shallow, Option.map_some, same]

theorem isReply_replyText (id : UInt64) : IsReply id (.obj []) (replyText id) := by
  have bears : ((replyValue id).get? "id").bind asU64 = some id := by
    simp [replyValue, get?, asU64, ofUInt64]
  exact ⟨replyValue id, fromStr_replyText id, bears, rfl, rfl⟩

theorem repliesTo_replyText (id : UInt64) : repliesTo (.text (replyText id)) = some id :=
  @answer_repliesTo id (.obj []) (.text (replyText id)) (isReply_replyText id)

theorem honest_replyText {heard : List String} {id : UInt64}
    (sent : requestOf id "Page.enable" (.obj []) ∈ heard) : Honest heard (.text (replyText id)) := by
  intro id' bears
  obtain rfl := Option.some.inj ((repliesTo_replyText id).symm.trans bears)
  exact ⟨_, sent, _, _, rfl⟩

/-- The clock and the timeouts, before the socket is used. -/
def timely : List (Event Socket × Nat) :=
  [(⟨.nowMs, (0 : Int64)⟩, 0), (⟨.setReadTimeout 1000, true⟩, 0), (⟨.setWriteTimeout 1000, true⟩, 0)]

/-- What a call does until it reads. -/
def written (id : UInt64) (mark : Nat) : List (Event Socket × Nat) :=
  timely ++ [(⟨.send (requestOf id "Page.enable" (.obj [])), true⟩, mark)] ++ timely

/-- A call that reads one message, or none. -/
def shortCall (before id : UInt64) (mark : Nat) (message : Option Message) (place : Nat) : Call :=
  ⟨⟨before⟩, "Page.enable", .obj [], 1000, written id mark ++ [(⟨.read, message⟩, place)]⟩

/-- A call gave up, and the next read the reply to it. -/
def staleSession : Session where
  channel := ⟨2⟩
  heard := [requestOf 1 "Page.enable" (.obj []), requestOf 2 "Page.enable" (.obj [])]
  arrived := [.text (replyText 1), .text (replyText 2)]
  taken := 1
  running := none
  ended := [(shortCall 0 1 0 none 0, .error .afterSend),
    (shortCall 1 2 0 (some (.text (replyText 1))) 0, .error .afterSend)]

theorem answer_silent {call : Call} {op : SocketOp} {ans : Socket.Ans op}
    {next : Socket.Ans op → Prog Socket (TungsteniteChannel × CallResult)}
    (reached : Reached peer s) (silent : Silent op) (running : s.running = some (call, .ask op next)) :
    Reached peer { s with running := some (call.note ⟨op, ans⟩ 0, next ans) } :=
  reached.tail (.answer running (.other silent))

/-- A command is written, and the call is about to read. -/
theorem written_reached {id : UInt64} (reached : Reached peer s) (idle : s.running = none)
    (own : s.channel.commandId = some id)
    (small : (requestOf id "Page.enable" (.obj [])).utf8ByteSize ≤ maxCdpMessageBytes) :
    ∃ next, Reached peer { s with
        heard := s.heard ++ [requestOf id "Page.enable" (.obj [])]
        running := some (⟨s.channel, "Page.enable", .obj [], 1000, written id s.arrived.length⟩,
          .ask .read next) } ∧
      next none = .ret (⟨id⟩, .error .afterSend) ∧
      ∀ content response, content.utf8ByteSize ≤ maxCdpMessageBytes →
        fromStr content = some response → cdpCommandResult response id = .error .afterSend →
        next (some (.text content)) = .ret (⟨id⟩, .error .afterSend) := by
  have called := reached.tail (@Move.call peer s "Page.enable" (.obj []) 1000 idle)
  unfold TungsteniteChannel.command at called
  rw [own] at called
  simp only [sendCommand, if_neg (Nat.not_lt.mpr small)] at called
  have now := @answer_silent _ _ _ .nowMs (0 : Int64) _ called trivial rfl
  have reading := @answer_silent _ _ _ (.setReadTimeout 1000) true _ now trivial rfl
  have timely := @answer_silent _ _ _ (.setWriteTimeout 1000) true _ reading trivial rfl
  have wrote := timely.tail
    (@Move.answer _ _ _ _ (.send (requestOf id "Page.enable" (.obj []))) true _ _ rfl .wrote)
  have now := @answer_silent _ _ _ .nowMs (0 : Int64) _ wrote trivial rfl
  have reading := @answer_silent _ _ _ (.setReadTimeout 1000) true _ now trivial rfl
  have timely := @answer_silent _ _ _ (.setWriteTimeout 1000) true _ reading trivial rfl
  refine ⟨_, timely, rfl, ?_⟩
  intro content response short parsed failed
  simp only [Prog.bind, ExceptT.bindCont, Function.comp_apply, Nat.zero_add, short, if_true, parsed,
      failed]
  rfl

theorem staleSession_reached : Reached Honest staleSession := by
  have start : Reached Honest init := .refl
  -- The first command is written, and its reply is not there in time.
  have first : init.channel.commandId = some 1 := by decide
  obtain ⟨next, wrote, lost, _⟩ := written_reached start rfl first (by decide +kernel)
  have gone := wrote.tail (@Move.answer _ _ _ _ .read none _ _ rfl (.failed (Nat.le_refl 0)))
  rw [lost] at gone
  have gaveUp : Reached Honest ⟨⟨1⟩, [requestOf 1 "Page.enable" (.obj [])], [], 0, none,
      [(shortCall 0 1 0 none 0, .error .afterSend)]⟩ := gone.tail (.finish rfl)
  -- The second is written, both replies arrive, and the first is read.
  have second : (TungsteniteChannel.mk 1).commandId = some 2 := by decide
  obtain ⟨next, wrote, _, foreign⟩ := @written_reached _ _ 2 gaveUp rfl second (by decide +kernel)
  have late := wrote.tail (@Move.arrive Honest _ (.text (replyText 1))
    (honest_replyText List.mem_cons_self))
  have own := late.tail (@Move.arrive Honest _ (.text (replyText 2))
    (honest_replyText (List.mem_cons_of_mem _ List.mem_cons_self)))
  have took := own.tail
    (@Move.answer _ _ _ _ .read (some (.text (replyText 1))) _ _ rfl (.took rfl))
  obtain ⟨response, parsed, bears, noError, result⟩ := isReply_replyText 1
  have refused := (cdpCommandResult_reply 2 bears noError result).trans (if_neg (by decide))
  rw [foreign (replyText 1) response (by decide +kernel) parsed refused] at took
  exact took.tail (@Move.finish Honest _ _ ⟨2⟩ (.error .afterSend) rfl)

theorem orderly_staleSession : Orderly staleSession := by
  have sent : commandIds staleSession.calls = [1, 2] := rfl
  constructor
  · intro message member
    have replies : message ∈ [Message.text (replyText 1), .text (replyText 2)] := member
    rcases List.mem_pair.mp replies with rfl | rfl
    · exact .inr ⟨1, _, isReply_replyText 1⟩
    · exact .inr ⟨2, _, isReply_replyText 2⟩
  · have ids : staleSession.arrived.filterMap repliesTo = [1, 2] := by
      simp [staleSession, repliesTo_replyText]
    rw [ids, sent]

theorem answeredInTime_staleSession :
    AnsweredInTime staleSession (shortCall 1 2 0 (some (.text (replyText 1))) 0) 2 (.obj []) 0 1 where
  own := rfl
  wrote := by simp [shortCall, written, Call.writes, Call.events, timely, sentOf]
  granted := by
    have events : Call.events (shortCall 1 2 0 (some (.text (replyText 1))) 0) =
      timely.map Prod.fst ++ ⟨.send (requestOf 2 "Page.enable" (.obj [])), true⟩ ::
        (timely.map Prod.fst ++ [⟨.read, some (.text (replyText 1))⟩]) := rfl
    have before : ∀ e ∈ timely.map Prod.fst, Granted 1000 e := by
      have early : 0 < saturatingSub 1000 0 := by decide
      simp [timely, Granted, early]
    rw [events]
    refine List.forall_mem_append.mpr ⟨before, List.forall_mem_cons.mpr ⟨rfl, ?_⟩⟩
    exact List.forall_mem_append.mpr ⟨before, by simp [Granted]⟩
  began := rfl
  behind := Nat.zero_le _
  reply := ⟨_, rfl, isReply_replyText 2⟩
  few := by decide
  fits := by decide +kernel

/-- A command whose reply arrives in time may fail: the reply to a command before was late. -/
theorem late_replies_poison : ¬ ∀ (s : Session) (before after : List (Call × CallResult))
    (call : Call) (result : CallResult) (id : UInt64) (value : Json) (start place : Nat),
    Reached Honest s → Orderly s → s.arrived.filterMap repliesTo = commandIds s.calls →
    s.ended = before ++ (call, result) :: after →
    (∃ earlier, (earlier, Except.error .afterSend) ∈ before ∧ ⟨.read, none⟩ ∈ earlier.events) →
    AnsweredInTime s call id value start place → result = .ok value := by
  intro always
  have all : staleSession.arrived.filterMap repliesTo = commandIds staleSession.calls := by
    simp only [staleSession, List.filterMap_cons, repliesTo_replyText, List.filterMap_nil]
    rfl
  have returned := always staleSession [(shortCall 0 1 0 none 0, .error .afterSend)] [] _ _ _ _ _ _
    staleSession_reached orderly_staleSession all rfl
    ⟨_, List.mem_singleton.mpr rfl, by simp [shortCall, Call.events]⟩ answeredInTime_staleSession
  cases returned

theorem late_replies_stale : ¬ AllReplied staleSession
    [shortCall 0 1 0 none 0, shortCall 1 2 0 (some (.text (replyText 1))) 0] 1 := by
  have late : ¬ AllReplied staleSession [shortCall 0 1 0 none 0] 0 := by
    intro same
    cases same
  exact ((@late_replies Honest staleSession [(shortCall 0 1 0 none 0, .error .afterSend)] [] _ _ _ _
    _ _ staleSession_reached orderly_staleSession rfl answeredInTime_staleSession).2 late).2

end Session

end Praefectus.Cdp
