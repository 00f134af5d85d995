import Praefectus.Observe.CdpChannel
import Praefectus.Program.Refusals

/-!
# What a command does on the socket

A call writes its own command and nothing else, at most once, and reads only afterwards. Its
result is that of a message with its own identifier, the last one that it reads.
-/

namespace Praefectus.Cdp

open Prog Json

/-! ### What a call does -/

def sentOf : Event Socket → Option String
  | ⟨.send text, _⟩ => some text
  | _ => none

def readOf : Event Socket → Option Message
  | ⟨.read, message⟩ => message
  | _ => none

def Message.bytes : Message → Nat
  | .text content => content.utf8ByteSize
  | _ => 0

/-- The bytes of all texts among the messages. -/
def textBytes (messages : List Message) : Nat := (messages.map Message.bytes).sum

/-- The command that a text replies to, as far as its identifier tells. -/
def repliesTo (message : Message) : Option UInt64 :=
  match message with
  | .text text => (fromStr text).bind fun response => (response.get? "id").bind asU64
  | _ => none

/-- The text is a reply to the command, without an error, and with the result. -/
def IsReply (id : UInt64) (result : Json) (text : String) : Prop :=
  ∃ response, fromStr text = some response ∧ (response.get? "id").bind asU64 = some id ∧
    response.get? "error" = none ∧ response.get? "result" = some result

theorem cdpCommandResult_ok {response result : Json} {id : UInt64}
    (ok : cdpCommandResult response id = .ok (some result)) :
    (response.get? "id").bind asU64 = some id ∧ response.get? "error" = none ∧
      response.get? "result" = some result := by
  unfold cdpCommandResult at ok
  split at ok
  next id' found =>
    split at ok
    next own =>
      simp only [Bool.and_eq_true, decide_eq_true_eq, Option.isNone_iff_eq_none] at own
      obtain ⟨rfl, noError⟩ := own
      split at ok
      next found' =>
        cases ok
        exact ⟨found, noError, found'⟩
      next => cases ok
    next => cases ok
  next =>
    split at ok
    next => cases ok
    next => cases ok

theorem cdpCommandResult_error {response : Json} {id : UInt64} {e : CdpChannelError}
    (failed : cdpCommandResult response id = .error e) : e = .afterSend := by
  unfold cdpCommandResult at failed
  split at failed
  · split at failed
    · split at failed <;> cases failed
      rfl
    · cases failed
      rfl
  · split at failed <;> cases failed
    rfl

/-- Setting the deadline neither writes nor reads. -/
def Silent : SocketOp → Prop
  | .send _ => False
  | .read => False
  | _ => True

theorem setStreamDeadline_silent (deadlineAtMs : Int64) : (setStreamDeadline deadlineAtMs).Only Silent := by
  refine only_bind ⟨trivial, fun _ => trivial⟩ fun now => ?_
  dsimp only
  split
  · trivial
  · refine only_bind ⟨trivial, fun _ => trivial⟩ fun accepted => ?_
    split
    · exact ⟨trivial, fun _ => trivial⟩
    · trivial

theorem silent_events {trace : List (Event Socket)} (silent : ∀ e ∈ trace, Silent e.op) :
    trace.filterMap sentOf = [] ∧ trace.filterMap readOf = [] := by
  constructor
  · refine List.filterMap_eq_nil_iff.mpr fun e member => ?_
    have quiet := silent e member
    obtain ⟨op, ans⟩ := e
    cases op <;> first | rfl | exact quiet.elim
  · refine List.filterMap_eq_nil_iff.mpr fun e member => ?_
    have quiet := silent e member
    obtain ⟨op, ans⟩ := e
    cases op <;> first | rfl | exact quiet.elim

/-- What the loop over the messages has done when it ends. -/
structure Received (id : UInt64) (rounds receivedBytes : Nat) (trace : List (Event Socket))
    (result : Except CdpChannelError Json) : Prop where
  wroteNothing : trace.filterMap sentOf = []
  few : (trace.filterMap readOf).length ≤ rounds
  accepted : receivedBytes + textBytes (trace.filterMap readOf).dropLast ≤ maxCdpMessageBytes
  refused : maxCdpMessageBytes < receivedBytes + textBytes (trace.filterMap readOf) →
    result = .error .afterSend
  afterSend : ∀ e, result = .error e → e = .afterSend
  reply : ∀ value, result = .ok value → ∃ before text,
    trace = before ++ [⟨.read, some (.text text)⟩] ∧ IsReply id value text

theorem received_failed {id : UInt64} {rounds receivedBytes : Nat} {trace : List (Event Socket)}
    (wroteNothing : trace.filterMap sentOf = []) (few : (trace.filterMap readOf).length ≤ rounds)
    (one : (trace.filterMap readOf).length ≤ 1) (within : receivedBytes ≤ maxCdpMessageBytes) :
    Received id rounds receivedBytes trace (.error .afterSend) where
  wroteNothing := wroteNothing
  few := few
  accepted := by
    have none : (trace.filterMap readOf).dropLast = [] := by
      rw [← List.length_eq_zero_iff, List.length_dropLast]
      omega
    simpa [none, textBytes] using within
  refused _ := rfl
  afterSend e same := by
    cases same
    rfl
  reply _ same := by cases same

/-- One more message was read before. -/
theorem received_more {id : UInt64} {rounds receivedBytes : Nat} {first rest : List (Event Socket)}
    {message : Message} {result : Except CdpChannelError Json}
    (silent : ∀ e ∈ first, Silent e.op) (within : receivedBytes ≤ maxCdpMessageBytes)
    (received : Received id rounds (receivedBytes + message.bytes) rest result) :
    Received id (rounds + 1) receivedBytes (first ++ ⟨.read, some message⟩ :: rest) result := by
  obtain ⟨wroteFirst, readFirst⟩ := silent_events silent
  have reads : (first ++ ⟨.read, some message⟩ :: rest).filterMap readOf =
      message :: rest.filterMap readOf := by
    rw [List.filterMap_append, readFirst]
    rfl
  refine ⟨?_, ?_, ?_, ?_, received.afterSend, ?_⟩
  · rw [List.filterMap_append, wroteFirst]
    exact received.wroteNothing
  · rw [reads, List.length_cons]
    exact Nat.succ_le_succ received.few
  · rw [reads]
    cases others : rest.filterMap readOf with
    | nil => simpa [textBytes] using within
    | cons next others' =>
      have accepted := received.accepted
      rw [others] at accepted
      rw [List.dropLast_cons_cons]
      simp only [textBytes, List.map_cons, List.sum_cons] at accepted ⊢
      omega
  · intro more
    refine received.refused ?_
    rw [reads] at more
    simp only [textBytes, List.map_cons, List.sum_cons] at more ⊢
    omega
  · intro value same
    obtain ⟨before, text, rfl, reply⟩ := received.reply value same
    exact ⟨first ++ ⟨.read, some message⟩ :: before, text, by simp, reply⟩

/-- The reply was read. -/
theorem received_found {id : UInt64} {rounds receivedBytes : Nat} {first : List (Event Socket)}
    {content : String} {value : Json} (silent : ∀ e ∈ first, Silent e.op)
    (within : receivedBytes ≤ maxCdpMessageBytes)
    (small : receivedBytes + content.utf8ByteSize ≤ maxCdpMessageBytes)
    (reply : IsReply id value content) :
    Received id (rounds + 1) receivedBytes (first ++ [⟨.read, some (.text content)⟩]) (.ok value) := by
  obtain ⟨wroteFirst, readFirst⟩ := silent_events silent
  have reads : (first ++ [(⟨.read, some (.text content)⟩ : Event Socket)]).filterMap readOf =
      [.text content] := by
    rw [List.filterMap_append, readFirst]
    rfl
  refine ⟨?_, ?_, ?_, ?_, nofun, ?_⟩
  · rw [List.filterMap_append, wroteFirst]
    rfl
  · rw [reads]
    exact Nat.le_add_left 1 rounds
  · rw [reads]
    exact within
  · intro exceeded
    rw [reads] at exceeded
    exact absurd small (Nat.not_le.mpr exceeded)
  · intro value' same
    obtain rfl := Except.ok.inj same
    exact ⟨first, content, rfl, reply⟩

theorem receive_received {id : UInt64} {deadlineAtMs : Int64} {rounds receivedBytes : Nat}
    {trace : List (Event Socket)} {result : Except CdpChannelError Json}
    (within : receivedBytes ≤ maxCdpMessageBytes)
    (run : Steps (receive id deadlineAtMs rounds receivedBytes).run trace (.ret result)) :
    Received id rounds receivedBytes trace result := by
  induction rounds generalizing receivedBytes trace with
  | zero =>
    obtain ⟨rfl, rfl⟩ := steps_ret.mp run
    exact received_failed rfl (Nat.le_refl 0) (Nat.zero_le 1) within
  | succ rounds ih =>
    rw [receive] at run
    obtain ⟨first, timely, rest, rfl, set, run⟩ := steps_after run
    have silent := only_steps (setStreamDeadline_silent deadlineAtMs) set
    obtain ⟨wroteFirst, readFirst⟩ := silent_events silent
    cases timely with
    | false =>
      obtain ⟨rfl, rfl⟩ := steps_ret.mp run
      rw [List.append_nil]
      exact received_failed wroteFirst (by simp [readFirst]) (by simp [readFirst]) within
    | true =>
      rw [if_pos rfl] at run
      obtain ⟨reading, message, rest, rfl, asked, after⟩ := steps_after run
      obtain rfl := steps_ask.mp asked
      have reads : (first ++ [(⟨.read, message⟩ : Event Socket)]).filterMap readOf = message.toList := by
        rw [List.filterMap_append, readFirst]
        cases message <;> rfl
      have one : message.toList.length ≤ 1 := by cases message <;> simp
      have failed (after : Steps (throw .afterSend : ChannelM Json).run rest (.ret result)) :
          Received id (rounds + 1) receivedBytes (first ++ [⟨.read, message⟩] ++ rest) result := by
        obtain ⟨rfl, rfl⟩ := steps_ret.mp after
        rw [List.append_nil]
        refine received_failed ?_ ?_ ?_ within
        · simp [List.filterMap_append, wroteFirst, sentOf]
        · exact (reads ▸ one).trans (Nat.le_add_left 1 rounds)
        · exact reads ▸ one
      rw [← List.append_assoc]
      cases message with
      | none => exact failed after
      | some message =>
        have more {message : Message}
            (received : Received id rounds (receivedBytes + message.bytes) rest result) :=
          received_more silent within received
        cases message with
        | text content =>
          dsimp only at after
          by_cases small : receivedBytes + content.utf8ByteSize ≤ maxCdpMessageBytes
          · rw [if_pos small] at after
            cases parsed : fromStr content with
            | none =>
              rw [parsed] at after
              exact failed after
            | some response =>
              rw [parsed] at after
              dsimp only at after
              cases answer : cdpCommandResult response id with
              | error e =>
                obtain rfl := cdpCommandResult_error answer
                rw [answer] at after
                exact failed after
              | ok found =>
                rw [answer] at after
                cases found with
                | none =>
                  rw [List.append_assoc]
                  exact more (ih small after)
                | some value =>
                  obtain ⟨rfl, rfl⟩ := steps_ret.mp after
                  obtain ⟨own, noError, found⟩ := cdpCommandResult_ok answer
                  rw [List.append_nil]
                  exact received_found silent within small ⟨response, parsed, own, noError, found⟩
          · rw [if_neg small] at after
            exact failed after
        | ping | pong =>
          rw [List.append_assoc]
          exact more (ih within after)
        | _ => exact failed after

/-- What a call has done when it ends, if it has an identifier. -/
structure Commanded (id : UInt64) (method : String) (parameters : Json)
    (trace : List (Event Socket)) (result : Except CdpChannelError Json) : Prop where
  wrote : trace.filterMap sentOf = [] ∨ trace.filterMap sentOf = [requestOf id method parameters]
  beforeSend : result = .error .beforeSend → trace.filterMap sentOf = []
  few : (trace.filterMap readOf).length ≤ maxCdpMessagesPerCommand
  accepted : textBytes (trace.filterMap readOf).dropLast ≤ maxCdpMessageBytes
  refused : maxCdpMessageBytes < textBytes (trace.filterMap readOf) → result = .error .afterSend
  reply : ∀ value, result = .ok value → ∃ before between text,
    trace = before ++ ⟨.send (requestOf id method parameters), true⟩ :: between ++
      [⟨.read, some (.text text)⟩] ∧ IsReply id value text

/-- A call that did not come to read anything. -/
theorem commanded_unread {id : UInt64} {method : String} {parameters : Json}
    {trace : List (Event Socket)} {e : CdpChannelError}
    (wrote : trace.filterMap sentOf = [] ∨ trace.filterMap sentOf = [requestOf id method parameters])
    (beforeSend : e = .beforeSend → trace.filterMap sentOf = [])
    (unread : trace.filterMap readOf = []) :
    Commanded id method parameters trace (.error e) where
  wrote := wrote
  beforeSend same := beforeSend (Except.error.inj same)
  few := by simp [unread]
  accepted := by simp [unread, textBytes]
  refused more := by simp [unread, textBytes] at more
  reply _ same := by cases same

theorem sendCommand_commanded {id : UInt64} {method : String} {parameters : Json}
    {deadlineAtMs : Int64} {trace : List (Event Socket)} {result : Except CdpChannelError Json}
    (run : Steps (sendCommand id method parameters deadlineAtMs).run trace (.ret result)) :
    Commanded id method parameters trace result := by
  rw [sendCommand] at run
  obtain ⟨first, timely, rest, rfl, set, after⟩ := steps_after run
  have silent := only_steps (setStreamDeadline_silent deadlineAtMs) set
  obtain ⟨wroteFirst, readFirst⟩ := silent_events silent
  cases timely with
  | false =>
    obtain ⟨rfl, rfl⟩ := steps_ret.mp after
    rw [List.append_nil]
    exact commanded_unread (.inl wroteFirst) (fun _ => wroteFirst) readFirst
  | true =>
    rw [if_pos rfl] at after
    dsimp only at after
    by_cases large : (requestOf id method parameters).utf8ByteSize > maxCdpMessageBytes
    · rw [if_pos large] at after
      obtain ⟨rfl, rfl⟩ := steps_ret.mp after
      rw [List.append_nil]
      exact commanded_unread (.inl wroteFirst) (fun _ => wroteFirst) readFirst
    rw [if_neg large] at after
    obtain ⟨writing, written, rest, rfl, asked, ending⟩ := steps_after after
    obtain rfl := steps_ask.mp asked
    have wrote (rest : List (Event Socket)) (nothing : rest.filterMap sentOf = []) :
        (first ++ (⟨.send (requestOf id method parameters), written⟩ :: rest)).filterMap sentOf =
          [requestOf id method parameters] := by
      rw [List.filterMap_append, wroteFirst, List.filterMap_cons]
      simp [sentOf, nothing]
    cases written with
    | false =>
      obtain ⟨rfl, rfl⟩ := steps_ret.mp ending
      refine commanded_unread (.inr (wrote [] rfl)) nofun ?_
      rw [List.append_nil, List.filterMap_append, readFirst]
      rfl
    | true =>
      have received := receive_received (Nat.zero_le _) ending
      have reads : (first ++ ([(⟨.send (requestOf id method parameters), true⟩ : Event Socket)] ++
          rest)).filterMap readOf = rest.filterMap readOf := by
        rw [List.filterMap_append, readFirst]
        rfl
      refine ⟨.inr (wrote rest received.wroteNothing), ?_, ?_, ?_, ?_, ?_⟩
      · intro before
        cases received.afterSend _ before
      · rw [reads]
        exact received.few
      · rw [reads]
        simpa using received.accepted
      · rw [reads]
        simpa using received.refused
      · intro value ok
        obtain ⟨between, text, rfl, reply⟩ := received.reply value ok
        exact ⟨first, between, text, by simp, reply⟩

theorem command_ended {channel channel' : TungsteniteChannel} {method : String} {parameters : Json}
    {deadlineAtMs : Int64} {trace : List (Event Socket)} {result : Except CdpChannelError Json}
    (run : Steps (channel.command method parameters deadlineAtMs) trace (.ret (channel', result))) :
    (channel.commandId = none ∧ trace = [] ∧ channel' = channel ∧ result = .error .beforeSend) ∨
      ∃ id, channel.commandId = some id ∧ channel'.nextId = id ∧
        Commanded id method parameters trace result := by
  unfold TungsteniteChannel.command at run
  cases next : channel.commandId with
  | none =>
    rw [next] at run
    obtain ⟨rfl, same⟩ := steps_ret.mp run
    cases same
    exact .inl ⟨rfl, rfl, rfl, rfl⟩
  | some id =>
    rw [next] at run
    obtain ⟨first, _, rest, rfl, whole, run⟩ := steps_bind.mp run
    obtain ⟨rfl, same⟩ := steps_ret.mp run
    cases same
    rw [List.append_nil]
    exact .inr ⟨id, rfl, rfl, sendCommand_commanded whole⟩

/-- Only the command of the call is written. -/
def Own (channel : TungsteniteChannel) (method : String) (parameters : Json) (op : SocketOp) : Prop :=
  ∀ text, op = .send text → ∃ id, channel.commandId = some id ∧ text = requestOf id method parameters

theorem own_silent {channel : TungsteniteChannel} {method : String} {parameters : Json}
    (op : SocketOp) (silent : Silent op) : Own channel method parameters op := by
  rintro text rfl
  exact silent.elim

theorem receive_own {channel : TungsteniteChannel} {method : String} {parameters : Json} (id : UInt64)
    (deadlineAtMs : Int64) (rounds receivedBytes : Nat) :
    (receive id deadlineAtMs rounds receivedBytes).run.Only (Own channel method parameters) := by
  induction rounds generalizing receivedBytes with
  | zero => trivial
  | succ rounds ih =>
    rw [receive]
    refine only_try (only_lift (only_mono (setStreamDeadline_silent deadlineAtMs) own_silent)) ?_
    intro timely
    split
    · refine only_try (only_lift ⟨nofun, fun _ => trivial⟩) fun message => ?_
      split
      · dsimp only
        split
        · split
          · split
            · trivial
            · exact ih _
            · trivial
          · trivial
        · trivial
      · exact ih _
      · exact ih _
      · trivial
    · trivial

theorem command_own (channel : TungsteniteChannel) (method : String) (parameters : Json)
    (deadlineAtMs : Int64) :
    (channel.command method parameters deadlineAtMs).Only (Own channel method parameters) := by
  unfold TungsteniteChannel.command
  cases next : channel.commandId with
  | none => trivial
  | some id =>
    refine only_bind ?_ fun _ => trivial
    refine only_try (only_lift (only_mono (setStreamDeadline_silent deadlineAtMs) own_silent)) ?_
    intro timely
    split
    · dsimp only
      split
      · trivial
      · refine only_try (only_lift ⟨?_, fun _ => trivial⟩) fun written => ?_
        · rintro text same
          exact ⟨id, next, (SocketOp.send.inj same).symm⟩
        · split
          · exact receive_own id deadlineAtMs _ _
          · trivial
    · trivial

/-- The text of a command tells its identifier. -/
theorem requestOf_id {id id' : UInt64} {method method' : String} {parameters parameters' : Json}
    (same : requestOf id method parameters = requestOf id' method' parameters') : id = id' := by
  have printed := congrArg String.toList same
  simp only [requestOf, String.toList_ofList] at printed
  have members := Json.obj.inj (Json.print_injective printed)
  have first := (List.cons.inj members).1
  have numbers := congrArg JsonInt.value (Json.int.inj (Prod.mk.inj first).2)
  exact UInt64.toNat_inj.mp (Int.ofNat.inj numbers)

end Praefectus.Cdp
