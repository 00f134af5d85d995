import Praefectus.Observe.CdpDiscover
import Praefectus.Program.Play
import Praefectus.Program.Verdicts

/-!
# The answer behind a discovered websocket

Whatever the port sends, a bounded number of bytes is read of it, and a URL is returned only
of an answer that can be read in one way.
-/

namespace Praefectus.Cdp.Discover

open Json Prog

/-! ### Answers -/

structure Field where
  name : List Char
  value : List Char

namespace Field

def line (field : Field) : List Char := field.name ++ ':' :: field.value

def isLength (field : Field) : Bool := named field.name "content-length"

/-- The number that the value is. -/
def number (field : Field) : Option Nat := parseUsize (field.value.trimBy isWhitespace)

/-- The name ends at the first colon, and no other encoding is declared than the identity. -/
structure Plain (field : Field) : Prop where
  first : ':' ∉ field.name
  identity : named field.name "transfer-encoding" = true →
    named (field.value.trimBy isWhitespace) "identity" = true

end Field

/-- Headers of an answer whose body is of a length. -/
structure Headers (headers : List UInt8) (length : Nat) : Prop where
  read : ∃ (status : String) (fields : List Field),
    status ∈ ["HTTP/1.1 200 OK", "HTTP/1.0 200 OK"] ∧
    headers = utf8 (crlf.intercalate (status.toList :: fields.map Field.line)) ∧
    (∀ line ∈ status.toList :: fields.map Field.line, ¬ crlf <:+: line) ∧
    (∀ field ∈ fields, field.Plain) ∧
    ∃ field, fields.filter Field.isLength = [field] ∧ field.number = some length

/-- A body that lists the target once, with the URL. -/
structure Lists (port : UInt16) (targetId : String) (body : List UInt8) (url : String) : Prop where
  read : ∃ targets target, fromSlice body = some (.arr targets) ∧
    targets.filter (hasId targetId) = [target] ∧ isPage target = true ∧
    (target.get? "webSocketDebuggerUrl").bind asStr = some url
  expected : url = websocketUrl port targetId

/-- The bytes of an answer with a URL, and no more than are read. -/
structure Answer (port : UInt16) (targetId url : String) (bytes : List UInt8) : Prop where
  parts : ∃ headers body, bytes = headers ++ terminator ++ body ∧ Headers headers body.length ∧
    Lists port targetId body url
  bounded : bytes.length ≤ maxHttpBytes

/-! ### What the headers say -/

theorem readField_ok {before after : Option Nat} {line : List Char}
    (read : readField before line = .ok after) : ∃ field : Field, field.line = line ∧ field.Plain ∧
      (field.isLength = true ∧ before = none ∧ field.number = after ∧ after.isSome ∨
        field.isLength = false ∧ after = before) := by
  unfold readField at read
  split at read
  next => cases read
  next name value cut =>
    obtain ⟨whole, first⟩ := splitOnce_some cut
    split at read
    next => cases read
    next encoding =>
      have plain : Field.Plain ⟨name, value⟩ := by
        refine ⟨first, fun declared => ?_⟩
        simpa [declared] using encoding
      refine ⟨⟨name, value⟩, whole.symm, plain, ?_⟩
      split at read
      next isLength =>
        split at read
        next => cases read
        next fresh =>
          split at read
          next length parsed =>
            cases read
            exact .inl ⟨isLength, by simpa using fresh, parsed, rfl⟩
          next => cases read
      next other =>
        cases read
        exact .inr ⟨by simpa [Field.isLength] using other, rfl⟩

/-- The lengths declared so far, and those of the lines. -/
theorem readFields_ok {before after : Option Nat} {lines : List (List Char)}
    (read : lines.foldlM readField before = .ok after) : ∃ fields : List Field,
      fields.map Field.line = lines ∧ (∀ field ∈ fields, field.Plain) ∧
        before.toList.map some ++ (fields.filter Field.isLength).map Field.number =
          after.toList.map some := by
  induction lines generalizing before with
  | nil =>
    cases read
    exact ⟨[], rfl, nofun, List.append_nil _⟩
  | cons line lines ih =>
    rw [List.foldlM_cons] at read
    cases step : readField before line with
    | error =>
      rw [step] at read
      cases read
    | ok between =>
      rw [step] at read
      obtain ⟨field, rfl, plain, kind⟩ := readField_ok step
      obtain ⟨fields, rfl, plains, lengths⟩ := ih read
      refine ⟨field :: fields, rfl, List.forall_mem_cons.mpr ⟨plain, plains⟩, ?_⟩
      rcases kind with ⟨isLength, rfl, number, present⟩ | ⟨other, rfl⟩
      · obtain ⟨length, rfl⟩ := Option.isSome_iff_exists.mp present
        rw [List.filter_cons_of_pos isLength, List.map_cons, number]
        exact lengths
      · rwa [List.filter_cons_of_neg (by simp [other])]

theorem contentLengthOf_ok {headers : List UInt8} {text : List Char} {length : Nat}
    (decoded : decodeUtf8 headers = some text)
    (read : contentLengthOf text = .ok (some length)) : Headers headers length := by
  have whole := intercalate_splitCrlf text
  have free := splitCrlf_free text
  unfold contentLengthOf at read
  split at read
  next status lines cut =>
    split at read
    next accepted =>
      obtain ⟨fields, rfl, plains, lengths⟩ := readFields_ok read
      rw [cut] at whole free
      refine ⟨.ofList status, fields, accepted, ?_, ?_, plains, ?_⟩
      · rw [String.toList_ofList, whole]
        exact utf8_of_decodeUtf8 decoded
      · rw [String.toList_ofList]
        exact free
      · -- a list of one number is made by one field
        obtain ⟨field, single, number⟩ := List.map_eq_singleton_iff.mp lengths
        exact ⟨field, single, number⟩
    next => cases read
  next => cases read

/-! ### What the body says -/

theorem findTarget_ok {targetId : String} {targets target : Json}
    (found : findTarget targetId targets = .ok target) : ∃ items, targets = .arr items ∧
      items.filter (hasId targetId) = [target] ∧ isPage target = true := by
  unfold findTarget at found
  split at found
  next items =>
    split at found
    next => cases found
    next first others filtered =>
      split at found
      next => cases found
      next unique =>
        cases found
        obtain ⟨single, page⟩ := not_or.mp unique
        obtain rfl := not_not.mp single
        exact ⟨items, rfl, filtered, by simpa using page⟩
  next => cases found

theorem selectUrl_ok {port : UInt16} {targetId url : String} {body : List UInt8}
    (selected : selectUrl port targetId body = .ok url) : Lists port targetId body url := by
  unfold selectUrl at selected
  split at selected
  next => cases selected
  next targets parsed =>
    cases step : findTarget targetId targets with
    | error =>
      rw [step] at selected
      cases selected
    | ok target =>
      rw [step] at selected
      obtain ⟨items, rfl, single, page⟩ := findTarget_ok step
      dsimp only [Bind.bind, Except.bind] at selected
      split at selected
      next => cases selected
      next found =>
        unfold validateWebsocketUrl at selected
        split at selected
        next => cases selected
        next same =>
          cases selected
          have same := not_not.mp same
          exact ⟨⟨items, target, parsed, single, page, same ▸ found⟩, rfl⟩

/-! ### What is read -/

/-- How many bytes an operation asks for. -/
def asked : StreamOp → Nat
  | .readExact length => length
  | _ => 0

def bytesOf : Event HttpStream → List UInt8
  | ⟨.readExact _, some bytes⟩ => bytes.val
  | _ => []

/-- How many bytes were asked for, whether they came or not. -/
def requested (trace : List (Event HttpStream)) : Nat := (trace.map fun e => asked e.op).sum

def received (trace : List (Event HttpStream)) : List UInt8 := trace.flatMap bytesOf

/-- Bytes and operations may be asked for up to a limit. -/
def watch : Monitor HttpStream (List (Event HttpStream)) where
  learn trace e := trace ++ [e]
  allows trace op := requested trace + asked op ≤ maxHttpBytes ∧ trace.length < maxHttpBytes + 6

theorem after_watch (before trace : List (Event HttpStream)) :
    watch.after before trace = before ++ trace := by
  induction trace generalizing before with
  | nil => exact (List.append_nil _).symm
  | cons e trace ih =>
    refine (ih (before ++ [e])).trans ?_
    rw [List.append_assoc, List.singleton_append]

theorem requested_concat (trace : List (Event HttpStream)) (e : Event HttpStream) :
    requested (trace ++ [e]) = requested trace + asked e.op := by
  rw [requested, List.map_append, List.sum_append, List.map_singleton, List.sum_singleton]
  rfl

theorem received_concat (trace : List (Event HttpStream)) (e : Event HttpStream) :
    received (trace ++ [e]) = received trace ++ bytesOf e := by
  rw [received, List.flatMap_append, List.flatMap_singleton]
  rfl

/-- So many operations, and these bytes, one by one. -/
structure Read (trace : List (Event HttpStream)) (steps : Nat) (headers : List UInt8) : Prop where
  operations : trace.length = steps + headers.length
  requests : requested trace = headers.length
  bytes : received trace = headers

/-- One operation more, all of whose bytes came. -/
theorem read_next {trace : List (Event HttpStream)} {steps steps' : Nat} {headers : List UInt8}
    {e : Event HttpStream} (read : Read trace steps headers) (all : asked e.op = (bytesOf e).length)
    (count : steps' + (bytesOf e).length = steps + 1) :
    Read (trace ++ [e]) steps' (headers ++ bytesOf e) := by
  obtain ⟨operations, requests, bytes⟩ := read
  refine ⟨?_, ?_, ?_⟩
  · rw [List.length_append, List.length_append, List.length_singleton, operations]
    omega
  · rw [requested_concat, requests, all, List.length_append]
  · rw [received_concat, bytes]

/-! ### Parts of the run -/

section Parts

variable {α : Type} {trace : List (Event HttpStream)} {steps : Nat} {headers : List UInt8}
  {ok : α → List (Event HttpStream) → Prop}

/-- Nothing panics. -/
abbrev Calm (ok : α → List (Event HttpStream) → Prop) (x : DiscoverM α)
    (trace : List (Event HttpStream)) : Prop :=
  Judged watch ok (fun e _ => e ≠ .panicked) x trace

theorem calm_after {β : Type} {ok' : β → List (Event HttpStream) → Prop} {x : DiscoverM α}
    {f : α → DiscoverM β} (first : Calm ok x trace)
    (rest : ∀ a trace', ok a trace' → Calm ok' (f a) trace') : Calm ok' (x >>= f) trace :=
  judged_bind (judged_mono first rest fun _ _ => id)

theorem calm_accept {ok : Unit → List (Event HttpStream) → Prop} {accepted : Bool}
    (holds : ok () trace) : Calm ok (accept accepted) trace := by
  cases accepted with
  | true => exact judged_pure holds
  | false => exact judged_throw nofun

theorem calm_orFail {result : Except CdpError α} (holds : ∀ a, result = .ok a → ok a trace) :
    Calm ok (orFail result) trace := by
  cases result with
  | ok a => exact judged_pure (holds a rfl)
  | error => exact judged_throw nofun

theorem calm_orProtocol {result : Option α} (holds : ∀ a, result = some a → ok a trace) :
    Calm ok (orProtocol result) trace := by
  cases result with
  | some a => exact judged_pure (holds a rfl)
  | none => exact judged_throw nofun

/-- A step before anything is read. -/
theorem calm_step {op : StreamOp} (none : asked op = 0)
    (empty : ∀ ans, bytesOf ⟨op, ans⟩ = []) (early : steps < 5) (read : Read trace steps []) :
    Calm (fun _ trace' => Read trace' (steps + 1) []) (ask op) trace := by
  have ⟨operations, requests, _⟩ := read
  rw [List.length_nil] at operations requests
  refine judged_ask ⟨?_, ?_⟩ fun ans => ?_
  · rw [requests, none]
    exact Nat.zero_le _
  · omega
  · have next : Read (trace ++ [⟨op, ans⟩]) (steps + 1) ([] ++ bytesOf ⟨op, ans⟩) :=
      read_next read (by rw [empty, none]; rfl) (by rw [empty]; rfl)
    rwa [empty, List.append_nil] at next

/-- The headers end with the terminator, and there are no more bytes of them than allowed. -/
theorem calm_readHeaders (read : Read trace 5 headers) (few : headers.length ≤ maxHttpBytes) :
    Calm (fun headers' trace' => Read trace' 5 headers' ∧ terminator <:+ headers' ∧
      headers'.length ≤ maxHttpBytes) (readHeaders headers) trace := by
  -- each byte leaves room for one less
  induction room : maxHttpBytes - headers.length using Nat.strong_induction_on
    generalizing headers trace with
  | _ room ih =>
    rw [readHeaders]
    split
    next ends => exact judged_pure ⟨read, ends, few⟩
    next =>
      split
      next => exact judged_throw nofun
      next more =>
        have more := Nat.lt_of_not_le more
        have ⟨operations, requests, _⟩ := read
        refine judged_bind (judged_ask ⟨?_, ?_⟩ fun ans => ?_)
        · rw [requests]
          exact more
        · omega
        · cases ans with
          | none => exact judged_throw nofun
          | some byte =>
            have single := byte.property
            refine ih _ ?_ (read_next read single.symm (congrArg (5 + ·) single)) ?_ rfl
            · rw [List.length_append, single]
              omega
            · refine (List.length_append.trans (congrArg (headers.length + ·) single)).trans_le ?_
              exact more

end Parts

/-- The whole discovery. -/
theorem calm_discover (port : UInt16) (targetId : String) :
    Calm (fun url trace => Answer port targetId url (received trace))
      (discoverWebsocketUrl port targetId) [] := by
  have step (steps : Nat) {op : StreamOp} {trace : List (Event HttpStream)} {β : Type}
      {ok : β → List (Event HttpStream) → Prop} {f : HttpStream.Ans op → DiscoverM β}
      (none : asked op = 0) (empty : ∀ ans, bytesOf ⟨op, ans⟩ = []) (early : steps < 5)
      (read : Read trace steps [])
      (rest : ∀ ans trace', Read trace' (steps + 1) [] → Calm ok (f ans) trace') :
      Calm ok (ask op >>= f) trace :=
    calm_after (calm_step none empty early read) rest
  have accepted {accepted : Bool} {trace : List (Event HttpStream)} {β : Type}
      {ok : β → List (Event HttpStream) → Prop} {f : Unit → DiscoverM β}
      (rest : Calm ok (f ()) trace) : Calm ok (accept accepted >>= f) trace :=
    judged_bind (calm_accept rest)
  refine step 0 rfl (fun _ => rfl) (by omega) ⟨rfl, rfl, rfl⟩ fun _ _ read => accepted ?_
  refine step 1 rfl (fun _ => rfl) (by omega) read fun _ _ read => accepted ?_
  refine step 2 rfl (fun _ => rfl) (by omega) read fun _ _ read => accepted ?_
  refine step 3 rfl (fun _ => rfl) (by omega) read fun _ _ read => accepted ?_
  refine step 4 rfl (fun _ => rfl) (by omega) read fun _ trace read => accepted ?_
  refine calm_after (calm_readHeaders read (Nat.zero_le _)) ?_
  rintro headers trace ⟨read, ⟨head, rfl⟩, few⟩
  have ⟨operations, requests, bytes⟩ := read
  have length : (head ++ terminator).length = head.length + 4 := List.length_append
  rw [length] at operations requests few
  -- the terminator was read, so that nothing is subtracted from too little
  have difference : subtract (head ++ terminator).length 4 = pure head.length := by
    rw [subtract, length, if_pos (by omega), Nat.add_sub_cancel]
  have slice : sliceTo (head ++ terminator) head.length = pure head := by
    rw [sliceTo, length, if_pos (by omega), List.take_left]
  have sum : add head.length 4 = pure (head.length + 4) := by
    rw [add, if_pos (by have : maxHttpBytes < 2 ^ 64 := by decide
                        omega)]
  rw [difference, pure_bind, slice, pure_bind]
  refine judged_bind (calm_orProtocol fun text decoded => ?_)
  refine judged_bind (calm_orFail fun declared found => ?_)
  rw [sum, pure_bind]
  refine judged_bind (calm_orProtocol fun contentLength filtered => ?_)
  obtain ⟨rfl, small⟩ := Option.filter_eq_some_iff.mp filtered
  have small : contentLength ≤ maxHttpBytes - (head.length + 4) := of_decide_eq_true small
  refine judged_bind (judged_ask ⟨?_, ?_⟩ fun ans =>
    judged_bind (calm_orProtocol fun body came => ?_))
  · change requested trace + contentLength ≤ maxHttpBytes
    omega
  · omega
  subst came
  obtain ⟨body, whole⟩ := body
  subst whole
  rw [if_neg (not_not.mpr rfl)]
  refine calm_orFail fun url selected => ⟨?_, ?_⟩
  · refine ⟨head, body, ?_, contentLengthOf_ok decoded found, selectUrl_ok selected⟩
    exact (received_concat trace _).trans (congrArg (· ++ body) bytes)
  · have whole : received (trace ++ [_]) = head ++ terminator ++ body :=
      (received_concat trace ⟨.readExact body.length, some ⟨body, rfl⟩⟩).trans
        (congrArg (· ++ body) bytes)
    change (received (trace ++ [_])).length ≤ maxHttpBytes
    rw [whole, List.length_append, length]
    omega

theorem counts_of_run {port : UInt16} {targetId : String} {trace : List (Event HttpStream)}
    {p : Prog HttpStream (Except Stop String)}
    (run : Steps (discoverWebsocketUrl port targetId).run trace p) :
    requested trace ≤ maxHttpBytes ∧ trace.length ≤ maxHttpBytes + 6 := by
  induction trace using List.reverseRecOn with
  | nil => exact ⟨Nat.zero_le _, Nat.zero_le _⟩
  | append_singleton before e _ =>
    -- the last question was allowed
    have allowed := judged_asks (calm_discover port targetId) run
    rw [after_watch, List.nil_append] at allowed
    obtain ⟨few, short⟩ := allowed
    rw [requested_concat, List.length_append, List.length_singleton]
    exact ⟨few, short⟩

/-- Whatever is sent, a discovery is over after a bounded number of steps, asks for a bounded
number of bytes, and does not panic; a URL that it returns is that of an answer which can be
read in one way. -/
theorem discovery_bounded (port : UInt16) (targetId : String) {trace : List (Event HttpStream)}
    {p : Prog HttpStream (Except Stop String)}
    (run : Steps (discoverWebsocketUrl port targetId).run trace p) :
    trace.length ≤ maxHttpBytes + 6 ∧ requested trace ≤ maxHttpBytes ∧
      p ≠ .ret (.error .panicked) ∧
      ∀ url, p = .ret (.ok url) → Answer port targetId url (received trace) := by
  obtain ⟨few, short⟩ := counts_of_run run
  refine ⟨short, few, ?_, ?_⟩
  · rintro rfl
    exact judged_run (calm_discover port targetId) run rfl
  · rintro url rfl
    have answer := judged_run (calm_discover port targetId) run
    rwa [after_watch] at answer

/-! ### An answer -/

def plainBody : List UInt8 :=
  ("[\x7b\"id\":\"one\",\"type\":\"page\"," ++
    "\"webSocketDebuggerUrl\":\"ws://127.0.0.1:9222/devtools/page/one\"\x7d]").asBytes

def plainAnswer : List UInt8 :=
  "HTTP/1.1 200 OK\r\nServer: x\r\ncontent-LENGTH: 91 \r\n\r\n".asBytes ++ plainBody

/-- A port that sends these bytes. -/
def serve : (op : StreamOp) → List UInt8 → HttpStream.Ans op × List UInt8
  | .connect _, bytes => (true, bytes)
  | .setReadTimeout, bytes => (true, bytes)
  | .setWriteTimeout, bytes => (true, bytes)
  | .write _, bytes => (true, bytes)
  | .flush, bytes => (true, bytes)
  | .readExact length, bytes =>
    if enough : (bytes.take length).length = length then
      (some ⟨bytes.take length, enough⟩, bytes.drop length)
    else (none, bytes)

theorem plain_succeeds : (play serve 100 (discoverWebsocketUrl 9222 "one").run
    plainAnswer).2.1.returned?.any Except.isOk = true := by
  decide +kernel

theorem discovery_bounded_plain : ∃ trace url,
    Steps (discoverWebsocketUrl 9222 "one").run trace (.ret (.ok url)) ∧
      Answer 9222 "one" url (received trace) := by
  obtain ⟨url, run⟩ := steps_succeeded plain_succeeds
  exact ⟨_, url, run, (discovery_bounded 9222 "one" run).2.2.2 url rfl⟩

end Praefectus.Cdp.Discover
