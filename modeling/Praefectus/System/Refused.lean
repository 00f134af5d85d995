import Praefectus.Engine.Endings
import Praefectus.Ledger.Repair
import Praefectus.System.Realized

/-!
# Requests that are refused

A request that the validation, the hash or the authority refuses is looked at and nothing else.
One that conflicts with a stored claim has the ledger repaired and read, which leaves its
complete lines as they are, and reaches neither the host nor the executor, which is only asked
for its isolation.
-/

/-! ### What every move keeps -/

namespace Reaches

variable {σ ε : Type} {move : σ → ε → σ → Prop} {s t : σ} {trace : List ε}

theorem related (R : σ → σ → Prop) (refl : ∀ s, R s s) (trans : ∀ s t u, R s t → R t u → R s u)
    (whole : Reaches move s trace t) (each : ∀ e ∈ trace, ∀ t u, move t e u → R t u) : R s t := by
  induction whole with
  | nil => exact refl s
  | snoc _ moved ih =>
    obtain ⟨earlier, last⟩ := List.forall_mem_append.mp each
    exact trans _ _ _ (ih earlier) (last _ List.mem_cons_self _ _ moved)

end Reaches

namespace Praefectus

open Prog

/-! ### The complete lines of the ledger -/

/-- The records of a file are its complete lines. -/
def completeLines (bytes : List UInt8) : List (List UInt8) :=
  lines (bytes.take (completeLength bytes))

theorem completeLines_cut {bytes bytes' : List UInt8}
    (cut : bytes' = bytes.take (completeLength bytes)) :
    completeLines bytes' = completeLines bytes := by
  obtain ⟨ls, tail, rfl, _, free⟩ := split_lines bytes
  rw [complete_part free] at cut
  subst cut
  have whole : (unlines ls).take (completeLength (unlines ls)) = unlines ls := by
    simpa using @complete_part ls [] List.not_mem_nil
  rw [completeLines, completeLines, whole, complete_part free]

/-- The ledger file keeps its complete lines, and gains nothing. -/
def File.KeepsRecords (f f' : File) : Prop :=
  completeLines f'.bytes = completeLines f.bytes ∧ f'.bytes <+: f.bytes

theorem File.keepsRecords_refl (f : File) : f.KeepsRecords f := ⟨rfl, List.prefix_refl _⟩

theorem File.keepsRecords_trans {f g h : File} (first : f.KeepsRecords g)
    (second : g.KeepsRecords h) : f.KeepsRecords h :=
  ⟨second.1.trans first.1, second.2.trans first.2⟩

section

variable {R : Type} {format : JsonLines R} {f f' : File}

theorem repairEnds_keepsRecords {eff : Prog.Effects FileSystem File} {message : String}
    {result : Except ProtocolError (Option Unit)} (ends : RepairEnds eff format message f result f') :
    f.KeepsRecords f' := by
  cases ends with
  | unread | refused | whole | failed => exact f.keepsRecords_refl
  | cut _ _ bytes =>
    refine ⟨completeLines_cut bytes, ?_⟩
    rw [bytes]
    exact List.take_prefix _ _

/-- A repair, done or failed, keeps the records. -/
theorem repair_keepsRecords {message : String} {result : Except ProtocolError Unit}
    (run : Runs File.effects (repairJsonlTail format message).run f result f') :
    f.KeepsRecords f' := by
  have whole : Runs File.effects (repairBytes format message).run f (result.map some) f' := by
    rw [repairBytes_eq, run_bind]
    refine runs_bind run ?_
    cases result <;> exact .ret _ _
  exact repairEnds_keepsRecords (repairBytes_ends (fun _ _ _ answered => answered) whole)

theorem readRecords_unchanged {result : Except ProtocolError (List R)}
    (run : Runs File.effects (readRecords format).run f result f') : f' = f := by
  rcases runs_file run with ⟨e, answered, _⟩ | ⟨content, f₁, answered, after⟩
  · exact answered
  · obtain rfl : f₁ = f := answered.1
    cases content with
    | none => cases after; rfl
    | some bytes => cases after; rfl

end

/-! ### What the questions of a refused request change -/

/-- Questions about the request alone. -/
def EngineOp.IsScrutiny : EngineOp → Prop
  | .directories | .verifyAuthority .. => True
  | _ => False

/-- Questions that store nothing, and reach neither the host nor more of the executor than its
isolation. -/
def EngineOp.IsLookup : EngineOp → Prop
  | .directories | .verifyAuthority .. | .sessionIsolation | .lock _ | .release _
  | .ledger .repairTail | .ledger .records => True
  | _ => False

section

variable {format : JsonLines LedgerRecord} {host : Host}

/-- The same host, and the same records. -/
structure Ledgers.Untouched (l l' : Ledgers (fileStore format) host) : Prop where
  records : File.KeepsRecords l.ledger l'.ledger
  host : l'.host = l.host

theorem Ledgers.untouched_refl (l : Ledgers (fileStore format) host) : l.Untouched l :=
  ⟨File.keepsRecords_refl _, rfl⟩

theorem scrutiny_unchanged {e : Event Engine} {l l' : Ledgers (fileStore format) host}
    (scrutiny : e.op.IsScrutiny) (answered : l.Answer e l') : l' = l := by
  obtain ⟨op, ans⟩ := e
  cases op with
  | directories | verifyAuthority => exact answered
  | _ => exact scrutiny.elim

theorem lookup_untouched {e : Event Engine} {l l' : Ledgers (fileStore format) host}
    (looks : e.op.IsLookup) (answered : l.Answer e l') : l.Untouched l' := by
  obtain ⟨op, ans⟩ := e
  cases op with
  | ledger op =>
    obtain ⟨run, same⟩ := answered
    cases op with
    | repairTail => exact ⟨repair_keepsRecords run, same⟩
    | records =>
      refine ⟨?_, same⟩
      rw [readRecords_unchanged run]
      exact File.keepsRecords_refl _
    | append => exact looks.elim
  | directories | verifyAuthority | sessionIsolation | lock | release =>
    obtain rfl : l' = l := answered
    exact l'.untouched_refl
  | _ => exact looks.elim

/-- The questions of a call answered over the ledgers, in order. -/
def Ledgers.Serves (history : History) (l l' : Ledgers (fileStore format) host) : Prop :=
  Reaches (fun l e l' => Ledgers.Answer e l l') l history l'

end

/-! ### Refusals -/

/-- The validation, the hash or the authority refused the request with the error. -/
def TurnedAway (build : Build) (request : ActionRequest) (history : History) (e : ProtocolError) :
    Prop :=
  ∃ isDir, (⟨.directories, isDir⟩ : Event Engine) ∈ history ∧
    (validateRequest build isDir request = .error e ∨
      normalizedActionHash build request = .error e ∨
      ∃ actionHash, (⟨.verifyAuthority request actionHash, .error e⟩ : Event Engine) ∈ history)

section

variable {build : Build} {outcomes : Outcomes} {request : ActionRequest} {history : History}
  {e : ProtocolError}

/-- Once the lock was asked for, nothing turned the request away. -/
theorem not_turnedAway {isDir : PathBuf → Bool} {actionHash : String} {authority : VerifiedAuthority}
    {sessionIsolation : SessionIsolation} {locked : Except ProtocolError Unit} {rest : History}
    (valid : validateRequest build isDir request = .ok ())
    (hashed : normalizedActionHash build request = .ok actionHash)
    (inside : ∀ event ∈ rest, EngineOp.IsInside event.op) :
    ¬ TurnedAway build request
      (opening request isDir actionHash authority sessionIsolation locked ++ rest) e := by
  rintro ⟨isDir', asked, refused⟩
  have same : isDir' = isDir := by
    rcases List.mem_append.mp asked with early | late
    · simpa [opening] using early
    · exact (inside _ late).elim
  subst same
  rcases refused with invalid | unhashed | ⟨actionHash', denied⟩
  · rw [valid] at invalid
    cases invalid
  · rw [hashed] at unhashed
    cases unhashed
  · rcases List.mem_append.mp denied with early | late
    · simp [opening] at early
    · exact (inside _ late).elim

theorem turnedAway_scrutiny (ends : CallEnds build outcomes request history (.error e))
    (refused : TurnedAway build request history e) : ∀ event ∈ history, event.op.IsScrutiny := by
  cases ends with
  | invalid | unhashed => exact List.forall_mem_singleton.mpr trivial
  | unauthorized =>
    exact List.forall_mem_cons.mpr ⟨trivial, List.forall_mem_singleton.mpr trivial⟩
  | unlocked valid hashed =>
    rw [← List.append_nil (opening ..)] at refused
    exact absurd refused (not_turnedAway valid hashed (List.forall_mem_nil _))
  | locked valid hashed run =>
    refine absurd refused (not_turnedAway valid hashed (List.forall_mem_append.mpr ⟨?_, ?_⟩))
    · exact only_steps (Execution.inside_locked _) run
    · exact List.forall_mem_singleton.mpr trivial

theorem opening_lookup (isDir : PathBuf → Bool) (actionHash : String) (authority : VerifiedAuthority)
    (sessionIsolation : SessionIsolation) (locked : Except ProtocolError Unit) :
    ∀ event ∈ opening request isDir actionHash authority sessionIsolation locked,
      EngineOp.IsLookup event.op := by
  simp [opening, EngineOp.IsLookup]

/-- A conflict that nothing answered with was found by looking the claim up. -/
theorem conflict_lookup (ends : CallEnds build outcomes request history (.error .conflict))
    (own : ∀ event ∈ history, ¬ Fails event .conflict) : ∀ event ∈ history, event.op.IsLookup := by
  cases ends with
  | invalid | unhashed => exact List.forall_mem_singleton.mpr trivial
  | unauthorized =>
    exact List.forall_mem_cons.mpr ⟨trivial, List.forall_mem_singleton.mpr trivial⟩
  | unlocked => exact opening_lookup _ _ _ _ _
  | locked _ _ run =>
    refine List.forall_mem_append.mpr ⟨opening_lookup _ _ _ _ _, ?_⟩
    refine List.forall_mem_append.mpr ⟨?_, List.forall_mem_singleton.mpr trivial⟩
    obtain ⟨_, later⟩ := List.forall_mem_append.mp own
    obtain ⟨inside, _⟩ := List.forall_mem_append.mp later
    cases Execution.locked_fails run with
    | unrepaired => exact List.forall_mem_singleton.mpr trivial
    | unread | conflict =>
      exact List.forall_mem_cons.mpr ⟨trivial, List.forall_mem_singleton.mpr trivial⟩
    | told answered =>
      obtain ⟨event, member, told⟩ := answered
      exact absurd told (inside event member)

/-- **Refused requests leave no trace**: one that the validation, the hash or the authority
refuses is only looked at; one that conflicts, where the conflict is not the answer of the host
or of the storage, leaves the host and the records alone. -/
theorem refused_without_trace {format : JsonLines LedgerRecord} {host : Host}
    {l l' : Ledgers (fileStore format) host}
    (run : Steps (execute build outcomes request).run history (.ret (.error e)))
    (served : Ledgers.Serves history l l') :
    (TurnedAway build request history e →
      (∀ event ∈ history, event.op.IsScrutiny) ∧ l' = l) ∧
    (e = .conflict → (∀ event ∈ history, ¬ Fails event .conflict) →
      (∀ event ∈ history, event.op.IsLookup) ∧ l.Untouched l') := by
  have ends := execute_ends run
  constructor
  · intro refused
    have scrutiny := turnedAway_scrutiny ends refused
    refine ⟨scrutiny, ?_⟩
    refine served.related (fun l l' => l' = l) (fun _ => rfl) ?_ ?_
    · rintro _ _ _ rfl rfl
      rfl
    · exact fun event member _ _ answered => scrutiny_unchanged (scrutiny event member) answered
  · rintro rfl own
    have looks := conflict_lookup ends own
    refine ⟨looks, ?_⟩
    refine served.related Ledgers.Untouched Ledgers.untouched_refl ?_ ?_
    · intro _ _ _ first second
      exact ⟨File.keepsRecords_trans first.records second.records, second.host.trans first.host⟩
    · exact fun event member _ _ answered => lookup_untouched (looks event member) answered

end

/-! ### A claimed operation -/

namespace Bench

/-- The bench with a claim of another action under the operation of its request. -/
def claimed : Bench :=
  { new with records := [.claim "operation-1" "other" 0 none none none none] }

theorem respond_owns (who : Nat) (op : EngineOp) (bench : Bench) :
    ¬ Fails ⟨op, (respond who op bench).1⟩ .conflict := by
  cases op with
  | ledger op =>
    cases op with
    | append record =>
      simp only [respond, Bench.append]
      split <;> simp [Fails, failure]
    | _ => exact id
  | begin outcomes key => cases outcomes <;> exact id
  | record outcomes key terminal => cases outcomes <;> exact id
  | _ => exact id

/-- What a call sees of the lock does not change the ledgers. -/
theorem answer_ledgers {store : Store} {host : Host} {who : Nat} {e : Event Engine}
    {w w' : World Nat store host} (answered : w.Answer who e w') :
    w.ledgers.Answer e w'.ledgers := by
  unfold World.Answer at answered
  split at answered
  next =>
    obtain ⟨_, rfl⟩ := answered
    exact rfl
  next =>
    obtain rfl := answered
    unfold World.release
    split <;> exact rfl
  next => exact answered.1

theorem serves_reaches {format : JsonLines LedgerRecord} {host : Host} {who : Nat}
    {history : History} {w w' : World Nat (fileStore format) host}
    (reached : Reaches (fun w e w' => World.Answer who e w w') w history w') :
    Ledgers.Serves history w.ledgers w'.ledgers := by
  induction reached with
  | nil => exact .nil
  | snoc _ moved ih => exact .snoc ih (answer_ledgers moved)

/-- What the bench answers may be answered over the ledger file and the host. -/
theorem served (format : JsonLines LedgerRecord) (who fuel : Nat) {α : Type} (p : Prog Engine α)
    (bench : Bench) : ∃ l l' : Ledgers (fileStore format) memoryHost,
      Ledgers.Serves (play (respond who) fuel p bench).1 l l' := by
  let world : World Nat (fileStore format) memoryHost :=
    ⟨⟨⟨some (unlines (bench.records.map format.line)), 0⟩, bench.outcomes⟩, bench.holder⟩
  have backs : bench.Backs format world := ⟨rfl, rfl, rfl⟩
  have each (op : EngineOp) (s : Bench) (t : World Nat (fileStore format) memoryHost)
      (related : s.Backs format t) : ∃ t', t.Answer who ⟨op, (respond who op s).1⟩ t' ∧
        (respond who op s).2.Backs format t' := realizes.respond who op s t related
  obtain ⟨world', reached, _⟩ := play_moves (fun w e w' => World.Answer who e w w') (respond who)
    each fuel p backs
  exact ⟨world.ledgers, world'.ledgers, serves_reaches reached⟩

end Bench

def conflicts : Except ProtocolError ExecuteReport → Bool
  | .error .conflict => true
  | _ => false

theorem of_conflicts {result : Except ProtocolError ExecuteReport} (conflict : conflicts result = true) :
    result = .error .conflict := by
  unfold conflicts at conflict
  split at conflict
  · rfl
  · contradiction

/-- A request of another version of the protocol. -/
def foreignRequest : ActionRequest := { benchRequest .interactive with protocolVersion := 0 }

theorem refused_without_trace_claimed :
    (∃ (history : History) (l l' : Ledgers (fileStore objectReader.format) memoryHost),
      Steps (execute (benchBuild .interactive) .host (benchRequest .interactive)).run history
        (.ret (.error .conflict)) ∧
      Ledgers.Serves history l l' ∧ (∀ event ∈ history, event.op.IsLookup) ∧ l.Untouched l') ∧
    ∃ (history : History) (e : ProtocolError),
      Steps (execute (benchBuild .interactive) .host foreignRequest).run history (.ret (.error e)) ∧
      ∀ event ∈ history, event.op.IsScrutiny := by
  constructor
  swap
  · have refused : validateRequest (benchBuild .interactive) (fun _ => true) foreignRequest =
        .error (.invalidRequest "unsupported protocol version") := rfl
    have run : Steps (execute (benchBuild .interactive) .host foreignRequest).run
        [⟨.directories, fun _ => true⟩] (.ret (.error (.invalidRequest "unsupported protocol version"))) :=
      .step _ (.refl _)
    have served : Ledgers.Serves [⟨.directories, fun _ => true⟩]
        (⟨⟨none, 0⟩, .new⟩ : Ledgers (fileStore objectReader.format) memoryHost) ⟨⟨none, 0⟩, .new⟩ :=
      .single rfl
    have traceless := (refused_without_trace run served).1 ⟨_, List.mem_cons_self, .inl refused⟩
    exact ⟨_, _, run, traceless.1⟩
  have ended : (benchHistory .host .interactive Bench.claimed).2.1.returned?.any conflicts = true := by
    decide +kernel
  obtain ⟨result, conflict, run⟩ := steps_returned ended
  rw [of_conflicts conflict] at run
  obtain ⟨l, l', served⟩ := Bench.served objectReader.format 0 100
    (execute (benchBuild .interactive) .host (benchRequest .interactive)).run Bench.claimed
  have own : ∀ event ∈ (benchHistory .host .interactive Bench.claimed).1, ¬ Fails event .conflict :=
    play_answers (fun op bench => Bench.respond_owns 0 op bench) 100 _ _
  exact ⟨_, l, l', run, served, (refused_without_trace run served).2 rfl own⟩

/-- A host may answer with a conflict of its own, after the claim was stored. -/
def conflictingHost (op : EngineOp) (bench : Bench) : op.Answer × Bench :=
  match op with
  | .begin .. => (.error .conflict, bench)
  | op => Bench.respond 0 op bench

def isStored (e : Event Engine) : Bool :=
  match e with
  | ⟨.ledger (.append _), .ok ()⟩ => true
  | _ => false

/-- The conflict of a host is passed on, and leaves a claim behind. -/
theorem conflict_of_host : ¬ ∀ history : History,
    Steps (execute (benchBuild .interactive) .host (benchRequest .interactive)).run history
      (.ret (.error .conflict)) → ∀ event ∈ history, isStored event = false := by
  intro traceless
  have checked :
      (play conflictingHost 100 (execute (benchBuild .interactive) .host
        (benchRequest .interactive)).run Bench.new).2.1.returned?.any conflicts = true ∧
      (play conflictingHost 100 (execute (benchBuild .interactive) .host
        (benchRequest .interactive)).run Bench.new).1.any isStored = true := by decide +kernel
  obtain ⟨ended, stored⟩ := checked
  obtain ⟨result, conflict, run⟩ := steps_returned ended
  rw [of_conflicts conflict] at run
  obtain ⟨event, member, kept⟩ := List.any_eq_true.mp stored
  rw [traceless _ run event member] at kept
  exact Bool.false_ne_true kept

end Praefectus
