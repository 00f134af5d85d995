import Praefectus.Ledger.Journal

/-!
# The ledger operations keep the journal

Each operation on the file, completed, failed or stopped at any step of it, is one
step of the journal the file keeps.
-/

namespace Praefectus

variable {R : Type} {format : JsonLines R}

/-! ### Steps of a file program -/

theorem safe_file {α : Type} {Q : Except ProtocolError α → File → Prop} {C : File → Prop}
    {op : FileOp} {next : op.Result → FileM α} {f : File}
    (stopped : ∀ ans f', File.Answer ⟨op, ans⟩ f f' → C f')
    (failed : ∀ e f', File.Answer ⟨op, .error e⟩ f f' → Q (.error e) f')
    (done : ∀ v f', File.Answer ⟨op, .ok v⟩ f f' → (next v).run.Safe File.effects Q C f') :
    (file op >>= next).run.Safe File.effects Q C f := by
  refine ⟨fun f' ⟨ans, abandoned⟩ => stopped ans f' abandoned, ?_⟩
  intro ans f' answered
  cases ans with
  | error e => exact failed e f' answered
  | ok v => exact done v f' answered

/-- The last step of a program. -/
theorem safe_file_last {op : FileOp} {Q : Except ProtocolError op.Result → File → Prop}
    {C : File → Prop} {f : File} (stopped : ∀ ans f', File.Answer ⟨op, ans⟩ f f' → C f')
    (done : ∀ ans f', File.Answer ⟨op, ans⟩ f f' → Q ans f') :
    (file op).run.Safe File.effects Q C f :=
  ⟨fun f' ⟨ans, abandoned⟩ => stopped ans f' abandoned, done⟩

theorem safe_always {α : Type} {Q : Except ProtocolError α → File → Prop} {C : File → Prop}
    (all : ∀ ans f, Q ans f) (stopped : ∀ f, C f) (p : Prog FileSystem (Except ProtocolError α))
    (f : File) : p.Safe File.effects Q C f := by
  induction p generalizing f with
  | ret value => exact all value f
  | ask op next ih => exact ⟨fun f' _ => stopped f', fun ans f' _ => ih ans f'⟩

/-! ### Files and the journal -/

theorem bytes_truncate (f : File) (length : Nat) :
    (f.truncate length).bytes = f.bytes.take length := by
  obtain ⟨content, durable⟩ := f
  cases content <;> simp [File.truncate, File.bytes]

theorem bytes_extend (f : File) (more : List UInt8) : (f.extend more).bytes = f.bytes ++ more := rfl

/-- The lines of the records known to be on disk. -/
def syncedLength (format : JsonLines R) (j : Journal R) : Nat :=
  (unlines ((j.records.take j.synced).map format.line)).length

theorem syncedLength_le (j : Journal R) :
    syncedLength format j ≤ (unlines (j.records.map format.line)).length := by
  have split : j.records = j.records.take j.synced ++ j.records.drop j.synced :=
    (List.take_append_drop _ _).symm
  rw [syncedLength]
  conv_rhs => rw [split, List.map_append, unlines_append, List.length_append]
  omega

theorem keeps_torn {f : File} {j : Journal R} {tail : List UInt8}
    (bytes : f.bytes = unlines (j.records.map format.line) ++ tail) (free : newline ∉ tail)
    (within : j.synced ≤ j.records.length) (durable : syncedLength format j ≤ f.durable) :
    Keeps format f { j with torn := true } :=
  .inr ⟨tail, bytes, free, (fun whole => nomatch whole), within, durable⟩

theorem keeps_whole {f : File} {j : Journal R}
    (bytes : f.bytes = unlines (j.records.map format.line))
    (within : j.synced ≤ j.records.length) (durable : syncedLength format j ≤ f.durable) :
    Keeps format f j :=
  .inr ⟨[], by rw [bytes, List.append_nil], List.not_mem_nil, fun _ => rfl, within, durable⟩

theorem syncedLength_push {j : Journal R} (within : j.synced ≤ j.records.length) (record : R) :
    syncedLength format (j.push record) = syncedLength format j := by
  rw [syncedLength, syncedLength, Journal.push]
  simp only
  rw [List.take_append_of_le_length within]

theorem push_lines (j : Journal R) (record : R) :
    unlines ((j.push record).records.map format.line) =
      unlines (j.records.map format.line) ++ (format.line record ++ [newline]) := by
  rw [Journal.push]
  simp only [List.map_append, List.map_cons, List.map_nil, unlines_append, unlines_cons, unlines_nil]

theorem keeps_push {f : File} {j : Journal R} {record : R}
    (bytes : f.bytes = unlines (j.records.map format.line) ++ (format.line record ++ [newline]))
    (within : j.synced ≤ j.records.length) (durable : syncedLength format j ≤ f.durable) :
    Keeps format f (j.push record) := by
  refine keeps_whole (by rw [bytes, push_lines]) ?_ (by rw [syncedLength_push within]; exact durable)
  simp only [Journal.push, List.length_append, List.length_singleton]
  omega

theorem keeps_sync {f : File} {j : Journal R}
    (bytes : f.bytes = unlines (j.records.map format.line)) (durable : f.durable = f.bytes.length) :
    Keeps format f j.sync := by
  refine keeps_whole bytes (Nat.le_refl _) ?_
  rw [durable, bytes]
  exact syncedLength_le j.sync

/-- A program keeps the journal when each end of it, also an early one, is one step. -/
def Keeping (format : JsonLines R) (op : JournalOp R)
    (p : Prog FileSystem (Except ProtocolError op.Result)) : Prop :=
  ∀ f j, Keeps format f j →
    p.Safe File.effects (fun ans f' => ∃ j', j.Step op ans j' ∧ Keeps format f' j')
      (fun f' => ∃ ans j', j.Step op ans j' ∧ Keeps format f' j') f

theorem keeping_of_intact {op : JournalOp R} {p : Prog FileSystem (Except ProtocolError op.Result)}
    (intact : ∀ f j tail, j.glued = false →
      f.bytes = unlines (j.records.map format.line) ++ tail → newline ∉ tail →
      (j.torn = false → tail = []) → j.synced ≤ j.records.length →
      syncedLength format j ≤ f.durable →
      p.Safe File.effects (fun ans f' => ∃ j', Journal.Answer j j' op ans ∧ Keeps format f' j')
        (fun f' => ∃ ans j', Journal.Answer j j' op ans ∧ Keeps format f' j') f) :
    Keeping format op p := by
  intro f j keeps
  cases glued : j.glued with
  | true =>
    have step (ans : Except ProtocolError op.Result) : j.Step op ans j := by
      rw [Journal.Step, if_pos glued]
    exact safe_always (fun ans f => ⟨j, step ans, .inl glued⟩)
      (fun f => ⟨.error .conflict, j, step _, .inl glued⟩) p f
  | false =>
    rcases keeps with bad | ⟨tail, bytes, free, whole, within, durable⟩
    · rw [glued] at bad; contradiction
    · have step (j' : Journal R) (ans : Except ProtocolError op.Result) :
          j.Step op ans j' ↔ Journal.Answer j j' op ans := by
        rw [Journal.Step, if_neg (by rw [glued]; exact Bool.false_ne_true)]
      simp only [step]
      exact intact f j tail glued bytes free whole within durable

/-! ### The three operations -/

theorem keeps_self {f : File} {j : Journal R} {tail : List UInt8}
    (bytes : f.bytes = unlines (j.records.map format.line) ++ tail) (free : newline ∉ tail)
    (whole : j.torn = false → tail = []) (within : j.synced ≤ j.records.length)
    (durable : syncedLength format j ≤ f.durable) : Keeps format f j :=
  .inr ⟨tail, bytes, free, whole, within, durable⟩

theorem repairJsonlTail_keeping (message : String) :
    Keeping format .repairTail (repairJsonlTail format message).run := by
  refine keeping_of_intact fun f j tail glued bytes free whole within durable => ?_
  have same : Keeps format f j := keeps_self bytes free whole within durable
  have failed (e : ProtocolError) {f' : File} (keeps : Keeps format f' j) :
      ∃ j', Journal.Answer j j' .repairTail (.error e) ∧ Keeps format f' j' :=
    ⟨j, .inl rfl, keeps⟩
  have stopped {f' : File} (keeps : Keeps format f' j) :
      ∃ ans j', Journal.Answer j j' .repairTail ans ∧ Keeps format f' j' :=
    ⟨.error .conflict, j, .inl rfl, keeps⟩
  have unread {ans : Except ProtocolError (Option (List UInt8))} {f' : File}
      (answered : File.Answer ⟨.read, ans⟩ f f') : f' = f := by
    cases ans with
    | ok => exact answered.1
    | error => exact answered
  refine safe_file (fun ans f' answered => stopped (unread answered ▸ same))
    (fun e f' answered => failed e (unread answered ▸ same)) fun content f' answered => ?_
  obtain ⟨rfl, rfl⟩ := answered
  have mended (g : File) (intact : g.bytes = unlines (j.records.map format.line))
      (synced : syncedLength format j ≤ g.durable) :
      ∃ j', Journal.Answer j j' .repairTail (.ok ()) ∧ Keeps format g j' :=
    ⟨j.mend, rfl, keeps_whole intact within synced⟩
  cases stored : f'.content with
  | none =>
    have empty : f'.bytes = [] := by rw [File.bytes, stored]; rfl
    rw [empty] at bytes
    exact mended f' (by rw [empty]; exact (List.append_eq_nil_iff.mp bytes.symm).1.symm) durable
  | some content =>
    have read : content = f'.bytes := by rw [File.bytes, stored]; rfl
    have complete : completeLength content = (unlines (j.records.map format.line)).length := by
      rw [read, bytes, completeLength_append _ free]
    have valid := @lines_valid R format j.records
    have front : content.take (completeLength content) = unlines (j.records.map format.line) := by
      rw [complete, read, bytes, List.take_left']
      rfl
    simp only [front, valid, if_true]
    by_cases done : completeLength content = content.length
    · rw [if_neg (not_not.mpr done)]
      refine mended f' ?_ durable
      rw [← front, done, List.take_length, read]
    · rw [if_pos done]
      have cut : (f'.truncate (completeLength content)).bytes =
          unlines (j.records.map format.line) := by
        rw [bytes_truncate, ← read, front]
      have kept : syncedLength format j ≤ (f'.truncate (completeLength content)).durable :=
        Nat.le_min.mpr ⟨durable, complete ▸ syncedLength_le j⟩
      have short : Keeps format (f'.truncate (completeLength content)) j :=
        keeps_self (by rw [cut, List.append_nil]) List.not_mem_nil (fun _ => rfl) within kept
      have after {ans : Except ProtocolError Unit} {g : File}
          (answered : File.Answer ⟨.setLen (completeLength content), ans⟩ f' g) :
          Keeps format g j := by
        cases ans with
        | ok =>
          cases answered
          exact short
        | error =>
          rcases answered with rfl | rfl
          · exact same
          · exact short
      refine safe_file (fun ans g answered => stopped (after answered))
        (fun e g answered => failed e (after answered)) fun _ g answered => ?_
      cases answered
      have flushed {ans : Except ProtocolError Unit} {g : File}
          (answered : File.Answer ⟨.syncAll, ans⟩ (f'.truncate (completeLength content)) g) :
          g.bytes = unlines (j.records.map format.line) ∧ syncedLength format j ≤ g.durable := by
        cases ans with
        | ok =>
          cases answered
          refine ⟨cut, ?_⟩
          have full := @syncedLength_le R format j
          rw [← cut] at full
          exact full
        | error =>
          cases answered
          exact ⟨cut, kept⟩
      refine safe_file_last (fun ans g answered => ?_) fun ans g answered => ?_
      · obtain ⟨intact, synced⟩ := flushed answered
        exact ⟨.ok (), mended g intact synced⟩
      · obtain ⟨intact, synced⟩ := flushed answered
        cases ans with
        | ok => exact mended g intact synced
        | error e => exact ⟨j.mend, .inr rfl, keeps_whole intact within synced⟩

theorem readRecords_keeping : Keeping format .records (readRecords format).run := by
  refine keeping_of_intact fun f j tail glued bytes free whole within durable => ?_
  have same : Keeps format f j := keeps_self bytes free whole within durable
  have unread {ans : Except ProtocolError (Option (List UInt8))} {f' : File}
      (answered : File.Answer ⟨.read, ans⟩ f f') : f' = f := by
    cases ans with
    | ok => exact answered.1
    | error => exact answered
  refine safe_file (fun ans f' answered => ⟨.error .conflict, j, rfl, unread answered ▸ same⟩)
    (fun e f' answered => ⟨j, rfl, unread answered ▸ same⟩) fun content f' answered => ?_
  obtain ⟨rfl, rfl⟩ := answered
  cases stored : f'.content with
  | none =>
    have empty : f'.bytes = [] := by rw [File.bytes, stored]; rfl
    rw [empty] at bytes
    have none : j.records = [] := by
      cases records : j.records with
      | nil => rfl
      | cons record rest =>
        rw [records, List.map_cons, unlines_cons] at bytes
        simp at bytes
    exact ⟨j, ⟨rfl, fun _ => none.symm⟩, same⟩
  | some content =>
    have read : content = f'.bytes := by rw [File.bytes, stored]; rfl
    have parsed (intact : j.torn = false) :
        parseRecords format (bufLines content) = .ok j.records := by
      rw [read, bytes, whole intact, List.append_nil, parseRecords_kept]
    change ∃ j', Journal.Answer j j' .records (parseRecords format (bufLines content)) ∧
      Keeps format f' j'
    cases result : parseRecords format (bufLines content) with
    | ok records =>
      refine ⟨j, ⟨rfl, fun intact => ?_⟩, same⟩
      have := parsed intact
      rw [result] at this
      exact Except.ok.inj this
    | error e => exact ⟨j, rfl, same⟩

/-- The complete part of the file is `L`, and a piece of a line follows it. -/
def Written (format : JsonLines R) (j : Journal R) (piece : List UInt8) (f : File) : Prop :=
  f.bytes = unlines (j.records.map format.line) ++ piece ∧ syncedLength format j ≤ f.durable

theorem written_extend {j : Journal R} {piece : List UInt8} {f : File}
    (written : Written format j piece f) (more : List UInt8) :
    Written format j (piece ++ more) (f.extend more) :=
  ⟨by rw [bytes_extend, written.1, List.append_assoc], written.2⟩

/-- An append that ends early has pushed the record, or left a torn tail. -/
theorem append_ends {j : Journal R} {record : R} (intact : j.torn = false)
    (within : j.synced ≤ j.records.length) {piece : List UInt8}
    (cut : piece <+: format.line record ++ [newline]) {f : File}
    (written : Written format j piece f) (e : ProtocolError) :
    ∃ j', Journal.Answer j j' (.append record) (.error e) ∧ Keeps format f j' := by
  rcases prefix_line_cases (line_single record) cut with free | rfl
  · exact ⟨_, .inl ⟨intact, .inl ⟨true, rfl⟩⟩, keeps_torn written.1 free within written.2⟩
  · exact ⟨_, .inl ⟨intact, .inr rfl⟩, keeps_push written.1 within written.2⟩

theorem append_synced {j : Journal R} {record : R} (intact : j.torn = false) {f : File}
    (written : Written format j (format.line record ++ [newline]) f) (synced : f.durable = f.bytes.length) :
    ∃ j', Journal.Answer j j' (.append record) (.ok ()) ∧ Keeps format f j' :=
  ⟨_, .inl ⟨intact, rfl⟩, keeps_sync (by rw [written.1, push_lines]) synced⟩

theorem answer_unchanged {op : FileOp} (quiet : op = .prepare ∨ op = .syncParent)
    {ans : Except ProtocolError op.Result} {f f' : File} (answered : File.Answer ⟨op, ans⟩ f f') :
    f' = f := by
  rcases quiet with rfl | rfl <;> cases ans <;> exact answered

theorem answer_write {bytes : List UInt8} {ans : Except ProtocolError Unit} {f f' : File}
    (answered : File.Answer ⟨.write bytes, ans⟩ f f') :
    ∃ part, part <+: bytes ∧ f' = f.extend part := by
  cases ans with
  | ok => exact ⟨bytes, List.prefix_refl _, answered⟩
  | error => exact answered

theorem answer_sync {j : Journal R} {piece : List UInt8} {ans : Except ProtocolError Unit}
    {f f' : File} (written : Written format j piece f)
    (answered : File.Answer ⟨.syncAll, ans⟩ f f') : Written format j piece f' := by
  cases ans with
  | ok =>
    cases answered
    refine ⟨written.1, ?_⟩
    have full := @syncedLength_le R format j
    change _ ≤ f.bytes.length
    rw [written.1, List.length_append]
    omega
  | error =>
    cases answered
    exact written

theorem appendRecord_keeping (record : R) :
    Keeping format (.append record) (appendRecord format record).run := by
  refine keeping_of_intact fun f j tail glued bytes free whole within durable => ?_
  cases torn : j.torn with
  | true =>
    have gluing (ans : Except ProtocolError Unit) (g : File) :
        ∃ j', Journal.Answer j j' (.append record) ans ∧ Keeps format g j' := by
      refine ⟨{ j with glued := true }, ?_, .inl rfl⟩
      cases ans with
      | ok => exact .inr ⟨torn, rfl⟩
      | error => exact .inr ⟨torn, .inr rfl⟩
    exact safe_always gluing (fun g => ⟨.ok (), gluing _ g⟩) _ f
  | false =>
    have ends := @append_ends R format j record torn within
    have stops {piece : List UInt8} (cut : piece <+: format.line record ++ [newline]) {g : File}
        (written : Written format j piece g) :
        ∃ ans j', Journal.Answer j j' (.append record) ans ∧ Keeps format g j' :=
      ⟨.error .conflict, ends cut written _⟩
    have start : Written format j [] f := ⟨by rw [bytes, whole torn], durable⟩
    have none : [] <+: format.line record ++ [newline] := List.nil_prefix
    have all : format.line record ++ [newline] <+: format.line record ++ [newline] :=
      List.prefix_refl _
    -- prepare
    refine safe_file (fun ans g answered => stops none (answer_unchanged (.inl rfl) answered ▸ start))
      (fun e g answered => ends none (answer_unchanged (.inl rfl) answered ▸ start) e) ?_
    intro _ g answered
    rw [answer_unchanged (.inl rfl) answered]
    -- exists
    refine safe_file (fun ans g answered => ?_) (fun e g answered => nomatch answered) ?_
    · cases ans with
      | ok => exact stops none (answered.1 ▸ start)
      | error => exact nomatch answered
    intro existed g answered
    obtain ⟨rfl, _⟩ := answered
    -- open
    have opened {ans : Except ProtocolError Unit} {f' : File}
        (answered : File.Answer ⟨.«open», ans⟩ g f') : Written format j [] f' := by
      cases ans with
      | ok =>
        cases answered
        exact written_extend start []
      | error =>
        rcases answered with rfl | rfl
        · exact start
        · exact written_extend start []
    refine safe_file (fun ans f' answered => stops none (opened answered))
      (fun e f' answered => ends none (opened answered) e) fun _ f' answered => ?_
    replace opened := opened answered
    clear answered
    -- write the line
    have partly {part : List UInt8} (cut : part <+: format.line record) :
        part <+: format.line record ++ [newline] := cut.trans (List.prefix_append _ _)
    refine safe_file (fun ans f'' answered => ?_) (fun e f'' answered => ?_) fun _ f'' answered => ?_
    · obtain ⟨part, cut, rfl⟩ := answer_write answered
      exact stops (partly cut) (written_extend opened part)
    · obtain ⟨part, cut, rfl⟩ := answer_write answered
      exact ends (partly cut) (written_extend opened part) e
    have line : Written format j (format.line record) f'' := by
      cases answered
      exact written_extend opened _
    clear answered
    -- write the newline
    have ended {part : List UInt8} (cut : part <+: [newline]) :
        format.line record ++ part <+: format.line record ++ [newline] :=
      (List.prefix_append_right_inj _).mpr cut
    refine safe_file (fun ans h answered => ?_) (fun e h answered => ?_) fun _ h answered => ?_
    · obtain ⟨part, cut, rfl⟩ := answer_write answered
      exact stops (ended cut) (written_extend line part)
    · obtain ⟨part, cut, rfl⟩ := answer_write answered
      exact ends (ended cut) (written_extend line part) e
    have written : Written format j (format.line record ++ [newline]) h := by
      cases answered
      exact written_extend line _
    clear answered
    -- sync the file, and the directory of a new file
    refine safe_file (fun ans h' answered => stops all (answer_sync written answered))
      (fun e h' answered => ends all (answer_sync written answered) e) fun _ h' answered => ?_
    have flushed : Written format j (format.line record ++ [newline]) h' :=
      answer_sync written answered
    have synced : h'.durable = h'.bytes.length := by
      cases answered
      rfl
    cases existed with
    | true => exact append_synced torn flushed synced
    | false =>
      refine safe_file_last (fun ans h'' answered => ?_) fun ans h'' answered => ?_
      · exact stops all (answer_unchanged (.inr rfl) answered ▸ flushed)
      · rw [answer_unchanged (.inr rfl) answered]
        cases ans with
        | ok => exact append_synced torn flushed synced
        | error e => exact ends all flushed e

/-- A loss of power is a loss of the journal's. -/
theorem loses_keeps {f f' : File} {j : Journal R} (keeps : Keeps format f j)
    (lost : File.Loses f f') : ∃ j', j.Loses j' ∧ Keeps format f' j' := by
  cases glued : j.glued with
  | true => exact ⟨j, by rw [Journal.Loses, if_pos glued], .inl glued⟩
  | false =>
    rcases keeps with bad | ⟨tail, bytes, free, _, within, durable⟩
    · rw [glued] at bad; contradiction
    obtain ⟨length, kept, rfl⟩ := lost
    have cut : f.bytes.take length = (f.truncate length).bytes := (bytes_truncate f length).symm
    -- the file is cut in its complete part, or in the tail
    have pieces : ∃ k tail', f.bytes.take length =
        unlines ((j.records.take k).map format.line) ++ tail' ∧ newline ∉ tail' ∧
        j.synced ≤ k ∧ k ≤ j.records.length := by
      by_cases short : length ≤ (unlines (j.records.map format.line)).length
      · obtain ⟨k, tail', same, free', bound, covers⟩ :=
          take_unlines (@lines_single R format j.records) length
        rw [List.length_map] at bound
        refine ⟨k, tail', ?_, free', covers j.synced ?_ ?_, bound⟩
        · rw [bytes, List.take_append_of_le_length short, same, List.map_take]
        · rw [List.length_map]; exact within
        · rw [← List.map_take]; exact Nat.le_trans durable kept
      · refine ⟨j.records.length, tail.take (length - (unlines (j.records.map format.line)).length),
          ?_, fun member => free (List.mem_of_mem_take member), within, Nat.le_refl _⟩
        rw [bytes, List.take_append, List.take_of_length_le (by omega), List.take_length]
    obtain ⟨k, tail', same, free', reach, bound⟩ := pieces
    refine ⟨⟨j.records.take k, j.synced, true, false⟩, ?_, ?_⟩
    · rw [Journal.Loses, if_neg (by rw [glued]; exact Bool.false_ne_true)]
      exact ⟨k, true, reach, rfl⟩
    · refine .inr ⟨tail', cut.symm.trans same, free', (fun whole => Bool.noConfusion whole), ?_, ?_⟩
      · rw [List.length_take, Nat.min_eq_left bound]; exact reach
      · simp only [List.take_take, Nat.min_eq_left reach]
        exact durable

/-! ### Operations that nothing disturbs -/

section

variable {f : File} {records : List R}

/-- A file of whole records is left as it is by its repair. -/
theorem runs_repair (message : String) (bytes : f.bytes = unlines (records.map format.line)) :
    Prog.Runs File.effects (repairJsonlTail format message).run f (.ok ()) f := by
  obtain ⟨content, durable⟩ := f
  refine .ask (.ok content) ⟨rfl, rfl⟩ ?_
  cases content with
  | none => exact .ret _ _
  | some content =>
    obtain rfl : content = unlines (records.map format.line) := bytes
    have complete : completeLength (unlines (records.map format.line)) =
        (unlines (records.map format.line)).length := by
      simpa only [List.append_nil] using
        completeLength_append (records.map format.line) (List.not_mem_nil (a := newline))
    have valid := @lines_valid R format records
    simp only [Prog.bind, ExceptT.bindCont, complete, List.take_length, valid, if_true, ne_eq,
      not_true_eq_false, if_false]
    exact .ret _ _

/-- It is read as its records. -/
theorem runs_records (bytes : f.bytes = unlines (records.map format.line)) :
    Prog.Runs File.effects (readRecords format).run f (.ok records) f := by
  refine .ask (.ok f.content) ⟨rfl, rfl⟩ ?_
  obtain ⟨content, durable⟩ := f
  cases content with
  | none =>
    have none : records = [] := by
      rcases unlines_getLast? (records.map format.line) with none | last
      · exact List.map_eq_nil_iff.mp none
      · rw [← bytes] at last
        contradiction
    rw [none]
    exact .ret _ _
  | some content =>
    obtain rfl : content = unlines (records.map format.line) := bytes
    change Prog.Runs _ (.ret (parseRecords format _)) _ _ _
    rw [parseRecords_kept]
    exact .ret _ _

/-- An append adds a line to it. -/
theorem runs_append (record : R) (bytes : f.bytes = unlines (records.map format.line)) :
    ∃ f', Prog.Runs File.effects (appendRecord format record).run f (.ok ()) f' ∧
      f'.bytes = unlines ((records ++ [record]).map format.line) := by
  refine ⟨((((f.extend []).extend (format.line record)).extend [newline]).synced), ?_, ?_⟩
  · refine .ask (.ok ()) rfl (.ask (.ok f.content.isSome) ⟨rfl, rfl⟩ (.ask (.ok ()) rfl
      (.ask (.ok ()) rfl (.ask (.ok ()) rfl (.ask (.ok ()) rfl ?_)))))
    cases f.content.isSome with
    | true => exact .ret _ _
    | false => exact .ask (.ok ()) rfl (.ret _ _)
  · simp only [List.map_append, List.map_cons, List.map_nil, unlines_append, unlines_cons,
      unlines_nil, ← bytes]
    simp [File.bytes, File.synced, File.extend]

/-- An append that fails before it writes leaves it as it is. -/
theorem runs_append_error (record : R) (e : ProtocolError) :
    Prog.Runs File.effects (appendRecord format record).run f (.error e) f :=
  .ask (.error e) rfl (.ret _ _)

end

end Praefectus
