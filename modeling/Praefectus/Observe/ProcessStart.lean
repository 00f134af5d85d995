import Praefectus.Observe.Cdp
import Praefectus.Text.Joined
import Praefectus.Text.Sha256
import Praefectus.Text.Words

/-!
# The start time of a process

A process is told from a later one with its number by the boot it runs in and the time it
was started at, which is the 22nd field of a line of the kernel. The second field is the
name of the process, in parentheses, which the process may choose.
-/

namespace Praefectus

/-! ### The two parsers -/

def isDecimal (text : List Char) : Bool := text.all Char.isDigit

namespace Atspi

def parseProcessStartTime (stat : String) : Option String := do
  let (_, fields) ← rsplitOnce [')'] stat.toList
  let startTime ← (splitWhitespace (fields.trimBy isWhitespace))[19]?
  if isDecimal startTime then some (.ofList startTime) else none

def isLowerHex (c : Char) : Bool := c.isDigit || ('a' ≤ c && c ≤ 'f')

def validBootId (value : String) : Bool :=
  value.utf8ByteSize = 36 && value.toList.zipIdx.all fun (c, index) =>
    if index = 8 || index = 13 || index = 18 || index = 23 then c = '-' else isLowerHex c

/-- What is read of the two files, if they can be read. -/
def processGeneration (build : Build) (stat bootId : Option String) : Except ProtocolError String :=
  match stat with
  | none => throw (.staleTarget "target process disappeared")
  | some stat =>
    match parseProcessStartTime stat, bootId with
    | some startTime, some bootId =>
      if validBootId (trim bootId) then
        pure (hashSerializable build (.arr [.str (trim bootId), .str startTime]))
      else throw (.staleTarget "target process changed")
    | _, _ => throw (.staleTarget "target process changed")

end Atspi

namespace Cdp

/-- The part of `live_process_generation` that reads the line. -/
def startTicks (stat : String) : Option String := do
  let (_, fields) ← rsplitOnce [')', ' '] stat.toList
  let startTicks ← (splitWhitespace fields)[19]?
  if isDecimal startTicks then some (.ofList startTicks) else none

def isHexDigit (c : Char) : Bool := c.isDigit || ('a' ≤ c && c ≤ 'f') || ('A' ≤ c && c ≤ 'F')

def liveProcessGeneration (build : Build) (stat bootId : Option String) :
    Except CdpError String :=
  match bootId with
  | none => throw .staleTarget
  | some bootId =>
    if (trim bootId).utf8ByteSize ≠ 36 ||
        !(trim bootId).toList.all (fun c => isHexDigit c || c = '-') then throw .staleTarget
    else match stat.bind startTicks with
      | some startTicks =>
        pure ("linux-" ++ hashSerializable build (.arr [.str (trim bootId), .str startTicks]))
      | none => throw .staleTarget

end Cdp

/-! ### Lines of the kernel -/

/-- A line that the kernel writes: a name that may be any text, and fields that hold neither
white space nor parentheses. -/
structure StatLine where
  pid : Nat
  comm : String
  fields : List String
  filled : ∀ field ∈ fields, field ≠ ""
  plain : ∀ field ∈ fields, ∀ c ∈ field.toList, isWhitespace c = false ∧ c ≠ ')'

namespace StatLine

variable (line : StatLine)

def text : String :=
  toString line.pid ++ " (" ++ line.comm ++ ") " ++ " ".intercalate line.fields ++ "\n"

/-- The 22nd field, counting the number and the name, if it is decimal. -/
def startTime : Option String := line.fields[19]?.filter fun field => isDecimal field.toList

/-- What is before the last parenthesis, and what is after it. -/
def front : List Char := (toString line.pid ++ " (" ++ line.comm).toList

def back : List Char := [' '].intercalate (line.fields.map String.toList) ++ ['\n']

theorem text_cut : line.text.toList = line.front ++ ')' :: ' ' :: line.back := by
  simp only [text, front, back, String.toList_append, String.toList_intercalate,
    List.append_assoc]
  rfl

theorem words_back : splitWhitespace line.back = line.fields.map String.toList := by
  refine splitWhitespace_words ?_ ?_ (List.forall_mem_singleton.mpr rfl)
  · intro word member
    obtain ⟨field, listed, rfl⟩ := List.mem_map.mp member
    exact fun empty => line.filled field listed (String.toList_eq_nil_iff.mp empty)
  · intro word member c inside
    obtain ⟨field, listed, rfl⟩ := List.mem_map.mp member
    exact (line.plain field listed c inside).1

theorem notMem_back : ')' ∉ line.back := by
  intro member
  rcases List.mem_append.mp member with inside | newline
  · rcases mem_intercalate inside with space | ⟨part, listed, found⟩
    · exact absurd space (by decide)
    · obtain ⟨field, member, rfl⟩ := List.mem_map.mp listed
      exact (line.plain field member _ found).2 rfl
  · exact absurd newline (by decide)

/-- Whichever way the line is cut, the words after the name are its fields. -/
theorem parse_eq :
    Atspi.parseProcessStartTime line.text = line.startTime ∧
      Cdp.startTicks line.text = line.startTime := by
  have cut : rsplitOnce [')'] line.text.toList = some (line.front, ' ' :: line.back) := by
    rw [text_cut, List.append_cons]
    refine rsplitOnce_last ?_
    rw [List.nil_append]
    exact fun member => line.notMem_back ((List.mem_cons.mp member).resolve_left (by decide))
  have cut' : rsplitOnce [')', ' '] line.text.toList = some (line.front, line.back) := by
    have same : line.front ++ ')' :: ' ' :: line.back =
        line.front ++ [')', ' '] ++ line.back := by simp
    rw [text_cut, same]
    refine rsplitOnce_last ?_
    exact fun member => line.notMem_back ((List.mem_cons.mp member).resolve_left (by decide))
  have words : splitWhitespace ((' ' :: line.back).trimBy isWhitespace) =
      line.fields.map String.toList := by
    rw [splitWhitespace_trim, ← List.singleton_append, splitWhitespace_before (List.forall_mem_singleton.mpr rfl),
      words_back]
  have picked : ((line.fields.map String.toList)[19]?.bind fun startTime =>
      if isDecimal startTime then some (String.ofList startTime) else none) = line.startTime := by
    rw [List.getElem?_map, startTime]
    cases line.fields[19]? with
    | none => rfl
    | some field => simp [Option.filter]
  constructor
  · rw [Atspi.parseProcessStartTime, cut]
    exact (congrArg (fun words => words[19]?.bind _) words).trans picked
  · rw [Cdp.startTicks, cut']
    exact (congrArg (fun words => words[19]?.bind _) line.words_back).trans picked

end StatLine

/-! ### Generations -/

section

variable {build : Build} {stat bootId : Option String} {generation : String}

theorem Atspi.processGeneration_ok
    (generated : Atspi.processGeneration build stat bootId = .ok generation) :
    ∃ line boot startTime, stat = some line ∧ bootId = some boot ∧
      Atspi.parseProcessStartTime line = some startTime ∧
      generation = hashSerializable build (.arr [.str (trim boot), .str startTime]) := by
  unfold Atspi.processGeneration at generated
  split at generated
  · cases generated
  next line =>
    split at generated
    next startTime boot parsed =>
      split at generated
      · exact ⟨line, boot, startTime, rfl, rfl, parsed, (Except.ok.inj generated).symm⟩
      · cases generated
    · cases generated

theorem Cdp.liveProcessGeneration_ok
    (generated : Cdp.liveProcessGeneration build stat bootId = .ok generation) :
    ∃ line boot startTime, stat = some line ∧ bootId = some boot ∧
      Cdp.startTicks line = some startTime ∧
      generation = "linux-" ++ hashSerializable build (.arr [.str (trim boot), .str startTime]) := by
  unfold Cdp.liveProcessGeneration at generated
  split at generated
  · cases generated
  next boot =>
    split at generated
    · cases generated
    split at generated
    next startTime parsed =>
      obtain ⟨line, rfl, parsed⟩ := Option.bind_eq_some_iff.mp parsed
      exact ⟨line, boot, startTime, rfl, rfl, parsed, (Except.ok.inj generated).symm⟩
    · cases generated

/-- Two processes of one generation were started in one boot and at one time. -/
def StatLine.SameStart (line other : StatLine) (bootId other' : String) : Prop :=
  trim bootId = trim other' ∧ ∃ startTime, line.startTime = some startTime ∧
    other.startTime = some startTime

theorem generation_injective (distinct : Function.Injective build.sha256)
    {boot boot' startTime startTime' : String}
    (same : hashSerializable build (.arr [.str boot, .str startTime]) =
      hashSerializable build (.arr [.str boot', .str startTime'])) :
    boot = boot' ∧ startTime = startTime' := by
  have values := Json.arr.inj (hashSerializable_injective distinct same)
  obtain ⟨boots, rest⟩ := List.cons.inj values
  exact ⟨Json.str.inj boots, Json.str.inj (List.cons.inj rest).1⟩

end

/-- **The start time does not depend on the name.** -/
theorem start_time_exact (line : StatLine) :
    Atspi.parseProcessStartTime line.text = line.startTime ∧
    Cdp.startTicks line.text = line.startTime ∧
    ∀ (build : Build) (other : StatLine) (bootId bootId' generation : String),
      Function.Injective build.sha256 →
      (Atspi.processGeneration build (some line.text) (some bootId) = .ok generation →
        Atspi.processGeneration build (some other.text) (some bootId') = .ok generation →
        line.SameStart other bootId bootId') ∧
      (Cdp.liveProcessGeneration build (some line.text) (some bootId) = .ok generation →
        Cdp.liveProcessGeneration build (some other.text) (some bootId') = .ok generation →
        line.SameStart other bootId bootId') := by
  refine ⟨line.parse_eq.1, line.parse_eq.2, fun build other bootId bootId' generation distinct => ?_⟩
  constructor
  · intro first second
    obtain ⟨_, _, startTime, ⟨rfl⟩, ⟨rfl⟩, parsed, rfl⟩ := Atspi.processGeneration_ok first
    obtain ⟨_, _, startTime', ⟨rfl⟩, ⟨rfl⟩, parsed', same⟩ := Atspi.processGeneration_ok second
    obtain ⟨boots, rfl⟩ := generation_injective distinct same
    rw [line.parse_eq.1] at parsed
    rw [other.parse_eq.1] at parsed'
    exact ⟨boots, startTime, parsed, parsed'⟩
  · intro first second
    obtain ⟨_, _, startTime, ⟨rfl⟩, ⟨rfl⟩, parsed, rfl⟩ := Cdp.liveProcessGeneration_ok first
    obtain ⟨_, _, startTime', ⟨rfl⟩, ⟨rfl⟩, parsed', same⟩ := Cdp.liveProcessGeneration_ok second
    obtain ⟨boots, rfl⟩ := generation_injective distinct ((String.append_right_inj "linux-").mp same)
    rw [line.parse_eq.2] at parsed
    rw [other.parse_eq.2] at parsed'
    exact ⟨boots, startTime, parsed, parsed'⟩

def imitatingFields : List String :=
  ["S", "1", "2", "3", "4", "5", "6", "7", "8", "9", "10", "11", "12", "13", "14", "15",
    "16", "17", "18", "123456", "20"]

theorem imitatingFields_plain : imitatingFields.all (fun field => field ≠ "" ∧
    field.toList.all fun c => isWhitespace c = false ∧ c ≠ ')') = true := by
  decide

/-- A process that names itself after the end of another's line. -/
def imitating : StatLine where
  pid := 42
  comm := "x) S 1 2 3 4 5 6 7 8 9 10 11 12 13 14 15 16 17 18 7 (y"
  fields := imitatingFields
  filled field listed := (of_decide_eq_true (List.all_eq_true.mp imitatingFields_plain field listed)).1
  plain field listed c inside := of_decide_eq_true (List.all_eq_true.mp
    (of_decide_eq_true (List.all_eq_true.mp imitatingFields_plain field listed)).2 c inside)

/-- Its child, which it has started at once. -/
def imitatingChild : StatLine :=
  { imitating with pid := 43, comm := ") Z 42 (" }

def startBootId : String := "01234567-89ab-cdef-0123-456789abcdef"

def startBuild : Build := ⟨false, Sha256.Messages.digest
  ⟨[canonicalJsonBytes (.arr [.str (trim startBootId), .str "123456"])], List.nodup_singleton _⟩⟩

def startGeneration : String :=
  hashSerializable startBuild (.arr [.str (trim startBootId), .str "123456"])

/-- Both have one generation, however they are named. -/
theorem start_time_exact_imitating :
    Atspi.parseProcessStartTime imitating.text = some "123456" ∧
    Cdp.startTicks imitatingChild.text = some "123456" ∧
    Atspi.processGeneration startBuild (some imitating.text) (some startBootId) =
      .ok startGeneration ∧
    Atspi.processGeneration startBuild (some imitatingChild.text) (some startBootId) =
      .ok startGeneration ∧
    imitating.SameStart imitatingChild startBootId startBootId := by
  have exact := start_time_exact imitating
  have exactChild := start_time_exact imitatingChild
  have start : imitating.startTime = some "123456" := by decide +kernel
  have startChild : imitatingChild.startTime = some "123456" := start
  have boot : Atspi.validBootId (trim startBootId) = true := by decide +kernel
  have generated {line : StatLine}
      (parsed : Atspi.parseProcessStartTime line.text = some "123456") :
      Atspi.processGeneration startBuild (some line.text) (some startBootId) =
        .ok startGeneration := by
    unfold Atspi.processGeneration
    dsimp only
    rw [parsed]
    exact if_pos boot
  have parsed := exact.1.trans start
  have parsedChild := exactChild.1.trans startChild
  exact ⟨parsed, exactChild.2.1.trans startChild, generated parsed, generated parsedChild,
    (exact.2.2 startBuild imitatingChild _ _ _ (Sha256.Messages.digest_injective _)).1
      (generated parsed) (generated parsedChild)⟩

end Praefectus
