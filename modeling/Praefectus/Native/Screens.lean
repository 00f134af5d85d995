import Praefectus.Native.Coordinates
import Praefectus.Observe.CdpChannel
import Praefectus.Observe.CdpTree
import Praefectus.Text.Sha256

/-!
# Screens of a Wayland session

The screens are read from what a tool prints: a line that is not indented starts an output, and
indented lines tell of it. Of these only the one that says whether the output is enabled is looked
at, so that every output is taken to be at the origin and of one size. The screens that are listed
are the real ones exactly where all outputs happen to be so.
-/

/-! ### Lines of a text -/

/-- `str::lines`: a line ends before its newline, and before a carriage return that precedes it. -/
def textLines : List Char → List (List Char)
  | [] => []
  | '\n' :: rest => [] :: textLines rest
  | '\r' :: '\n' :: rest => [] :: textLines rest
  | c :: rest =>
    match textLines rest with
    | [] => [[c]]
    | line :: lines => (c :: line) :: lines

/-- A line without the carriage return at its end. -/
def chomp : List Char → List Char
  | [] => []
  | ['\r'] => []
  | c :: rest => c :: chomp rest

theorem textLines_line {line : List Char} (single : '\n' ∉ line) (rest : List Char) :
    textLines (line ++ '\n' :: rest) = chomp line :: textLines rest := by
  induction line using chomp.induct with
  | case1 => rfl
  | case2 => rfl
  | case3 c line last ih =>
    rw [List.mem_cons, not_or] at single
    have onward := ih single.2
    have first : c ≠ '\n' := fun same => single.1 same.symm
    rw [List.cons_append, chomp]
    · rw [textLines, onward]
      · exact first
      · intro rest' same whole
        -- the newline would be the one behind the line
        cases line with
        | nil => exact last same rfl
        | cons d line =>
          rw [List.cons_append, List.cons.injEq] at whole
          exact single.2 (by rw [whole.1]; exact List.mem_cons_self)
    · exact last

theorem chomp_cons {c : Char} {line : List Char} (more : line ≠ []) :
    chomp (c :: line) = c :: chomp line := by
  rw [chomp]
  rintro rfl rfl
  exact more rfl

/-- What comes before a character other than a carriage return is kept with it. -/
theorem chomp_append {c : Char} (other : c ≠ '\r') (front rest : List Char) :
    ∃ rest', chomp (front ++ c :: rest) = front ++ c :: rest' := by
  induction front with
  | nil =>
    cases rest with
    | nil =>
      refine ⟨[], ?_⟩
      rw [List.nil_append, chomp, chomp]
      intro same
      exact absurd same other
    | cons d rest => exact ⟨_, chomp_cons (List.cons_ne_nil d rest)⟩
  | cons d front ih =>
    obtain ⟨rest', kept⟩ := ih
    refine ⟨rest', ?_⟩
    rw [List.cons_append, chomp_cons (by simp), kept]
    rfl

theorem chomp_concat {c : Char} (other : c ≠ '\r') (front : List Char) :
    chomp (front ++ [c]) = front ++ [c] := by
  induction front with
  | nil =>
    rw [List.nil_append, chomp, chomp]
    intro same
    exact absurd same other
  | cons d front ih =>
    rw [List.cons_append, chomp_cons (by simp), ih]

namespace Praefectus.Native

open Prog Json

/-! ### What the tool prints -/

/-- A text on one line. -/
structure SingleLine where
  text : List Char
  single : '\n' ∉ text

/-- The name of an output: one word. -/
structure OutputName where
  text : String
  nonempty : text.toList ≠ []
  word : text.toList.all (!isWhitespace ·) = true

theorem OutputName.isWhitespace (name : OutputName) :
    ∀ c ∈ name.text.toList, Praefectus.isWhitespace c = false := by
  intro c member
  simpa using List.all_eq_true.mp name.word c member

/-- What else is printed of an output. -/
inductive WlrProperty where
  | make | model | serial | physicalSize | transform | scale | adaptiveSync

def WlrProperty.label : WlrProperty → List Char
  | .make => "Make".toList
  | .model => "Model".toList
  | .serial => "Serial".toList
  | .physicalSize => "Physical size".toList
  | .transform => "Transform".toList
  | .scale => "Scale".toList
  | .adaptiveSync => "Adaptive Sync".toList

structure WlrMode where
  width : Int64
  height : Int64
  rate : SingleLine

/-- Where an enabled output is, and how large. -/
structure WlrPlace where
  x : Int64
  y : Int64
  current : WlrMode
  properties : List (WlrProperty × SingleLine)

/-- An output, with a place if it is enabled. -/
structure WlrOutput where
  name : OutputName
  description : SingleLine
  properties : List (WlrProperty × SingleLine)
  modes : List WlrMode
  otherModes : List WlrMode
  place : Option WlrPlace

def propertyLine (entry : WlrProperty × SingleLine) : List Char :=
  "  ".toList ++ (entry.1.label ++ (": ".toList ++ entry.2.text))

def modeLine (suffix : List Char) (mode : WlrMode) : List Char :=
  "    ".toList ++ (printInt mode.width.toInt ++ ("x".toList ++ (printInt mode.height.toInt ++
    (" px, ".toList ++ (mode.rate.text ++ suffix)))))

def positionLine (place : WlrPlace) : List Char :=
  "  ".toList ++ ("Position: ".toList ++
    (printInt place.x.toInt ++ (",".toList ++ printInt place.y.toInt)))

namespace WlrOutput

variable (output : WlrOutput)

def enabled : Bool := output.place.isSome

def header : List Char :=
  output.name.text.toList ++ (" \"".toList ++ (output.description.text ++ "\"".toList))

def enabledLine : List Char :=
  if output.enabled then "  Enabled: yes".toList else "  Enabled: no".toList

/-- What follows the line that says whether the output is enabled. -/
def placeLines : List (List Char) :=
  "  Modes:".toList :: (output.modes.map (modeLine []) ++
    (output.place.toList.map (fun place => modeLine " (current)".toList place.current) ++
      (output.otherModes.map (modeLine []) ++ output.place.toList.flatMap fun place =>
        positionLine place :: place.properties.map propertyLine)))

def details : List (List Char) :=
  output.properties.map propertyLine ++ output.enabledLine :: output.placeLines

def lines : List (List Char) := output.header :: output.details

end WlrOutput

/-- The text of a listing: every line with its newline. -/
def printListing (listing : List WlrOutput) : List Char :=
  (listing.flatMap WlrOutput.lines).flatMap (· ++ ['\n'])

/-! ### How it is read -/

def screenJson (name : String) (x y width height : Int64) : Json := .obj [
  ("display_id", .str name), ("x", ofInt64 x), ("y", ofInt64 y), ("width", ofInt64 width),
  ("height", ofInt64 height)]

structure Scan where
  displays : List Json
  currentName : Option String
  currentEnabled : Bool

namespace Scan

def start : Scan := ⟨[], none, false⟩

/-- The displays, with the output that was read last. -/
def finish (scan : Scan) : List Json :=
  match scan.currentName with
  | some name =>
    if scan.currentEnabled then scan.displays ++ [screenJson name 0 0 1920 1080] else scan.displays
  | none => scan.displays

def firstWord (text : List Char) : String :=
  .ofList ((text.dropWhile isWhitespace).takeWhile (!isWhitespace ·))

def line (scan : Scan) (line : List Char) : Scan :=
  let trimmed := line.trimBy isWhitespace
  if line.head? ≠ some ' ' ∧ line.head? ≠ some '\t' ∧ trimmed ≠ [] then
    ⟨scan.finish, some (firstWord trimmed), false⟩
  else if "Enabled:".toList <+: trimmed then
    { scan with currentEnabled := "yes".toList <:+: trimmed }
  else scan

end Scan

def parseWlrRandr (stdout : List UInt8) : Except NativeError Json :=
  match decodeUtf8 stdout with
  | none => throw ⟨⟩
  | some text =>
    let displays := ((textLines text).foldl Scan.line .start).finish
    if displays = [] then throw ⟨⟩ else pure (.arr displays)

def swaymsgOutput (output : Json) : Option Json :=
  let name := ((output.get? "name").bind Json.asStr).getD "unknown"
  let rect := output.get? "rect"
  let bound (key : String) := (rect.bind (·.get? key)).bind asI64
  let x := (bound "x").getD 0
  let y := (bound "y").getD 0
  let width := (bound "width").getD 1920
  let height := (bound "height").getD 1080
  if width > 0 ∧ height > 0 then some (screenJson name x y width height) else none

def parseSwaymsgOutputs (stdout : List UInt8) : Except NativeError Json :=
  match ((decodeUtf8 stdout).bind fun text => Cdp.fromStr (.ofList text)).bind Cdp.asArray with
  | none => throw ⟨⟩
  | some outputs =>
    let displays := outputs.filterMap swaymsgOutput
    if displays = [] then throw ⟨⟩ else pure (.arr displays)

/-- The screens of a session, from what the tools print where they are there and succeed. -/
def waylandScreens (wlrRandr swaymsg : Option (List UInt8)) : Except NativeError Json :=
  match wlrRandr, swaymsg with
  | some stdout, _ => parseWlrRandr stdout
  | none, some stdout => parseSwaymsgOutputs stdout
  | none, none => pure (.arr [screenJson "0" 0 0 1920 1080])

/-! ### One output -/

/-- An indented line that does not start with the letter of the line that is looked at. -/
structure IsQuiet (line : List Char) : Prop where
  shape : ∃ blanks c rest, line = ' ' :: blanks ++ c :: rest ∧
    blanks.all isWhitespace = true ∧ isWhitespace c = false ∧ c ≠ 'E'
  single : '\n' ∉ line

theorem trimBy_indented {blanks : List Char} {c : Char} (rest : List Char)
    (blank : ∀ b ∈ blanks, isWhitespace b = true) (solid : isWhitespace c = false) :
    ∃ rest', (blanks ++ c :: rest).trimBy isWhitespace = c :: rest' := by
  have dropped : (blanks ++ c :: rest).dropWhile isWhitespace = c :: rest := by
    rw [List.dropWhile_append_of_pos blank, List.dropWhile_cons_of_neg (by simp [solid])]
  rw [List.trimBy, dropped]
  have part := List.rdropWhile_prefix isWhitespace (c :: rest)
  cases left : (c :: rest).rdropWhile isWhitespace with
  | nil =>
    have all := List.rdropWhile_eq_nil_iff.mp left c List.mem_cons_self
    rw [solid] at all
    cases all
  | cons d rest' =>
    rw [left] at part
    obtain ⟨rfl, _⟩ := List.cons_prefix_cons.mp part
    exact ⟨rest', rfl⟩

theorem isWhitespace_return : isWhitespace '\r' = true := by decide

theorem line_quiet {line : List Char} (quiet : IsQuiet line) (scan : Scan) :
    scan.line (chomp line) = scan := by
  obtain ⟨blanks, c, rest, rfl, blank, solid, other⟩ := quiet.shape
  have noReturn : c ≠ '\r' := by
    rintro rfl
    rw [isWhitespace_return] at solid
    cases solid
  obtain ⟨rest', stripped⟩ := chomp_append noReturn (' ' :: blanks) rest
  have spaces : ∀ b ∈ ' ' :: blanks, isWhitespace b = true :=
    List.forall_mem_cons.mpr ⟨by decide, List.all_eq_true.mp blank⟩
  obtain ⟨rest'', trimmed⟩ := trimBy_indented rest' spaces solid
  rw [stripped, Scan.line, trimmed]
  have head : ((' ' :: blanks ++ c :: rest').head? ≠ some ' ' ∧
      (' ' :: blanks ++ c :: rest').head? ≠ some '\t' ∧ c :: rest'' ≠ []) = False := by
    simp
  have elsewhere : ¬ "Enabled:".toList <+: c :: rest'' := by
    intro start
    exact other (List.cons_prefix_cons.mp start).1.symm
  simp only [head, if_false, elsewhere]

theorem quiet_property (entry : WlrProperty × SingleLine) : IsQuiet (propertyLine entry) := by
  obtain ⟨property, value, single⟩ := entry
  constructor
  · cases property with
    | make | model => exact ⟨[' '], 'M', _, rfl, by decide, by decide, by decide⟩
    | serial | scale => exact ⟨[' '], 'S', _, rfl, by decide, by decide, by decide⟩
    | physicalSize => exact ⟨[' '], 'P', _, rfl, by decide, by decide, by decide⟩
    | transform => exact ⟨[' '], 'T', _, rfl, by decide, by decide, by decide⟩
    | adaptiveSync => exact ⟨[' '], 'A', _, rfl, by decide, by decide, by decide⟩
  · have label : '\n' ∉ property.label := by cases property <;> decide
    simp [propertyLine, label, single]

theorem printInt_single (n : Int) : '\n' ∉ printInt n := by
  intro member
  have visible := printInt_visible n _ member
  exact absurd visible (by decide)

theorem quiet_mode {suffix : List Char} (single : '\n' ∉ suffix) (mode : WlrMode) :
    IsQuiet (modeLine suffix mode) := by
  constructor
  · obtain ⟨c, text, printed, digit⟩ := int_head mode.width.toInt
    refine ⟨"   ".toList, c, text ++ ("x".toList ++ (printInt mode.height.toInt ++
      (" px, ".toList ++ (mode.rate.text ++ suffix)))), ?_, by decide, ?_, ?_⟩
    · rw [modeLine, printed]
      rfl
    · rcases digit with rfl | digit
      · decide
      · exact Cdp.digit_not_space digit
    · rcases digit with rfl | digit
      · decide
      · rintro rfl
        cases digit
  · simp [modeLine, printInt_single, mode.rate.single, single]

theorem quiet_position (place : WlrPlace) : IsQuiet (positionLine place) := by
  constructor
  · exact ⟨[' '], 'P', _, rfl, by decide, by decide, by decide⟩
  · simp [positionLine, printInt_single]

theorem quiet_placeLines (output : WlrOutput) : ∀ line ∈ output.placeLines, IsQuiet line := by
  have modes : IsQuiet "  Modes:".toList :=
    ⟨⟨[' '], 'M', _, rfl, by decide, by decide, by decide⟩, by decide⟩
  have plain (modes : List WlrMode) : ∀ line ∈ modes.map (modeLine []), IsQuiet line :=
    List.forall_mem_map.mpr fun mode _ => quiet_mode List.not_mem_nil mode
  rw [WlrOutput.placeLines, List.forall_mem_cons, List.forall_mem_append, List.forall_mem_append,
    List.forall_mem_append]
  refine ⟨modes, plain _, ?_, plain _, ?_⟩
  · exact List.forall_mem_map.mpr fun place _ => quiet_mode (by decide) place.current
  · refine List.forall_mem_flatMap.mpr fun place _ => ?_
    refine List.forall_mem_cons.mpr ⟨quiet_position place, ?_⟩
    exact List.forall_mem_map.mpr fun entry _ => quiet_property entry

theorem line_enabled (output : WlrOutput) (scan : Scan) :
    scan.line (chomp output.enabledLine) = { scan with currentEnabled := output.enabled } := by
  have yes : (chomp "  Enabled: yes".toList).trimBy isWhitespace = "Enabled: yes".toList := by
    decide +kernel
  have no : (chomp "  Enabled: no".toList).trimBy isWhitespace = "Enabled: no".toList := by
    decide +kernel
  unfold WlrOutput.enabledLine
  cases output.enabled with
  | true =>
    simp only [if_true, Scan.line, yes]
    rfl
  | false =>
    simp only [Bool.false_eq_true, if_false, Scan.line, no]
    rfl

theorem line_header (output : WlrOutput) (scan : Scan) :
    scan.line (chomp output.header) = ⟨scan.finish, some output.name.text, false⟩ := by
  obtain ⟨c, rest, named⟩ := List.exists_cons_of_ne_nil output.name.nonempty
  have word := output.name.isWhitespace
  have solid : isWhitespace c = false := word c (by rw [named]; exact List.mem_cons_self)
  have quoted : output.header = (output.name.text.toList ++
      (" \"".toList ++ output.description.text)) ++ ['"'] := by
    simp [WlrOutput.header]
  have chomped : chomp output.header = output.header := by
    rw [quoted]
    exact chomp_concat (by decide) _
  have first : output.header.dropWhile isWhitespace = output.header := by
    rw [WlrOutput.header, named, List.cons_append, List.dropWhile_cons_of_neg (by simp [solid])]
  have trimmed : output.header.trimBy isWhitespace = output.header := by
    rw [List.trimBy, first, quoted]
    exact List.rdropWhile_concat_neg _ _ _ (by decide)
  have found : Scan.firstWord output.header = output.name.text := by
    have inside : ∀ a ∈ output.name.text.toList, (!isWhitespace a) = true := by
      intro a member
      rw [word a member]
      rfl
    have blank : (" \"".toList ++ (output.description.text ++ "\"".toList)).takeWhile
        (!isWhitespace ·) = [] := List.takeWhile_cons_of_neg (by decide)
    rw [Scan.firstWord, first, WlrOutput.header, List.takeWhile_append_of_pos inside, blank,
      List.append_nil, String.ofList_toList]
  have head : output.header.head? = some c := by
    rw [WlrOutput.header, named]
    rfl
  have starts : output.header.head? ≠ some ' ' ∧ output.header.head? ≠ some '\t' ∧
      output.header ≠ [] := by
    rw [head]
    refine ⟨?_, ?_, ?_⟩
    · rintro ⟨⟩
      exact absurd solid (by decide)
    · rintro ⟨⟩
      exact absurd solid (by decide)
    · rw [quoted]
      simp
  rw [chomped, Scan.line, trimmed]
  simp only [starts, not_false_eq_true, ne_eq, and_self, if_true, found]

theorem foldl_quiet {lines : List (List Char)} (quiet : ∀ line ∈ lines, IsQuiet line) (scan : Scan) :
    (lines.map chomp).foldl Scan.line scan = scan := by
  induction lines with
  | nil => rfl
  | cons line lines ih =>
    obtain ⟨first, rest⟩ := List.forall_mem_cons.mp quiet
    rw [List.map_cons, List.foldl_cons, line_quiet first, ih rest]

/-- After the lines of an output its name is known, and whether it is enabled. -/
theorem foldl_output (output : WlrOutput) (scan : Scan) :
    (output.lines.map chomp).foldl Scan.line scan =
      ⟨scan.finish, some output.name.text, output.enabled⟩ := by
  have properties : ∀ line ∈ output.properties.map propertyLine, IsQuiet line :=
    List.forall_mem_map.mpr fun entry _ => quiet_property entry
  rw [WlrOutput.lines, WlrOutput.details, List.map_cons, List.foldl_cons, line_header,
    List.map_append, List.foldl_append, foldl_quiet properties, List.map_cons, List.foldl_cons,
    line_enabled, foldl_quiet (quiet_placeLines output)]

/-! ### A listing -/

/-- The entry that is made of an enabled output. -/
def standardScreen (output : WlrOutput) : Json := screenJson output.name.text 0 0 1920 1080

theorem foldl_listing (listing : List WlrOutput) (scan : Scan) :
    (((listing.flatMap WlrOutput.lines).map chomp).foldl Scan.line scan).finish =
      scan.finish ++ (listing.filter WlrOutput.enabled).map standardScreen := by
  induction listing generalizing scan with
  | nil => simp
  | cons output listing ih =>
    rw [List.flatMap_cons, List.map_append, List.foldl_append, foldl_output, ih]
    cases enabled : output.enabled <;> simp [Scan.finish, enabled, standardScreen]

theorem lines_single (output : WlrOutput) : ∀ line ∈ output.lines, '\n' ∉ line := by
  have header : '\n' ∉ output.header := by
    have name : '\n' ∉ output.name.text.toList := by
      intro member
      have solid := output.name.isWhitespace _ member
      cases solid
    simp [WlrOutput.header, name, output.description.single]
  have enabled : '\n' ∉ output.enabledLine := by
    unfold WlrOutput.enabledLine
    split <;> decide
  rw [WlrOutput.lines, List.forall_mem_cons, WlrOutput.details, List.forall_mem_append,
    List.forall_mem_cons]
  refine ⟨header, ?_, enabled, fun line member => (quiet_placeLines output line member).single⟩
  exact List.forall_mem_map.mpr fun entry _ => (quiet_property entry).single

theorem textLines_unlines {lines : List (List Char)} (single : ∀ line ∈ lines, '\n' ∉ line) :
    textLines (lines.flatMap (· ++ ['\n'])) = lines.map chomp := by
  induction lines with
  | nil => rfl
  | cons line lines ih =>
    obtain ⟨first, rest⟩ := List.forall_mem_cons.mp single
    rw [List.flatMap_cons, List.append_assoc, List.singleton_append, textLines_line first, ih rest]
    rfl

/-- What the tool prints is read as the enabled outputs in their order, each of one place and
size; without any, reading fails. -/
theorem parse_listing (listing : List WlrOutput) :
    parseWlrRandr (utf8 (printListing listing)) =
      if (listing.filter WlrOutput.enabled).map standardScreen = [] then .error ⟨⟩
      else .ok (.arr ((listing.filter WlrOutput.enabled).map standardScreen)) := by
  have single : ∀ line ∈ listing.flatMap WlrOutput.lines, '\n' ∉ line :=
    List.forall_mem_flatMap.mpr fun output _ => lines_single output
  have read := foldl_listing listing .start
  have none : Scan.start.finish = [] := rfl
  rw [none, List.nil_append] at read
  rw [parseWlrRandr, decodeUtf8_utf8, printListing]
  simp only [textLines_unlines single, read]
  rfl

/-! ### The real screens -/

def WlrPlace.screen (place : WlrPlace) (name : String) : Json :=
  screenJson name place.x place.y place.current.width place.current.height

/-- The enabled outputs in their order, each where it is and as large as it is. -/
def realScreens (listing : List WlrOutput) : List Json :=
  listing.filterMap fun output => output.place.map (·.screen output.name.text)

structure WlrPlace.IsStandard (place : WlrPlace) : Prop where
  x : place.x = 0
  y : place.y = 0
  width : place.current.width = 1920
  height : place.current.height = 1080

/-- Some output is enabled, and all that are lie at the origin and have the one size. -/
structure Standard (listing : List WlrOutput) : Prop where
  enabled : ∃ output ∈ listing, output.enabled = true
  places : ∀ output ∈ listing, ∀ place, output.place = some place → place.IsStandard

/-- The hash of the geometry keeps the real screens of two listings apart. -/
def GeometryApart (build : Build) (listing other : List WlrOutput) : Prop :=
  hashSerializable build (.arr (realScreens listing)) =
      hashSerializable build (.arr (realScreens other)) →
    (Json.arr (realScreens listing)).canonicalize = (Json.arr (realScreens other)).canonicalize

/-- The point lies in the rectangle. -/
def WlrPlace.Contains (place : WlrPlace) (x y : Int64) : Prop :=
  (place.x.toInt ≤ x.toInt ∧ x.toInt < place.x.toInt + place.current.width.toInt) ∧
    place.y.toInt ≤ y.toInt ∧ y.toInt < place.y.toInt + place.current.height.toInt

theorem asI64_ofInt64 (n : Int64) : asI64 (ofInt64 n) = some n := by
  have below := n.toInt_lt
  have above := n.le_toInt
  simp only [asI64, ofInt64]
  rw [if_pos ⟨above, below⟩, Int64.ofInt_toInt]

theorem screenJson_unique (name : String) (x y width height : Int64) :
    (screenJson name x y width height).uniqueKeys = true := rfl

/-- The canonical form of a screen tells its name, its place and its size. -/
theorem screenJson_canonicalize {name name' : String} {x y width height x' y' width' height' : Int64}
    (same : (screenJson name x y width height).canonicalize =
      (screenJson name' x' y' width' height').canonicalize) :
    name = name' ∧ x = x' ∧ y = y' ∧ width = width' ∧ height = height' := by
  have member := get?_congr same (screenJson_unique _ _ _ _ _) (screenJson_unique _ _ _ _ _)
  have number {m n : Int64} (same : (some (ofInt64 m)).map canonicalize =
      (some (ofInt64 n)).map canonicalize) : m = n :=
    ofInt64_injective (Option.some.inj same)
  refine ⟨?_, number (member "x"), number (member "y"), number (member "width"),
    number (member "height")⟩
  exact Json.str.inj (Option.some.inj (member "display_id"))

theorem realScreens_shape {listing : List WlrOutput} {screen : Json}
    (member : screen ∈ realScreens listing) : ∃ output ∈ listing, ∃ place,
      output.place = some place ∧ screen = place.screen output.name.text := by
  obtain ⟨output, listed, made⟩ := List.mem_filterMap.mp member
  obtain ⟨place, placed, rfl⟩ := Option.map_eq_some_iff.mp made
  exact ⟨output, listed, place, placed, rfl⟩

theorem standard_screen_iff {place : WlrPlace} {name : String} :
    screenJson name 0 0 1920 1080 = place.screen name ↔ place.IsStandard := by
  constructor
  · intro same
    obtain ⟨_, x, y, width, height⟩ := screenJson_canonicalize (congrArg canonicalize same)
    exact ⟨x.symm, y.symm, width.symm, height.symm⟩
  · rintro ⟨x, y, width, height⟩
    rw [WlrPlace.screen, x, y, width, height]

/-- The entries that are made are the real screens exactly where all places are the standard one. -/
theorem standard_entries_iff (listing : List WlrOutput) :
    (listing.filter WlrOutput.enabled).map standardScreen = realScreens listing ↔
      ∀ output ∈ listing, ∀ place, output.place = some place → place.IsStandard := by
  induction listing with
  | nil => simp [realScreens]
  | cons output listing ih =>
    rw [List.forall_mem_cons, ← ih, realScreens, List.filterMap_cons]
    cases placed : output.place with
    | none => simp [WlrOutput.enabled, placed, realScreens]
    | some place =>
      rw [List.filter_cons_of_pos (by simp [WlrOutput.enabled, placed]), List.map_cons,
        Option.map_some, List.cons.injEq, standardScreen, standard_screen_iff]
      simp [realScreens]

theorem standard_iff (listing : List WlrOutput) :
    parseWlrRandr (utf8 (printListing listing)) = .ok (.arr (realScreens listing)) ↔
      Standard listing := by
  have some_iff : (listing.filter WlrOutput.enabled).map standardScreen ≠ [] ↔
      ∃ output ∈ listing, output.enabled = true := by
    simp [List.filter_eq_nil_iff]
  rw [parse_listing]
  constructor
  · intro parsed
    split at parsed
    · cases parsed
    next more =>
      have same := Json.arr.inj (Except.ok.inj parsed)
      exact ⟨some_iff.mp more, (standard_entries_iff listing).mp same⟩
  · rintro ⟨enabled, places⟩
    rw [if_neg (some_iff.mpr enabled), (standard_entries_iff listing).mpr places]

/-- The canonical forms of screens tell the screens. -/
theorem canonicalize_screens {screens screens' : List Json}
    (shaped : ∀ screen ∈ screens, ∃ name x y width height, screen = screenJson name x y width height)
    (shaped' : ∀ screen ∈ screens', ∃ name x y width height,
      screen = screenJson name x y width height)
    (same : screens.map canonicalize = screens'.map canonicalize) : screens = screens' := by
  induction screens generalizing screens' with
  | nil => exact (List.map_eq_nil_iff.mp same.symm).symm
  | cons screen screens ih =>
    obtain ⟨screen', screens', rfl, first, rest⟩ := List.map_eq_cons_iff.mp same.symm
    obtain ⟨⟨name, x, y, width, height, rfl⟩, others⟩ := List.forall_mem_cons.mp shaped
    obtain ⟨⟨name', x', y', width', height', rfl⟩, others'⟩ := List.forall_mem_cons.mp shaped'
    obtain ⟨rfl, rfl, rfl, rfl, rfl⟩ := screenJson_canonicalize first
    rw [ih others others' rest.symm]

theorem realScreens_canonicalize {listing other : List WlrOutput}
    (same : (Json.arr (realScreens listing)).canonicalize =
      (Json.arr (realScreens other)).canonicalize) : realScreens listing = realScreens other := by
  have items := Json.arr.inj same
  rw [canonicalItems_eq, canonicalItems_eq] at items
  have shaped (listing : List WlrOutput) : ∀ screen ∈ realScreens listing,
      ∃ name x y width height, screen = screenJson name x y width height := by
    intro screen member
    obtain ⟨output, _, place, _, rfl⟩ := realScreens_shape member
    exact ⟨_, _, _, _, _, rfl⟩
  exact canonicalize_screens (shaped listing) (shaped other) items

theorem onScreen_real {listing : List WlrOutput} {screen : Json} {displayId : String} {x y : Int64}
    (member : screen ∈ realScreens listing) (named : IsNamed displayId screen)
    (inside : Contains screen x y) : ∃ output ∈ listing, ∃ place, output.place = some place ∧
      output.name.text = displayId ∧ place.Contains x y := by
  obtain ⟨output, listed, place, placed, rfl⟩ := realScreens_shape member
  refine ⟨output, listed, place, placed, ?_, ?_⟩
  · obtain ⟨key, listed, found⟩ := named
    simp only [List.mem_cons, List.not_mem_nil, or_false] at listed
    rcases listed with rfl | rfl | rfl
    · cases found
    · cases found
    · exact Option.some.inj found
  · obtain ⟨left, top, width, height, atLeft, atTop, wide, high, bounds⟩ := inside
    have bound {key : String} {m n : Int64} (shown : (place.screen output.name.text).get? key =
        some (ofInt64 m)) (read : ((place.screen output.name.text).get? key).bind asI64 = some n) :
        m = n := by
      rw [shown, Option.bind_some, asI64_ofInt64] at read
      exact Option.some.inj read
    obtain rfl := bound rfl atLeft
    obtain rfl := bound rfl atTop
    obtain rfl := bound rfl wide
    obtain rfl := bound rfl high
    exact bounds

/-- **Screens of a Wayland session**: what is read of a listing is its enabled outputs exactly
where some are, and all of them lie at the origin and have one size. Then the hash of the geometry
tells different screens, and a point is let through only inside a real output of its name. -/
theorem wayland_screens (listing : List WlrOutput) :
    (parseWlrRandr (utf8 (printListing listing)) = .ok (.arr (realScreens listing)) ↔
      Standard listing) ∧
    (Standard listing →
      (∀ build other, Standard other → GeometryApart build listing other →
        realScreens listing ≠ realScreens other →
        ∃ screens screens', parseWlrRandr (utf8 (printListing listing)) = .ok screens ∧
          parseWlrRandr (utf8 (printListing other)) = .ok screens' ∧
          hashSerializable build screens ≠ hashSerializable build screens') ∧
      ∀ os build target deadlineAtMs trace point swaymsg,
        Steps (resolveWithBoundary os build target deadlineAtMs).run trace
          (.ret (.ok (.point point))) →
        (∀ answer, ⟨.listScreens, answer⟩ ∈ trace →
          answer = waylandScreens (some (utf8 (printListing listing))) swaymsg) →
        ∃ displayId displayGeometryHash snapshotId snapshotContentHash,
          target = .coordinates point.x point.y displayId displayGeometryHash snapshotId
            snapshotContentHash ∧
          ∃ output ∈ listing, ∃ place, output.place = some place ∧
            output.name.text = displayId ∧ place.Contains point.x point.y) := by
  refine ⟨standard_iff listing, fun standard => ⟨?_, ?_⟩⟩
  · intro build other standard' apart differ
    refine ⟨_, _, (standard_iff listing).mpr standard, (standard_iff other).mpr standard', ?_⟩
    intro same
    exact differ (realScreens_canonicalize (apart same))
  · intro os build target deadlineAtMs trace point swaymsg run answers
    obtain ⟨x, y, displayId, displayGeometryHash, snapshotId, snapshotContentHash, rfl, rfl, before,
      observation, first, second, screens, contentHash, rfl, passes⟩ := resolve_passed run
    have listed := answers (.ok screens) (by simp)
    rw [waylandScreens, (standard_iff listing).mpr standard] at listed
    obtain rfl := Except.ok.inj listed
    obtain ⟨values, array, screen, member, named, inside⟩ := passes.onDisplay
    obtain rfl := Option.some.inj array
    exact ⟨displayId, displayGeometryHash, snapshotId, snapshotContentHash, rfl,
      onScreen_real member named inside⟩

/-! ### Two outputs that show the same -/

def noText : SingleLine := ⟨[], List.not_mem_nil⟩

def hdmi : OutputName := ⟨"HDMI-A-1", by decide, by decide⟩

def displayPort : OutputName := ⟨"DP-1", by decide, by decide⟩

def outputAt (name : OutputName) (x y width height : Int64) : WlrOutput where
  name := name
  description := noText
  properties := []
  modes := []
  otherModes := []
  place := some ⟨x, y, ⟨width, height, ⟨"60.000000 Hz".toList, by decide⟩⟩, []⟩

/-- The panel of a laptop that is closed. -/
def closedPanel : WlrOutput where
  name := ⟨"eDP-1", by decide, by decide⟩
  description := noText
  properties := []
  modes := []
  otherModes := []
  place := none

def mirrored : List WlrOutput :=
  [outputAt hdmi 0 0 1920 1080, outputAt displayPort 0 0 1920 1080, closedPanel]

def unplugged : List WlrOutput := [outputAt hdmi 0 0 1920 1080, closedPanel]

theorem outputAt_standard {name : OutputName} {place : WlrPlace}
    (placed : (outputAt name 0 0 1920 1080).place = some place) : place.IsStandard := by
  obtain rfl := Option.some.inj placed
  exact ⟨rfl, rfl, rfl, rfl⟩

theorem mirrored_standard : Standard mirrored := by
  refine ⟨⟨_, List.mem_cons_self, rfl⟩, ?_⟩
  intro output member place placed
  simp only [mirrored, List.mem_cons, List.not_mem_nil, or_false] at member
  rcases member with rfl | rfl | rfl
  · exact outputAt_standard placed
  · exact outputAt_standard placed
  · cases placed

theorem unplugged_standard : Standard unplugged := by
  refine ⟨⟨_, List.mem_cons_self, rfl⟩, ?_⟩
  intro output member place placed
  simp only [unplugged, List.mem_cons, List.not_mem_nil, or_false] at member
  rcases member with rfl | rfl
  · exact outputAt_standard placed
  · cases placed

def mirroredScreens : Json := .arr (realScreens mirrored)

def mirroredBuild : Build :=
  ⟨false, Sha256.Messages.digest ⟨[canonicalJsonBytes mirroredScreens], List.nodup_singleton _⟩⟩

def mirroredGeometry : String := hashSerializable mirroredBuild mirroredScreens

def mirroredPoint : TargetRef := .coordinates 100 200 "DP-1" mirroredGeometry "snapshot" "content"

/-- A desktop with these outputs, that was just observed. -/
def mirroredDesktop (op : DesktopOp) (nowMs : Int64) : op.Answer × Int64 :=
  match op with
  | .listScreens => (.ok mirroredScreens, nowMs)
  | .loadCoordinateObservation _ =>
    (.ok ⟨protocolVersion, "snapshot", mirroredGeometry, "content", 0⟩, nowMs)
  | op => dragDesktop op nowMs

def isMirroredPoint : Except ProtocolError ResolvedTarget → Bool
  | .ok (.point point) => point = ⟨100, 200⟩
  | _ => false

/-- The point is let through, by what the listing of both outputs says. -/
theorem mirroredPoint_run : ∃ trace,
    Steps (resolveWithBoundary .linux mirroredBuild mirroredPoint 1000).run trace
      (.ret (.ok (.point ⟨100, 200⟩))) ∧
    ∀ answer, ⟨.listScreens, answer⟩ ∈ trace →
      answer = waylandScreens (some (utf8 (printListing mirrored))) none := by
  have played : (play mirroredDesktop 20
      (resolveWithBoundary .linux mirroredBuild mirroredPoint 1000).run 0).2.1.returned?.any
        isMirroredPoint = true := by
    decide +kernel
  obtain ⟨result, same, run⟩ := steps_returned played
  obtain rfl : result = .ok (.point ⟨100, 200⟩) := by
    cases result with
    | error => exact absurd same Bool.false_ne_true
    | ok resolved =>
      cases resolved with
      | point point => rw [of_decide_eq_true same]
      | _ => exact absurd same Bool.false_ne_true
  have answers : ∀ e ∈ (play mirroredDesktop 20
      (resolveWithBoundary .linux mirroredBuild mirroredPoint 1000).run 0).1,
      ∀ answer, e = ⟨.listScreens, answer⟩ →
        answer = waylandScreens (some (utf8 (printListing mirrored))) none := by
    apply play_answers
    rintro op nowMs answer same
    cases same
    exact ((standard_iff mirrored).mpr mirrored_standard).symm
  exact ⟨_, run, fun answer member => answers _ member answer rfl⟩

/-- Both outputs are listed, the hash tells them from one alone, and a point is let through on
the second. -/
theorem wayland_screens_standard :
    parseWlrRandr (utf8 (printListing mirrored)) = .ok (.arr
      [screenJson "HDMI-A-1" 0 0 1920 1080, screenJson "DP-1" 0 0 1920 1080]) ∧
    (∃ screens screens', parseWlrRandr (utf8 (printListing mirrored)) = .ok screens ∧
      parseWlrRandr (utf8 (printListing unplugged)) = .ok screens' ∧
      hashSerializable mirroredBuild screens ≠ hashSerializable mirroredBuild screens') ∧
    ∃ trace, Steps (resolveWithBoundary .linux mirroredBuild mirroredPoint 1000).run trace
        (.ret (.ok (.point ⟨100, 200⟩))) ∧
      ∃ output ∈ mirrored, ∃ place, output.place = some place ∧ output.name.text = "DP-1" ∧
        place.Contains 100 200 := by
  obtain ⟨parsed, consequences⟩ := wayland_screens mirrored
  obtain ⟨apart, onOutput⟩ := consequences mirrored_standard
  have listed := parsed.mpr mirrored_standard
  refine ⟨listed, ?_, ?_⟩
  · apply apart mirroredBuild unplugged unplugged_standard
    · exact hashSerializable_injective (Sha256.Messages.digest_injective _)
    · intro same
      have lengths := congrArg List.length same
      exact absurd lengths (by decide)
  · obtain ⟨trace, run, answers⟩ := mirroredPoint_run
    obtain ⟨displayId, _, _, _, pointed, output, member, place, placed, named, inside⟩ :=
      onOutput .linux mirroredBuild mirroredPoint 1000 trace ⟨100, 200⟩ none run answers
    obtain rfl : "DP-1" = displayId := by
      cases pointed
      rfl
    exact ⟨trace, run, output, member, place, placed, named, inside⟩

/-- An output that lies elsewhere and is larger is read as one of the standard place and size. -/
theorem wayland_screens_moved : ¬ ∀ listing : List WlrOutput,
    (∃ output ∈ listing, output.enabled = true) →
    parseWlrRandr (utf8 (printListing listing)) = .ok (.arr (realScreens listing)) := by
  intro claimed
  have parsed := claimed [outputAt hdmi 1920 0 2560 1440] ⟨_, List.mem_singleton.mpr rfl, rfl⟩
  have standard := (standard_iff [outputAt hdmi 1920 0 2560 1440]).mp parsed
  have place := standard.places _ (List.mem_singleton.mpr rfl) _ rfl
  exact absurd place.x (by decide)

end Praefectus.Native
