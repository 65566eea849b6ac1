/-
This file holds the tools that change, count and pick: `tr`, `wc` and `grep`.
-/
import WorkspaceSync.Tool.Result

namespace WorkspaceSync.Tool

/-! ### Changing bytes -/

/-- The bytes that a set of `tr` lists, in order. -/
def expandSet (text : List Char) : Bytes :=
  match text with
  | [] => []
  | '[' :: ':' :: rest =>
    let name := rest.takeWhile (· ≠ ':')
    ((Pattern.classRanges name).flatMap fun (first, last) => range first last) ++
      expandSet (rest.drop (name.length + 2))
  | '\\' :: next :: rest =>
    (match escapeByte? next with
      | some byte => [byte]
      | none => bytesOf (String.singleton next)) ++ expandSet rest
  | first :: '-' :: last :: rest =>
    range (Pattern.byteOf first) (Pattern.byteOf last) ++ expandSet rest
  | character :: rest => bytesOf (String.singleton character) ++ expandSet rest
termination_by text.length
decreasing_by all_goals (simp only [List.length_drop, List.length_cons]; omega)
where
  /-- All bytes from one to another. -/
  range (first last : UInt8) : Bytes :=
    (List.range (last.toNat + 1 - first.toNat)).map fun index => UInt8.ofNat (first.toNat + index)

/-- Leaves one of each row of equal bytes of a set. -/
def squeeze (set : Bytes) : Bytes → Bytes
  | first :: second :: rest =>
    if first = second && set.contains first then squeeze set (second :: rest)
    else first :: squeeze set (second :: rest)
  | bytes => bytes

/-- Maps, deletes or squeezes bytes. -/
def tr (arguments : List String) (input : Bytes) : Result :=
  let call := Call.read [] arguments
  let isComplement := call.has 'c' || call.has 'C'
  let first := expandSet ((call.words.head?.getD "").toList)
  let second := expandSet ((call.words[1]?.getD "").toList)
  let listed (byte : UInt8) : Bool := first.contains byte != isComplement
  let changed :=
    if call.has 'd' then input.filter (!listed ·)
    else if second.isEmpty then input
    else
      input.map fun byte =>
        if isComplement then
          if listed byte then second.getLast?.getD byte else byte
        else
          match first.idxOf? byte with
          | some index => (second[index]?).getD (second.getLast?.getD byte)
          | none => byte
  let output :=
    if call.has 's' then squeeze (if second.isEmpty then first else second) changed
    else changed
  ⟨output, [], 0, true, 0⟩

/-! ### Counting -/

/-- The number of words: rows between blanks that hold a printable ASCII character. -/
def wordCount (bytes : Bytes) : Nat :=
  let isSpace (byte : UInt8) : Bool := byte == 0x20 || (0x09 ≤ byte && byte ≤ 0x0D)
  let isPrintable (byte : UInt8) : Bool := 0x21 ≤ byte && byte ≤ 0x7E
  let (count, inside) := bytes.foldl
    (fun (count, inside) byte =>
      if isSpace byte then (if inside then count + 1 else count, false)
      else (count, inside || isPrintable byte))
    (0, false)
  if inside then count + 1 else count

/-- The counts that are asked for: lines, words, characters and bytes. -/
def countsOf (letters : List Char) (bytes : Bytes) : List Nat :=
  let isWanted (letter : Char) : Bool := letters.isEmpty || letters.contains letter
  (if isWanted 'l' then [bytes.count lineFeed] else []) ++
    (if isWanted 'w' then [wordCount bytes] else []) ++
    (if letters.contains 'm' then [bytes.length] else []) ++
    (if isWanted 'c' then [bytes.length] else [])

/-- A row of counts and a name. -/
def countLine (width : Nat) (counts : List Nat) (name : String) : Bytes :=
  [0x20].intercalate (counts.map (padded width)) ++
    (if name.isEmpty then [] else bytesOf (" " ++ name)) ++ [lineFeed]

/-- Counts lines, words and bytes, and adds them up over several files. The columns are as wide as
the number of all bytes needs. -/
def wc (disk : Disk) (directory : Path) (arguments : List String) (input : Bytes) : Result :=
  let call := Call.read [] arguments
  let letters := call.letters
  let names := call.words
  let contents := (inputs disk directory names input).filterMap fun (_, content, _) =>
    match content with
    | .ok bytes => some bytes
    | .error _ => none
  let all := contents.flatten
  let isSingle := (countsOf letters []).length = 1
  let width :=
    if names.isEmpty then (if isSingle then 1 else 7)
    else if isSingle && names.length = 1 then 1
    else (numberBytes all.length).length
  let result := overInputs "wc" disk directory names input fun name bytes =>
    countLine width (countsOf letters bytes) (if names.isEmpty then "" else name)
  let sums := contents.foldl
    (fun sums bytes => sums.zipWith (· + ·) (countsOf letters bytes)) (countsOf letters [])
  if names.length > 1 then { result with output := result.output ++ countLine width sums "total" }
  else result

/-! ### Searching -/

/-- The pattern for a plain text. -/
def plainPattern (text : String) : Pattern :=
  text.toList.foldr (fun character rest => .sequence (Pattern.literal character) rest) .empty

/-- A search: its options and what it looks for. -/
structure Search where
  call : Call
  pattern : Pattern

/-- The search for any of some texts. -/
def Search.ofTexts (call : Call) (texts : List String) : Search :=
  let read (text : List Char) : Pattern :=
    if call.has 'F' then plainPattern (String.ofList text)
    else Pattern.read (if call.has 'E' then .extended else .basic) text
  let lines := texts.flatMap fun text => List.splitOn '\n' text.toList
  let whole :=
    match lines.map read with
    | [] => .empty
    | first :: others => others.foldl Pattern.choice first
  let anchored := if call.has 'x' then .sequence .lineStart (.sequence whole .lineEnd) else whole
  ⟨call, if call.has 'i' then anchored.caseless else anchored⟩

/-- Whether a byte is one of a word. -/
def isWordByte (byte : UInt8) : Bool :=
  byte == 0x5F || (Pattern.classRanges "alnum".toList).any fun (first, last) =>
    first ≤ byte && byte ≤ last

/-- Whether a match is not a part of a longer word. -/
def isWhole (line : Bytes) (start : Nat) (found : Bytes) : Bool :=
  !((line.take start).getLast?.any isWordByte) &&
    !((line.drop (start + found.length)).head?.any isWordByte)

/-- The matches in a line with their places. -/
def placedMatches (pattern : Pattern) (passed : Nat) (line : Bytes) : List (Nat × Bytes) :=
  match pattern.search passed [] line with
  | none => []
  | some found =>
    let place := passed + found.before.length
    if found.matched.isEmpty then
      match line with
      | [] => [(place, [])]
      | _ :: rest => (place, []) :: placedMatches pattern (passed + 1) rest
    else if found.after.rest.length < line.length then
      (place, found.matched) :: placedMatches pattern found.after.passed found.after.rest
    else [(place, found.matched)]
termination_by line.length

namespace Search

/-- The matches in a line that count. -/
def matchesIn (search : Search) (line : Bytes) : List Bytes :=
  ((placedMatches search.pattern 0 line).filter fun (start, found) =>
    !search.call.has 'w' || isWhole line start found).map Prod.snd

/-- The lines of an input that are picked, with their indices. -/
def hits (search : Search) (bytes : Bytes) : List (Bytes × Nat) :=
  let picked := (linesOf bytes).zipIdx.filterMap fun ((line, _), index) =>
    if !(search.matchesIn line).isEmpty != search.call.has 'v' then some (line, index) else none
  match search.call.valuesOf 'm' with
  | [] => picked
  | limit :: _ => picked.take (Text.decimalValue limit.toList)

/-- What is written about an input. -/
def report (search : Search) (label : String) (isLabelled : Bool) (bytes : Bytes) : Bytes :=
  let hits := search.hits bytes
  let start := if isLabelled then bytesOf (label ++ ":") else []
  if search.call.has 'l' then (if hits.isEmpty then [] else bytesOf (label ++ "\n"))
  else if search.call.has 'L' then (if hits.isEmpty then bytesOf (label ++ "\n") else [])
  else if search.call.has 'c' then start ++ numberBytes hits.length ++ [lineFeed]
  else
    hits.flatMap fun (line, index) =>
      let head :=
        start ++ (if search.call.has 'n' then numberBytes (index + 1) ++ bytesOf ":" else [])
      if search.call.has 'o' then
        (search.matchesIn line).flatMap fun found =>
          if found.isEmpty then [] else head ++ found ++ [lineFeed]
      else head ++ line ++ [lineFeed]

end Search

/-- Writes the lines that have a match. -/
def grep (disk : Disk) (directory : Path) (arguments : List String) (input : Bytes) : Result :=
  let call := Call.read ['e', 'm'] arguments
  let (texts, names) :=
    if (call.valuesOf 'e').isEmpty then (call.words.take 1, call.words.drop 1)
    else (call.valuesOf 'e', call.words)
  if texts.isEmpty then .ended 2
  else
    let search := Search.ofTexts call texts
    let isLabelled := (call.has 'H' || names.length > 1) && !call.has 'h'
    let result := overInputs "grep" disk directory names input fun name bytes =>
      search.report (if name = "-" then "(standard input)" else name) isLabelled bytes
    let isFound := (inputs disk directory names input).any fun (_, content, _) =>
      match content with
      | .ok bytes => (search.hits bytes).isEmpty == call.has 'L'
      | .error _ => false
    { result with
      output := if call.has 'q' then [] else result.output
      status :=
        if !result.errors.isEmpty && !(isFound && call.has 'q') then 2
        else if isFound then 0
        else 1 }

end WorkspaceSync.Tool
