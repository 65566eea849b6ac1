/-
This file reads and writes URLs, and turns them into local paths and back.

Schemes come in three kinds: `file`, the other special ones, which always have
a host, and all the rest. A URL is brought to a normal form while it is read:
control characters and blanks around it and line breaks inside it do not count,
the scheme and the host are in lower case, a backslash is a separator in
special schemes, and the segments `.` and `..` are resolved.
-/
import WorkspaceSync.Addressing
import WorkspaceSync.Url.Host

namespace WorkspaceSync

/-- A URL in its normal form. -/
structure Url where
  scheme : List Char
  /-- Whether two slashes follow the scheme. -/
  hasAuthority : Bool
  /-- The user name and password with the `@` that ends them, or nothing. -/
  userInfo : List Char
  host : Option Host
  port : Option Nat
  path : List Char
  query : Option (List Char)
  fragment : Option (List Char)
  deriving DecidableEq, Repr

namespace Url

/-! ### Schemes -/

/-- How a scheme is read. -/
inductive Kind where
  | file
  | special
  | other
  deriving DecidableEq, Repr

/-- The kind of a scheme. -/
def kindOf (scheme : List Char) : Kind :=
  if scheme = "file".toList then .file
  else if ["http", "https", "ws", "wss", "ftp"].any fun known => known.toList == scheme then
    .special
  else .other

/-- The port that a scheme has without one being named. -/
def defaultPort? (scheme : List Char) : Option Nat :=
  if scheme = "http".toList ∨ scheme = "ws".toList then some 80
  else if scheme = "https".toList ∨ scheme = "wss".toList then some 443
  else if scheme = "ftp".toList then some 21
  else none

/-- A character that separates the segments of a path. -/
def isSeparator (kind : Kind) (character : Char) : Bool :=
  character == '/' || (kind != .other && character == '\\')

/-- An ASCII letter. -/
def isLetter (character : Char) : Bool :=
  ('A' ≤ character && character ≤ 'Z') || ('a' ≤ character && character ≤ 'z')

/-- A character of a scheme after its first letter. -/
def isSchemePart (character : Char) : Bool :=
  isLetter character || Text.isAsciiDigit character || ['+', '-', '.'].contains character

/-- The lower-case form of an ASCII letter. -/
def lower (character : Char) : Char :=
  if 'A' ≤ character && character ≤ 'Z' then Char.ofNat (character.toNat + 0x20) else character

/-- Cuts a text into its scheme and what follows the colon. -/
def scheme? (input : List Char) : Option (List Char × List Char) :=
  match input.head?.all isLetter, input.takeWhile isSchemePart, input.dropWhile isSchemePart with
  | true, first :: others, ':' :: rest => some ((first :: others).map lower, rest)
  | _, _, _ => none

/-! ### Characters that are written with percent signs -/

/-- Those of a fragment. -/
def fragmentSet : List Char := [' ', '"', '<', '>', '`']

/-- Those of a path. -/
def pathSet : List Char := fragmentSet ++ ['#', '?', '\x7b', '\x7d']

/-- Those of one segment of a special path. -/
def segmentSet : List Char := pathSet ++ ['/', '%', '\\']

/-- Those of a user name or password. -/
def userInfoSet : List Char :=
  pathSet ++ ['/', ':', ';', '=', '@', '[', '\\', ']', '^', '|']

/-- Those of a query. -/
def querySet (kind : Kind) : List Char :=
  [' ', '"', '#', '<', '>'] ++ (if kind = .other then [] else ['\''])

/-! ### Paths -/

/-- A segment that stands for the directory itself. -/
def isCurrent (segment : List Char) : Bool :=
  [".", "%2e"].any fun spelling => spelling.toList == segment.map lower

/-- A segment that stands for the directory above. -/
def isParent (segment : List Char) : Bool :=
  ["..", ".%2e", "%2e.", "%2e%2e"].any fun spelling => spelling.toList == segment.map lower

/-- A segment that names a drive: a letter and a colon or a bar. -/
def isDrive : List Char → Bool
  | [letter, mark] => isLetter letter && (mark == ':' || mark == '|')
  | _ => false

/-- The directories of a path after a step upwards. The first directory and a drive stay. -/
def dropDirectory (directories : List (List Char)) : List (List Char) :=
  if directories.length ≤ 1 || directories.getLast?.any isDrive then directories
  else directories.dropLast

/-- Resolves a row of segments against the directories passed so far. The last segment is no
directory, all others are. -/
def resolve (directories : List (List Char)) : List (List Char) → List (List Char)
  | [] => directories
  | [last] =>
    if isParent last then dropDirectory directories ++ [[]]
    else if isCurrent last then directories ++ [[]]
    else directories ++ [last]
  | segment :: later =>
    if isParent segment then resolve (dropDirectory directories) later
    else if isCurrent segment then resolve directories later
    else resolve (directories ++ [segment]) later

/-- Cuts a text at its separators. -/
def segments (kind : Kind) (text : List Char) : List (List Char) :=
  List.splitOn '/' (text.map fun character => if isSeparator kind character then '/' else character)

/-- The path of a text, given the directories that precede it. A drive keeps the mark that it is
written with. -/
def normalPath (kind : Kind) (start : List (List Char)) (text : List Char) : List Char :=
  let pieces := (segments kind text).map (Percent.encode pathSet)
  let whole := List.intercalate ['/'] (resolve start pieces)
  if kind = .file then '/' :: whole.dropWhile (· = '/') else whole

/-- A path that follows a host. -/
def hostedPath (kind : Kind) (hasHost : Bool) (text : List Char) : List Char :=
  match kind with
  | .other =>
    match text with
    | [] => []
    | '/' :: _ => normalPath kind [] text
    | _ => normalPath kind [[]] text
  | .special => afterSlash text
  | .file => if hasHost then afterSlash text else normalPath kind [] text
where
  /-- The slash before the path is there already, or is put in. -/
  afterSlash (text : List Char) : List Char :=
    match text with
    | first :: rest =>
      if isSeparator kind first then normalPath kind [[]] rest else normalPath kind [[]] text
    | [] => normalPath kind [[]] []

/-- A path without structure. -/
def plainPath (text : List Char) : List Char :=
  Percent.encode [] text

/-! ### Authorities -/

/-- Cuts a text at the last occurrence of a character. -/
def cutLast? (mark : Char) (text : List Char) : Option (List Char × List Char) :=
  match (List.splitOn mark text).reverse with
  | last :: previous :: others => some (List.intercalate [mark] (previous :: others).reverse, last)
  | _ => none

/-- The normal form of a user name and password. -/
def normalUserInfo (text : List Char) : List Char :=
  let name := Percent.encode userInfoSet (text.takeWhile (· ≠ ':'))
  match text.dropWhile (· ≠ ':') with
  | _ :: first :: rest => name ++ ':' :: Percent.encode userInfoSet (first :: rest) ++ ['@']
  | _ => if name.isEmpty then [] else name ++ ['@']

/-- The host at the start of a text and what follows it: it ends at a colon outside of square
brackets. -/
def takeHost (inside : Bool) : List Char → List Char × List Char
  | [] => ([], [])
  | character :: rest =>
    if character = ':' ∧ inside = false then ([], character :: rest)
    else
      let (host, after) :=
        takeHost (if character = '[' then true else if character = ']' then false else inside) rest
      (character :: host, after)

/-- The port after a host, if one is named that is not the usual one. -/
def portOf (scheme : List Char) (text : List Char) : Except UrlError (Option Nat) :=
  match text with
  | [] => .ok none
  | _ :: digits =>
    let named := digits.takeWhile (· ≠ '\\')
    if named.all Text.isAsciiDigit && Text.decimalValue named ≤ 65535 then
      let value := Text.decimalValue named
      .ok (if named.isEmpty || defaultPort? scheme == some value then none else some value)
    else .error .invalidPort

/-- The parts of an authority. -/
structure Authority where
  userInfo : List Char
  host : Option Host
  port : Option Nat

/-- Reads an authority, the text between the two slashes and the path. -/
def authority (kind : Kind) (scheme text : List Char) (pathFollows : Bool) :
    Except UrlError Authority := do
  let (credentials, rest) :=
    match cutLast? '@' text with
    | some (before, after) => (some before, after)
    | none => (none, text)
  if credentials = some [] ∧ rest = [] ∧ pathFollows then throw .emptyHost
  let userInfo := (credentials.map normalUserInfo).getD []
  let (hostText, portText) := takeHost false rest
  if kind = .special ∧ hostText = [] then throw .emptyHost
  let host ← if kind = .other then Host.readOpaque hostText else Host.read hostText
  if hostText = [] ∧ portText ≠ [] then throw .emptyHost
  let port ← portOf scheme portText
  if hostText = [] ∧ userInfo ≠ [] then throw .emptyHost
  return ⟨userInfo, if hostText = [] then none else some host, port⟩

/-! ### Reading and writing -/

/-- A control character or a blank. -/
def isMargin (character : Char) : Bool :=
  character.toNat ≤ 0x20

/-- A character that does not count wherever it stands. -/
def isIgnored (character : Char) : Bool :=
  character == '\t' || character == '\n' || character == '\r'

/-- The text that counts. -/
def strip (text : List Char) : List Char :=
  let inner := (text.dropWhile isMargin).reverse.dropWhile isMargin
  inner.reverse.filter (!isIgnored ·)

/-- Cuts a text into what precedes its query and fragment, the query and the fragment. -/
def dissect (kind : Kind) (text : List Char) :
    List Char × Option (List Char) × Option (List Char) :=
  let beforeFragment := text.takeWhile (· ≠ '#')
  let fragment :=
    match text.dropWhile (· ≠ '#') with
    | _ :: rest => some (Percent.encode fragmentSet rest)
    | [] => none
  let query :=
    match beforeFragment.dropWhile (· ≠ '?') with
    | _ :: rest => some (Percent.encode (querySet kind) rest)
    | [] => none
  (beforeFragment.takeWhile (· ≠ '?'), query, fragment)

/-- The host and path of a `file` URL, from what follows the scheme. -/
def filePlace (text : List Char) : Except UrlError (Option Host × List Char) :=
  match text with
  | first :: second :: rest =>
    if isSeparator .file first && isSeparator .file second then
      let hostText := rest.takeWhile (!isSeparator .file ·)
      let pathText := rest.dropWhile (!isSeparator .file ·)
      if isDrive hostText then .ok (none, normalPath .file [[]] rest)
      else if hostText = [] then .ok (none, hostedPath .file false pathText)
      else do
        let host ← Host.read hostText
        if host = .domain "localhost".toList then .ok (none, hostedPath .file false pathText)
        else .ok (some host, hostedPath .file true pathText)
    else .ok (none, plain text)
  | _ => .ok (none, plain text)
where
  /-- A path without a host. -/
  plain (text : List Char) : List Char :=
    match text with
    | first :: _ =>
      if isSeparator .file first then normalPath .file [] text
      else normalPath .file [[]] text
    | [] => ['/']

/-- Reads a URL. -/
def read (text : String) : Except UrlError Url :=
  match scheme? (strip text.toList) with
  | none => .error .relativeWithoutBase
  | some (scheme, rest) =>
    let kind := kindOf scheme
    let (body, query, fragment) := dissect kind rest
    match kind with
    | .file => do
      let (host, path) ← filePlace body
      return ⟨scheme, true, [], host, none, path, query, fragment⟩
    | .special => do
      let afterSlashes := body.dropWhile (isSeparator kind)
      hosted kind scheme afterSlashes query fragment
    | .other =>
      match body with
      | '/' :: '/' :: inner => hosted kind scheme inner query fragment
      | '/' :: inner =>
        .ok ⟨scheme, false, [], none, none, normalPath kind [[]] inner, query, fragment⟩
      | _ => .ok ⟨scheme, false, [], none, none, plainPath body, query, fragment⟩
where
  /-- A URL with an authority. -/
  hosted (kind : Kind) (scheme text : List Char) (query fragment : Option (List Char)) :
      Except UrlError Url := do
    let authorityText := text.takeWhile (!isSeparator kind ·)
    let pathText := text.dropWhile (!isSeparator kind ·)
    let authority ←
      authority kind scheme authorityText (!pathText.isEmpty || query.isSome || fragment.isSome)
    return ⟨scheme, true, authority.userInfo, authority.host, authority.port,
      hostedPath kind true pathText, query, fragment⟩

/-- The text of a URL. -/
def text (url : Url) : String :=
  let place :=
    if url.hasAuthority then
      ['/', '/'] ++ url.userInfo ++ ((url.host.map Host.text).getD []) ++
        ((url.port.map fun port => ':' :: (Text.decimalText port).toList).getD [])
    else if ['/', '/'].isPrefixOf url.path then ['/', '.']
    else []
  let query := (url.query.map ('?' :: ·)).getD []
  let fragment := (url.fragment.map ('#' :: ·)).getD []
  String.ofList (url.scheme ++ ':' :: place ++ url.path ++ query ++ fragment)

/-! ### Local paths -/

/-- Whether a text ends like the name of a drive. -/
def endsWithDrive (bytes : List UInt8) : Bool :=
  match bytes.reverse with
  | mark :: letter :: _ :: _ =>
    (mark == 0x3A || mark == 0x7C) &&
      ((0x41 ≤ letter && letter ≤ 0x5A) || (0x61 ≤ letter && letter ≤ 0x7A))
  | _ => false

/-- The local path of a URL. It has one if its path starts with a slash and its host, if any, is
the local one. -/
def toPath? (url : Url) : Option Path :=
  match url.path, url.host with
  | '/' :: _, none => decoded? url.path
  | '/' :: _, some (.domain name) =>
    if name = "localhost".toList then decoded? url.path else none
  | _, _ => none
where
  /-- The path that is written with percent signs; one that ends like a drive gets a slash. Since
  paths are texts, there is none if the bytes are no text. -/
  decoded? (path : List Char) : Option Path :=
    let bytes := Percent.decode path
    let closed := if endsWithDrive bytes then bytes ++ [0x2F] else bytes
    (String.fromUTF8? ⟨closed.toArray⟩).map Path.mk

/-- The URL of a local path; only absolute paths have one. -/
def ofPath? (path : Path) : Option String :=
  if path.isAbsolute then
    let segments := (path.components.drop 1).map fun component =>
      match component with
      | .entry name => Percent.encode segmentSet name
      | .parent => ['.', '.']
      | .current => ['.']
      | .root => []
    some ("file://" ++ String.ofList ('/' :: List.intercalate ['/'] segments))
  else none

/-- URLs as the addresses of the program. -/
def addressing : Addressing where
  Address := Url
  read text :=
    match read text with
    | .ok url => .ok url
    | .error error => .error error.message
  scheme url := String.ofList url.scheme
  text := text
  toPath? := toPath?
  ofPath? := ofPath?

end Url

end WorkspaceSync
