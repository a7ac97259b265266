import Settler.Fault.Basic
import Settler.Text.Case
import Settler.Text.Digits
import Settler.Text.Encoding

/-!
Addresses: reading one into its parts, writing it, and extending its path.

A read address is normal: the scheme and the host are in lower case, the scheme's own port is
dropped, `.` and `..` are resolved in the path of an absolute address, and characters that a part
may not hold are written as percent escapes. The ASCII name of a host that has other characters is
looked up.
-/

namespace Settler.Http

open Settler.Text

/-- An address in parts. -/
structure Url where
  scheme : String
  userinfo : String
  host : String
  port : Option Int
  path : String
  query : Option String
  fragment : Option String
  deriving DecidableEq, Repr, Inhabited

namespace Url

/-! ### Percent escapes -/

/-- Characters that stand for themselves in every part. -/
def isUnreserved (c : Char) : Bool := c.isAlphanum || "-._~".toList.contains c

/-- Printable ASCII but for the given characters. -/
def asciiBut (refused : List Char) (c : Char) : Bool :=
  0x20 ≤ c.toNat && c.toNat < 0x7f && !refused.contains c

/-- Characters that stand for themselves in a fragment. -/
def fragmentSafe : Char → Bool := asciiBut [' ', '"', '<', '>', '`']

/-- Characters that stand for themselves in a query. -/
def querySafe : Char → Bool := asciiBut [' ', '"', '#', '<', '>']

/-- Characters that stand for themselves in a path. -/
def pathSafe : Char → Bool := asciiBut [' ', '"', '#', '<', '>', '?', '`', '\x7b', '\x7d']

/-- Characters that stand for themselves before the host. -/
def userinfoSafe : Char → Bool :=
  asciiBut [' ', '"', '#', '<', '>', '?', '`', '\x7b', '\x7d', '/', ';', '=', '@', '[', '\\', ']',
    '^', '|']

/-- Characters that stand for themselves in a host. -/
def hostSafe (c : Char) : Bool := "!$&'()*+,;=\"`\x7b\x7d%|\\".toList.contains c

/-- A hexadecimal digit. -/
def isHex (c : Char) : Bool :=
  c.isDigit || ('a' ≤ c && c ≤ 'f') || ('A' ≤ c && c ≤ 'F')

/-- The percent escapes of a character's UTF-8 bytes. -/
def percent (c : Char) : List Char :=
  (String.utf8EncodeChar c).flatMap fun b =>
    '%' :: ((Nat.toDigits 16 (b.toNat + 0x100)).drop 1).map Char.toUpper

/-- The value of a hexadecimal digit. -/
def hexDigit (c : Char) : Nat :=
  if c.isDigit then c.toNat - '0'.toNat else c.toLower.toNat - 'a'.toNat + 10

/-- The bytes that a text with percent escapes stands for. -/
def unescaped : List Char → List UInt8
  | [] => []
  | '%' :: a :: b :: rest =>
    if isHex a && isHex b then UInt8.ofNat (hexDigit a * 16 + hexDigit b) :: unescaped rest
    else 0x25 :: unescaped (a :: b :: rest)
  | c :: rest => String.utf8EncodeChar c ++ unescaped rest

/-- The text that a text with percent escapes stands for. -/
def unquote (s : List Char) : String := String.ofList (Encoding.utf8.lossy (unescaped s))

/-- Escapes what is not safe; an escape that is there already stays. -/
def quote (safe : Char → Bool) : List Char → List Char
  | [] => []
  | '%' :: a :: b :: rest =>
    if isHex a && isHex b then '%' :: a :: b :: quote safe rest
    else (if safe '%' then ['%'] else percent '%') ++ quote safe (a :: b :: rest)
  | c :: rest => (if isUnreserved c || safe c then [c] else percent c) ++ quote safe rest

/-! ### Paths -/

/-- Resolves the steps of a path: `.` stays and `..` goes up, but not above the root. -/
def resolveSteps (done : List (List Char)) : List (List Char) → List (List Char)
  | [] => done.reverse
  | ['.'] :: rest => resolveSteps done rest
  | ['.', '.'] :: rest => resolveSteps (if done = [[]] then done else done.drop 1) rest
  | step :: rest => resolveSteps (step :: done) rest

/-- A path with its `.` and `..` resolved. -/
def normalPath (path : List Char) : List Char :=
  ['/'].intercalate (resolveSteps [] (splitAt '/' path))

/-! ### Hosts and ports -/

/-- Digits and separators such that there could be four numbers with any three characters between
them. -/
def looksNumeric (host : List Char) : Bool :=
  let others := (host.filter fun c => !c.isDigit).length
  let runs := (splitAt '.' (host.map fun c => if c.isDigit then c else '.')).map List.length
  runs.all (0 < ·) && others ≤ 3 && 3 ≤ others + (runs.map fun n => (n - 1) / 2).foldl (· + ·) 0

/-- An address of four numbers from 0 to 255, without needless zeros. -/
def isDotted (host : List Char) : Bool :=
  let parts := splitAt '.' host
  parts.length == 4 && parts.all fun p =>
    0 < p.length && p.length ≤ 3 && p.all Char.isDigit && (p.length == 1 || p.head? != some '0')
      && ofDigits (p.map fun c => c.toNat - '0'.toNat) ≤ 255

/-- The number of groups of sixteen bits in colon-separated parts, if they are well formed. -/
def groupCount? : List (List Char) → Option Nat
  | [] => some 0
  | [p] =>
    if p.contains '.' then if isDotted p then some 2 else none
    else if 0 < p.length && p.length ≤ 4 && p.all isHex then some 1 else none
  | p :: rest =>
    if 0 < p.length && p.length ≤ 4 && p.all isHex then (groupCount? rest).map (· + 1) else none

/-- The parts before and after the first pair of colons, if there is one. -/
def cutPair? : List Char → Option (List Char × List Char)
  | ':' :: ':' :: rest => some ([], rest)
  | c :: rest => (cutPair? rest).map fun (a, b) => (c :: a, b)
  | [] => none

/-- Eight groups of sixteen bits; one pair of colons may stand for groups of zeros. -/
def isGroups (s : List Char) : Bool :=
  let parts (s : List Char) := if s.isEmpty then [] else splitAt ':' s
  match cutPair? s with
  | none => groupCount? (parts s) == some 8
  | some (a, b) =>
    match groupCount? (parts a), groupCount? (parts b) with
    | some m, some n => m + n ≤ 7 && !a.contains '.'
    | _, _ => false

/-- An address of eight groups; a percent sign and the name of a zone may follow. -/
def isGrouped (host : List Char) : Bool :=
  match cut? '%' host with
  | none => isGroups host
  | some (groups, zone) => isGroups groups && !zone.isEmpty && !zone.contains '%'

/-- The normal form of a host, given the ASCII names of those with other characters. -/
def readHost (ascii? : String → Option String) (host : List Char) : Except String String :=
  let name := quoted (String.ofList host)
  if host.isEmpty then .ok ""
  else if looksNumeric host then
    if isDotted host then .ok (String.ofList host) else .error ("Invalid IPv4 address: " ++ name)
  else if host.head? = some '[' && host.getLast? = some ']' then
    let inner := (host.drop 1).dropLast
    if isGrouped inner then .ok (String.ofList inner) else .error ("Invalid IPv6 address: " ++ name)
  else if host.all fun c => c.toNat < 0x80 then
    .ok (String.ofList (quote hostSafe (host.map Char.toLower)))
  else
    match ascii? (lower (String.ofList host)) with
    | some name => .ok name
    | none => .error ("Invalid IDNA hostname: " ++ name)

/-- The port that a scheme has of its own. -/
def ownPort (scheme : String) : Option Int :=
  match scheme with
  | "ftp" => some 21
  | "http" => some 80
  | "https" => some 443
  | "ws" => some 80
  | "wss" => some 443
  | _ => none

/-- The port, unless there is none or it is the scheme's own. -/
def readPort (scheme : String) (port : List Char) : Except String (Option Int) :=
  if port.isEmpty then .ok none
  else
    match readInt? port with
    | none => .error ("Invalid port: " ++ quoted (String.ofList port))
    | some n => .ok (if ownPort scheme = some n then none else some n)

/-! ### Reading -/

/-- A character that a scheme may hold after its first letter. -/
def isSchemeChar (c : Char) : Bool := c.isAlphanum || c = '+' || c = '.' || c = '-'

/-- The scheme before the first colon, if the text starts with one, and the rest. -/
def splitScheme (s : List Char) : List Char × List Char :=
  let name := s.takeWhile isSchemeChar
  match s.drop name.length with
  | ':' :: rest => if name.head?.all Char.isAlpha then (name, rest) else ([], s)
  | _ => ([], s)

/-- The authority after two slashes, if there are such, and the rest. -/
def splitAuthority : List Char → List Char × List Char
  | '/' :: '/' :: rest =>
    let inside (c : Char) := !(c = '/' || c = '?' || c = '#')
    (rest.takeWhile inside, rest.dropWhile inside)
  | s => ([], s)

/-- The host and the port of an authority without user information; brackets may hold colons. -/
def splitPort (s : List Char) : List Char × List Char :=
  let bracketed := (s.reverse.dropWhile (· != ']')).reverse
  let host :=
    if s.head? = some '[' && !bracketed.isEmpty then bracketed
    else s.takeWhile fun c => !(c = ':' || c = '@')
  match s.drop host.length with
  | ':' :: port => (host, port)
  | port => (host, port)

/-- The greatest number of characters of an address. -/
def lengthLimit : Nat := 65536

/-- The first ASCII control character of a text and its position. -/
def firstControl? (s : List Char) : Option (Char × Nat) :=
  let before := s.takeWhile fun c => !(c.toNat < 0x20 || c.toNat = 0x7f)
  s[before.length]?.map fun c => (c, before.length)

/-- What is wrong with an authority before a path that does not start with a slash. -/
def needsAbsolutePath : String := "For absolute URLs, path must be empty or begin with '/'"

/-- Reads an address, or says what is wrong with it. -/
def parse (ascii? : String → Option String) (text : String) : Except String Url := do
  let s := text.toList
  if lengthLimit < s.length then throw "URL too long"
  if let some (c, position) := firstControl? s then
    throw ("Invalid non-printable ASCII character in URL, " ++ quoted (String.singleton c)
      ++ " at position " ++ toString position ++ ".")
  let (scheme, s) := splitScheme s
  let (authority, s) := splitAuthority s
  let path := s.takeWhile fun c => !(c = '?' || c = '#')
  let s := s.drop path.length
  let query := if s.head? = some '?' then some ((s.drop 1).takeWhile (· != '#')) else none
  let rest := s.dropWhile (· != '#')
  let fragment := if rest.isEmpty then none else some (rest.drop 1)
  let (userinfo, authority) := (cut? '@' authority).getD ([], authority)
  let (host, port) := splitPort authority
  let scheme := String.ofList (scheme.map Char.toLower)
  let userinfo := String.ofList (quote userinfoSafe userinfo)
  let host ← readHost ascii? host
  let port ← readPort scheme port
  let hasAuthority := userinfo != "" || host != "" || port.isSome
  let isAbsolute := scheme != "" || hasAuthority
  if hasAuthority && !(path.isEmpty || path.head? = some '/') then
    throw needsAbsolutePath
  if !isAbsolute && ['/', '/'].isPrefixOf path then
    throw "Relative URLs cannot have a path starting with '//'"
  if !isAbsolute && path.head? = some ':' then
    throw "Relative URLs cannot have a path starting with ':'"
  let path := if isAbsolute then normalPath path else path
  return {
    scheme, userinfo, host, port
    path := String.ofList (quote pathSafe path)
    query := query.map fun q => String.ofList (quote querySafe q)
    fragment := fragment.map fun f => String.ofList (quote fragmentSafe f) }

/-! ### Writing and extending -/

/-- User information, host and port. -/
def authority (u : Url) : String :=
  (if u.userinfo = "" then "" else u.userinfo ++ "@")
    ++ (if u.host.toList.contains ':' then "[" ++ u.host ++ "]" else u.host)
    ++ (match u.port with
        | some n => ":" ++ toString n
        | none => "")

/-- The address as text. -/
def text (u : Url) : String :=
  let authority := u.authority
  (if u.scheme = "" then "" else u.scheme ++ ":")
    ++ (if authority = "" then "" else "//" ++ authority)
    ++ u.path
    ++ (match u.query with
        | some q => "?" ++ q
        | none => "")
    ++ (match u.fragment with
        | some f => "#" ++ f
        | none => "")

/-- Characters that stand for themselves in the name of a place that a client is sent to. -/
def placeSafe (c : Char) : Bool := c.isAlphanum || "_.-~:/%#?=@[]!$&'()*+,;".toList.contains c

/-- The address as the name of a place that a client is sent to. -/
def place (u : Url) : String :=
  String.ofList (u.text.toList.flatMap fun c => if placeSafe c then [c] else percent c)

/-- The address names a scheme and a host. -/
def isAbsolute (u : Url) : Bool := u.scheme != "" && u.host != ""

/-- The path, at least a slash, and the query. -/
def target (u : Url) : List Char :=
  (if u.path = "" then ['/'] else u.path.toList)
    ++ (match u.query with
        | some q => '?' :: q.toList
        | none => [])

/-- The address with another path and query. -/
def withTarget (u : Url) (target : List Char) : Url :=
  let (path, query) := match cut? '?' target with
    | some (p, q) => (p, some q)
    | none => (target, none)
  let path := if u.scheme != "" || u.authority != "" then normalPath path else path
  { u with
    path := String.ofList (quote pathSafe path)
    query := query.map fun q => String.ofList (quote querySafe q) }

/-- The address of a place below this one; exactly one slash stands between the two paths. -/
def below (u : Url) (place : List Char) : Url :=
  let base := u.target
  let base := if base.getLast? = some '/' then base else base ++ ['/']
  u.withTarget (base ++ place.dropWhile (· = '/'))

/-- An address on its own; one that names no host is a place below an empty one. -/
def standing (u : Url) : Url :=
  if u.isAbsolute then u else (default : Url).below u.target

/-- The address can be given another host, if it names a scheme but no host: its path is empty or
starts with a slash. -/
def admitsHost (u : Url) : Bool :=
  u.scheme = "" || u.host != "" || u.path = "" || u.path.toList.head? = some '/'

/-- The path up to its last slash. -/
def folder (u : Url) : List Char := (u.path.toList.reverse.dropWhile (· != '/')).reverse

/-- The address of a place that is named without a scheme or without a host, seen from this one. -/
def seen (u place : Url) : Url :=
  if place.authority != "" then { place with scheme := u.scheme }
  else if place.path = "" then
    { u with query := place.query.or u.query, fragment := place.fragment }
  else
    let path := place.path.toList
    { u with
      path := String.ofList (normalPath (if path.head? = some '/' then path else u.folder ++ path))
      query := place.query, fragment := place.fragment }

/-- What stands after the last slash of the path. -/
def lastStep (u : Url) : String :=
  String.ofList (u.path.toList.reverse.takeWhile (· != '/')).reverse

end Url

end Settler.Http
