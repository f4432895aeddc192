import DocumentQuery.Url.Address

/-!
# Reading URLs

A URL is cut at its separators, outside in: the scheme before the first colon,
the authority between the two slashes and the path, the user name before the
last at sign, and the port after the host.  Blanks around a URL and line
breaks and tabs anywhere in it do not count.
-/

namespace DocumentQuery.Url

/-- How strictly the standard treats a scheme. -/
inductive SchemeKind where
  /-- The host is a domain and must be there. -/
  | web
  /-- The host is a domain and may be missing. -/
  | file
  /-- The host may be any text. -/
  | plain
  deriving DecidableEq, Repr

def schemeKind (scheme : String) : SchemeKind :=
  if scheme = "file" then .file
  else if ["http", "https", "ws", "wss", "ftp"].contains scheme then .web
  else .plain

/-- A URL without the blanks around it and without tabs and line breaks. -/
def trim (cs : List Char) : List Char :=
  let isOuterBlank (c : Char) := decide (c.toNat ≤ 0x20)
  let inner := ((cs.dropWhile isOuterBlank).reverse.dropWhile isOuterBlank).reverse
  inner.filter fun c => !(c == '\t' || c == '\n' || c == '\r')

def isSchemeChar (c : Char) : Bool := c.isAlphanum || c == '+' || c == '-' || c == '.'

/-- The scheme in lower case, and what follows its colon. -/
def splitScheme (cs : List Char) : Option (String × List Char) :=
  match cs with
  | first :: _ =>
    if first.isAlpha then
      match cs.dropWhile isSchemeChar with
      | ':' :: rest => some (String.ofList ((cs.takeWhile isSchemeChar).map Char.toLower), rest)
      | _ => none
    else none
  | [] => none

/-- What ends an authority. -/
def endsAuthority (kind : SchemeKind) (c : Char) : Bool :=
  c == '/' || c == '?' || c == '#' || (kind != .plain && c == '\\')

/-- What stands before and after the last at sign. -/
def splitUser (authority : List Char) : Option (List Char × List Char) :=
  let reversed := authority.reverse
  match reversed.dropWhile (· != '@') with
  | [] => none
  | _ :: user => some (user.reverse, (reversed.takeWhile (· != '@')).reverse)

/-- The host at the front, and what follows it.  A colon inside brackets belongs
to the host. -/
def splitHost (bracketed : Bool) : List Char → List Char × List Char
  | [] => ([], [])
  | c :: rest =>
    if c == ':' && !bracketed then ([], c :: rest)
    else
      let (host, after) := splitHost (if c == '[' then true else if c == ']' then false
        else bracketed) rest
      (c :: host, after)

/-- The host as it is written, or nothing if it is empty. -/
def readHost (kind : SchemeKind) (host : List Char) : Except UrlFault (Option String) :=
  match host with
  | [] => if kind = .web then .error .emptyHost else .ok none
  | '[' :: inner =>
    if inner.getLast? = some ']' then
      match address? inner.dropLast with
      | some pieces => .ok (some (String.ofList ('[' :: showAddress pieces ++ [']'])))
      | none => .error .invalidAddress
    else .error .invalidAddress
  | _ =>
    if kind = .plain && host.any forbiddenInHost then .error .invalidHostChar
    else if kind ≠ .plain && isEmptyDomain host then .error .emptyHost
    else .ok (some (String.ofList (percentEncode (fun _ => false) host)))

/-- The port after a host, and what follows it.  No digits are no port. -/
def readPort (port : Option Nat) : List Char → Except UrlFault (Option Nat × List Char)
  | [] => .ok (port, [])
  | c :: rest =>
    match digitValue? c with
    | some d =>
      let n := 10 * port.getD 0 + d.val
      if 65535 < n then .error .invalidPort else readPort (some n) rest
    | none => if c = '\\' then .ok (port, c :: rest) else .error .invalidPort

/-- The segment that stays where it is. -/
def isSingleDot (segment : String) : Bool := [".", "%2e"].contains segment.toLower

/-- The segment that goes one up. -/
def isDoubleDot (segment : String) : Bool :=
  ["..", ".%2e", "%2e.", "%2e%2e"].contains segment.toLower

/-- A segment that names a drive: a letter and a colon or a bar, and nothing
after them or a backslash. -/
def isDrive (segment : String) : Bool :=
  match segment.toList with
  | letter :: mark :: rest =>
    letter.isAlpha && (mark == ':' || mark == '|') && (rest.isEmpty || rest.head? == some '\\')
  | _ => false

/-- The segments above the latest of those given, the latest first.  Nothing is
above the first segment, nor above a drive. -/
def above : List String → List String
  | [] => []
  | latest :: before => if isDrive latest then latest :: before else before

/-- The segments of a path with the dots taken out, given those before them, the
latest first. -/
def resolveSegments : (before : List String) → List String → List String
  | before, [] => before.reverse
  | before, [last] =>
    if isDoubleDot last then ("" :: above before).reverse
    else if isSingleDot last then ("" :: before).reverse
    else (last :: before).reverse
  | before, segment :: rest =>
    if isDoubleDot segment then resolveSegments (above before) rest
    else if isSingleDot segment then resolveSegments before rest
    else resolveSegments (segment :: before) rest

/-- The path that starts with the given characters, up to a query or fragment. -/
def readPath (cs : List Char) : String :=
  let path := cs.takeWhile fun c => !(c == '?' || c == '#')
  match path with
  | [] => ""
  | first :: rest =>
    let segments := (if first = '/' then rest else path).splitOn '/'
    let encoded := segments.map fun segment => String.ofList (percentEncode encodedInPath segment)
    String.join ((resolveSegments [] encoded).map ("/" ++ ·))

/-- A URL up to its path, given its authority and whether nothing follows that.
Also says what the authority holds after the port. -/
def readEndpoint (scheme : String) (kind : SchemeKind) (authority : List Char) (alone : Bool) :
    Except UrlFault (Url × List Char) := do
  let (user, hostAndPort) := (splitUser authority).getD ([], authority)
  if authority = ['@'] ∧ alone = false then throw .emptyHost
  let name := user.takeWhile (· != ':')
  let password := (user.dropWhile (· != ':')).drop 1
  let (hostText, afterHost) := splitHost false hostAndPort
  let host ← readHost kind hostText
  if host.isNone ∧ afterHost ≠ [] then throw .emptyHost
  let (port, afterPort) ← readPort none (afterHost.drop 1)
  if host.isNone ∧ (name ≠ [] ∨ password ≠ []) then throw .emptyHost
  let username := String.ofList (percentEncode encodedInUser name)
  return ({ scheme, host, port, username, path := "" }, afterPort)

/-- A URL with an authority, given what follows the two slashes. -/
def readAuthority (scheme : String) (kind : SchemeKind) (cs : List Char) :
    Except UrlFault Url := do
  let authority := cs.takeWhile (!endsAuthority kind ·)
  let tail := cs.dropWhile (!endsAuthority kind ·)
  let (url, afterPort) ← readEndpoint scheme kind authority tail.isEmpty
  return { url with path := readPath (afterPort ++ tail) }

/-- The URL that a text is. -/
def parse (text : String) : Except UrlFault Url := do
  match splitScheme (trim text.toList) with
  | none => throw .noScheme
  | some (scheme, rest) =>
    match schemeKind scheme with
    | .web => readAuthority scheme .web (rest.dropWhile fun c => c == '/' || c == '\\')
    | .file =>
      match rest with
      | a :: b :: rest =>
        if (a == '/' || a == '\\') && (b == '/' || b == '\\') then do
          let host ← readHost .file (rest.takeWhile (!endsAuthority .file ·))
          return { scheme, host, username := "", port := none, path := "" }
        else return { scheme, host := none, username := "", port := none, path := "" }
      | _ => return { scheme, host := none, username := "", port := none, path := "" }
    | .plain =>
      match rest with
      | '/' :: '/' :: rest => readAuthority scheme .plain rest
      | _ => return { scheme, host := none, username := "", port := none, path := readPath rest }

end DocumentQuery.Url
