import SchemaSplit.Url.Host
import SchemaSplit.Text.Blank

namespace SchemaSplit

structure Url where
  isSecure : Bool
  /-- The name and the password before the host, encoded and with their marks. -/
  userInfo : List Char
  host : Url.Host
  /-- Unless it is the one that the scheme implies. -/
  port? : Option Nat
  path : List (List Char)
  query? : Option (List Char)
  fragment? : Option (List Char)
  deriving DecidableEq, Repr, Inhabited

namespace Url

def isSlash (c : Char) : Bool := c == '/' || c == '\\'

def endsAuthority (c : Char) : Bool := isSlash c || c == '?' || c == '#'

def userInfoText (cs : List Char) : List Char :=
  let (name, rest) := cs.span (· ≠ ':')
  let name := encode inUserInfo name
  let password := encode inUserInfo rest.tail
  if name.isEmpty ∧ password.isEmpty then []
  else if password.isEmpty then name ++ ['@']
  else name ++ ':' :: password ++ ['@']

def splitUserInfo (authority : List Char) : Option (List Char) × List Char :=
  match splitAt '@' authority.reverse with
  | host :: (part :: parts) => (some ((['@'].intercalate (part :: parts)).reverse), host.reverse)
  | _ => (none, authority)

def splitPort : (inBrackets : Bool) → List Char → List Char × Option (List Char)
  | _, [] => ([], none)
  | inBrackets, c :: rest =>
    if c = ':' ∧ !inBrackets then ([], some rest)
    else
      let inBrackets := if c = '[' then true else if c = ']' then false else inBrackets
      let (host, port) := splitPort inBrackets rest
      (c :: host, port)

def portOf (implied : Nat) (cs : List Char) : Except Fault (Option Nat) :=
  if cs.isEmpty then .ok none
  else
    match Text.natural? 10 cs with
    | some n =>
      if 65535 < n then .error .invalidPort else .ok (if n = implied then none else some n)
    | none => .error .invalidPort

def isSingleDot (segment : List Char) : Bool :=
  [".", "%2e"].contains (String.ofList (segment.map Char.toLower))

def isDoubleDot (segment : List Char) : Bool :=
  ["..", ".%2e", "%2e.", "%2e%2e"].contains (String.ofList (segment.map Char.toLower))

def walk (done : List (List Char)) : List (List Char) → List (List Char)
  | [] => done
  | segment :: rest =>
    if isDoubleDot segment then
      walk (done.dropLast ++ if rest.isEmpty then [[]] else []) rest
    else if isSingleDot segment then walk (done ++ if rest.isEmpty then [[]] else []) rest
    else walk (done ++ [segment]) rest

def segments (cs : List Char) : List (List Char) :=
  let cs := match cs with
    | c :: rest => if isSlash c then rest else c :: rest
    | [] => []
  walk [] ((splitAt '/' (cs.map fun c => if c = '\\' then '/' else c)).map (encode inPath))

def splitScheme? (cs : List Char) : Option (Bool × List Char) :=
  let after? (scheme : String) : Option (List Char) :=
    let scheme := scheme.toList
    if (cs.map Char.toLower).take scheme.length = scheme then some (cs.drop scheme.length)
    else none
  match after? "http://", after? "https://" with
  | some rest, _ => some (false, rest)
  | _, some rest => some (true, rest)
  | none, none => none

def ofRest (isSecure : Bool) (rest : List Char) : Except Fault Url := do
  let rest := rest.filter fun c => c ≠ '\t' ∧ c ≠ '\n' ∧ c ≠ '\r'
  let rest := (rest.reverse.dropWhile (·.toNat ≤ 0x20)).reverse
  let (authority, rest) := (rest.dropWhile isSlash).span fun c => !endsAuthority c
  let (userInfo?, hostPort) := splitUserInfo authority
  let (hostText, portText?) := splitPort false hostPort
  let host ← Host.parse hostText
  let port? ← portOf (if isSecure then 443 else 80) (portText?.getD [])
  let (pathText, rest) := rest.span fun c => c ≠ '?' ∧ c ≠ '#'
  let (query?, rest) := match rest with
    | '?' :: rest => let (q, rest) := rest.span (· ≠ '#'); (some (encode inQuery q), rest)
    | rest => (none, rest)
  let fragment? := match rest with
    | '#' :: rest => some (encode inFragment rest)
    | _ => none
  return {
    isSecure
    userInfo := userInfoText (userInfo?.getD [])
    host
    port?
    path := segments pathText
    query?
    fragment? }

def text (u : Url) : String :=
  String.ofList <|
    (if u.isSecure then "https://" else "http://").toList ++ u.userInfo ++ u.host.text ++
    ((u.port?.map fun n => ':' :: Nat.toDigits 10 n).getD []) ++
    u.path.flatMap ('/' :: ·) ++
    ((u.query?.map ('?' :: ·)).getD []) ++ ((u.fragment?.map ('#' :: ·)).getD [])

end Url
end SchemaSplit
